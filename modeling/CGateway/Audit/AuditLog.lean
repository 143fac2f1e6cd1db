import CGateway.Lib.CString
import CGateway.Lib.StreamParser

/-! # The audit log

`audit_log.c`: entries are appended to a file, replayed from it, and put aside by a rotation. An entry is
its time in the byte order of the machine, its type and the length of its payload in network byte order,
and the payload. Files are kept by name; writing, renaming and reopening are taken to succeed, and so are
allocations.

* `auditLogOpen`, `auditLogWrite`, `auditLogReplay`, `auditLogRotate` — the calls;
* `auditParser`, `auditParser_reads` — the loop of the replay as a parser, which reads entries back;
* `auditReplayLoop_eq` — a replay that is not stopped hands out what the parser delivers;
* `audit_round_trip` — what is replayed of a file that was cut off. -/

namespace CGateway

open Bytes CString StreamParser

/-! ### The calls -/

/-- `audit_entry_t`; `payload_len` is the length of the payload. -/
structure AuditEntry where
  timestampMs : UInt64
  msgType : UInt32
  payload : List UInt8
  deriving DecidableEq, Repr

/-- The files, by name. -/
abbrev Files := List UInt8 → Option (List UInt8)

/-- `audit_log`: the file that `fp` is open on, and the path in its field of 256 bytes. -/
structure AuditLog where
  fp : List UInt8
  path : List UInt8
  deriving DecidableEq, Repr

/-- A log and the files around it. -/
structure AuditStore where
  log : AuditLog
  files : Files

/-- `fopen(path, "ab")`: a file that is not there is created. -/
def fopenAppend (path : List UInt8) (files : Files) : Files :=
  Function.update files path (some ((files path).getD []))

/-- `audit_log_open`: the stream is opened on the path as it is given, and the path is kept cut. -/
def auditLogOpen (path : List UInt8) (files : Files) : AuditStore :=
  ⟨⟨path, copyField 256 path⟩, fopenAppend path files⟩

/-- The bytes of an entry: timestamp, type, length and payload. -/
def auditRecord (order : ByteOrder) (entry : AuditEntry) : List UInt8 :=
  hostBytes order 8 entry.timestampMs.toNat ++ (beBytes entry.msgType.toNat ++
    (beBytes (entry.payload.length % 2 ^ 32) ++ entry.payload))

/-- `audit_log_write`, of the type and payload of an entry at its time; whether it was written. -/
def auditLogWrite (order : ByteOrder) (entry : AuditEntry) (st : AuditStore) : Bool × AuditStore :=
  if entry.payload = [] then (false, st)
  else
    let bytes := (st.files st.log.fp).getD [] ++ auditRecord order entry
    (true, { st with files := Function.update st.files st.log.fp (some bytes) })

/-- `fread` of so many bytes: nothing when the file ends before. -/
def fread (n : ℕ) (bytes : List UInt8) : Option (List UInt8 × List UInt8) :=
  if n ≤ bytes.length then some (bytes.take n, bytes.drop n) else none

/-- One turn of the loop of `audit_log_replay`: an entry and what follows it, nothing where the loop is
left. -/
def auditReadEntry (order : ByteOrder) (bytes : List UInt8) : Option (AuditEntry × List UInt8) := do
  let (timestamp, bytes) ← fread 8 bytes
  let (typeNet, bytes) ← fread 4 bytes
  let (lenNet, bytes) ← fread 4 bytes
  let (payload, bytes) ← fread (beNat lenNet) bytes
  return (⟨UInt64.ofNat (hostNat order timestamp), UInt32.ofNat (beNat typeNet), payload⟩, bytes)

section Replay

variable {σ : Type}

/-- The loop of `audit_log_replay`; `fuel` bounds its turns. A callback that does not return 0 stops it. -/
def auditReplayLoop (order : ByteOrder) (callback : AuditEntry → σ → ℤ × σ) :
    ℕ → List UInt8 → σ → ℤ → ℤ × σ
  | 0, _, userdata, count => (count, userdata)
  | fuel + 1, bytes, userdata, count =>
      match auditReadEntry order bytes with
      | none => (count, userdata)
      | some (entry, bytes) =>
          let (rc, userdata) := callback entry userdata
          if rc ≠ 0 then (count + 1, userdata)
          else auditReplayLoop order callback fuel bytes userdata (count + 1)

/-- `audit_log_replay`: the return value, and the user data behind the callbacks. -/
def auditLogReplay (order : ByteOrder) (callback : AuditEntry → σ → ℤ × σ) (userdata : σ)
    (st : AuditStore) : ℤ × σ :=
  match st.files st.log.path with
  | none => (-1, userdata)
  | some bytes => auditReplayLoop order callback (bytes.length + 1) bytes userdata 0

end Replay

/-- `rename`, which replaces a target that exists. -/
def renameFile (source target : List UInt8) (files : Files) : Files :=
  match files source with
  | none => files
  | some bytes => Function.update (Function.update files source none) target (some bytes)

/-- The name a rotation gives to the file, cut at 511 bytes. -/
def rotatedPath (log : AuditLog) (suffix : List UInt8) : List UInt8 :=
  (log.path ++ ascii "." ++ suffix).take 511

/-- `audit_log_rotate`. -/
def auditLogRotate (suffix : List UInt8) (st : AuditStore) : AuditStore where
  log := { st.log with fp := st.log.path }
  files := fopenAppend st.log.path (renameFile st.log.path (rotatedPath st.log suffix) st.files)

/-! ### Reading entries back -/

section Reading

variable {order : ByteOrder} {bytes rest : List UInt8} {entry : AuditEntry}

/-- What was read is there, and it has the length that was asked for. -/
theorem fread_eq_some_iff {n : ℕ} {piece : List UInt8} :
    fread n bytes = some (piece, rest) ↔ bytes = piece ++ rest ∧ piece.length = n := by
  rw [fread]
  constructor
  · intro h
    split at h
    · next hle =>
        obtain ⟨rfl, rfl⟩ := Prod.mk.inj (Option.some.inj h)
        exact ⟨(List.take_append_drop n bytes).symm, List.length_take_of_le hle⟩
    · cases h
  · rintro ⟨rfl, rfl⟩
    rw [if_pos (by simp), List.take_left, List.drop_left]

/-- An entry is read from its four pieces. -/
theorem auditReadEntry_eq_some_iff :
    auditReadEntry order bytes = some (entry, rest) ↔
      ∃ timestamp typeNet lenNet : List UInt8, timestamp.length = 8 ∧ typeNet.length = 4 ∧
        lenNet.length = 4 ∧ entry.payload.length = beNat lenNet ∧
        bytes = timestamp ++ (typeNet ++ (lenNet ++ (entry.payload ++ rest))) ∧
        entry.timestampMs = UInt64.ofNat (hostNat order timestamp) ∧ entry.msgType = UInt32.ofNat (beNat typeNet) := by
  simp only [auditReadEntry, Option.bind_eq_bind, Option.bind_eq_some_iff, Option.pure_def,
    Option.some.injEq, Prod.mk.injEq, Prod.exists, fread_eq_some_iff]
  constructor
  · rintro ⟨ts, _, ⟨rfl, hts⟩, ty, _, ⟨rfl, hty⟩, len, _, ⟨rfl, hlen⟩, payload, _, ⟨rfl, hpayload⟩, rfl, rfl⟩
    exact ⟨ts, ty, len, hts, hty, hlen, hpayload, rfl, rfl, rfl⟩
  · rintro ⟨ts, ty, len, hts, hty, hlen, hpayload, rfl, htime, htype⟩
    refine ⟨ts, _, ⟨rfl, hts⟩, ty, _, ⟨rfl, hty⟩, len, _, ⟨rfl, hlen⟩, entry.payload, _, ⟨rfl, hpayload⟩, ?_, rfl⟩
    rw [← htime, ← htype]

/-- What follows an entry has no influence on it. -/
theorem auditReadEntry_append (h : auditReadEntry order bytes = some (entry, rest))
    (more : List UInt8) : auditReadEntry order (bytes ++ more) = some (entry, rest ++ more) := by
  obtain ⟨ts, ty, len, hts, hty, hlen, hpayload, rfl, htime, htype⟩ := auditReadEntry_eq_some_iff.mp h
  refine auditReadEntry_eq_some_iff.mpr
    ⟨ts, ty, len, hts, hty, hlen, hpayload, ?_, htime, htype⟩
  simp only [List.append_assoc]

/-- The loop of the replay as a parser: it stops where more bytes would be needed. -/
def auditParser (order : ByteOrder) : Parser UInt8 AuditEntry where
  step bytes := .ofOption (auditReadEntry order bytes)
  deliver_shorter := by
    intro bytes entry rest h
    obtain ⟨ts, ty, len, hts, -, -, -, rfl, -⟩ :=
      auditReadEntry_eq_some_iff.mp (Step.ofOption_eq_deliver.mp h)
    simp only [List.length_append]
    omega
  deliver_stable := by
    intro bytes entry rest more h
    exact Step.ofOption_eq_deliver.mpr (auditReadEntry_append (Step.ofOption_eq_deliver.mp h) more)
  reject_stable := by
    intro bytes more h
    exact absurd h (Step.ofOption_ne_reject _)

/-- The lengths that the length field can say and for which the buffer is allocated as it is meant. -/
def AuditEntry.Writable (entry : AuditEntry) : Prop :=
  1 ≤ entry.payload.length ∧ entry.payload.length ≤ 2 ^ 32 - 2

instance (entry : AuditEntry) : Decidable entry.Writable := inferInstanceAs (Decidable (_ ∧ _))

/-- **Entries are read back.** -/
theorem auditParser_reads (order : ByteOrder) : Reads (auditParser order) (auditRecord order) AuditEntry.Writable := by
  intro entry hentry rest
  have hlen : entry.payload.length % 2 ^ 32 = entry.payload.length := Nat.mod_eq_of_lt (by have := hentry.2; omega)
  refine Step.ofOption_eq_deliver.mpr (auditReadEntry_eq_some_iff.mpr
    ⟨hostBytes order 8 entry.timestampMs.toNat, beBytes entry.msgType.toNat,
      beBytes (entry.payload.length % 2 ^ 32), length_hostBytes _ _ _, rfl, rfl, ?_, ?_, ?_, ?_⟩)
  · rw [beNat_beBytes (Nat.mod_lt _ (by decide)), hlen]
  · simp only [auditRecord, List.append_assoc]
  · rw [hostNat_hostBytes order entry.timestampMs.toNat_lt, UInt64.ofNat_toNat]
  · rw [beNat_beBytes entry.msgType.toNat_lt, UInt32.ofNat_toNat]

end Reading

/-! ### Replaying -/

/-- The entries that a file holds, up to the first that is not whole. -/
def entriesIn (order : ByteOrder) (bytes : List UInt8) : List AuditEntry :=
  (parse (auditParser order) bytes).items

section Replaying

variable {σ : Type} {callback : AuditEntry → σ → ℤ × σ}

/-- The user data when a callback has been given some entries. -/
def givenTo (callback : AuditEntry → σ → ℤ × σ) (entries : List AuditEntry) (userdata : σ) : σ :=
  entries.foldl (fun userdata entry => (callback entry userdata).2) userdata

/-- **A replay that is not stopped.** The callback is given the entries of the file, and they are
counted. -/
theorem auditReplayLoop_eq (order : ByteOrder) (hgoes : ∀ entry userdata, (callback entry userdata).1 = 0)
    (bytes : List UInt8) {fuel : ℕ} (hfuel : bytes.length < fuel) (userdata : σ) (count : ℤ) :
    auditReplayLoop order callback fuel bytes userdata count =
      (count + (entriesIn order bytes).length, givenTo callback (entriesIn order bytes) userdata) := by
  induction bytes using parse_induction (p := auditParser order) generalizing fuel userdata count with
  | wait bytes h =>
    obtain ⟨fuel, rfl⟩ := Nat.exists_eq_succ_of_ne_zero (Nat.ne_zero_of_lt hfuel)
    rw [entriesIn, parse_of_wait h, auditReplayLoop, Step.ofOption_eq_wait.mp h]
    simp [givenTo]
  | reject bytes h => exact absurd h (Step.ofOption_ne_reject _)
  | deliver bytes entry rest h ih =>
    obtain ⟨fuel, rfl⟩ := Nat.exists_eq_succ_of_ne_zero (Nat.ne_zero_of_lt hfuel)
    have hshort := (auditParser order).deliver_shorter h
    rw [entriesIn, parse_of_deliver h, auditReplayLoop, Step.ofOption_eq_deliver.mp h]
    dsimp only
    rw [if_neg (by rw [hgoes]; decide), ih (by omega)]
    simp only [Outcome.after_items, List.singleton_append, List.length_cons, givenTo, List.foldl_cons, entriesIn]
    push_cast
    rw [add_assoc, add_comm (1 : ℤ)]

end Replaying

/-! ### A file that is cut off -/

/-- Some entries, written one after the other. -/
def auditWriteAll (order : ByteOrder) (entries : List AuditEntry) (st : AuditStore) : AuditStore :=
  entries.foldl (fun st entry => (auditLogWrite order entry st).2) st

/-- A file without what is behind its first `k` bytes. -/
def truncateFile (path : List UInt8) (k : ℕ) (files : Files) : Files :=
  Function.update files path ((files path).map (List.take k))

section Writing

variable (order : ByteOrder)

/-- A written entry is at the end of the file. -/
theorem auditLogWrite_eq {st : AuditStore} {entry : AuditEntry} (hentry : entry.Writable) {bytes : List UInt8}
    (hfile : st.files st.log.fp = some bytes) :
    auditLogWrite order entry st =
      (true, { st with files :=
        Function.update st.files st.log.fp (some (bytes ++ auditRecord order entry)) }) := by
  have hne : entry.payload ≠ [] := List.ne_nil_of_length_pos hentry.1
  rw [auditLogWrite, if_neg hne, hfile, Option.getD_some]

/-- Written entries are in the file, in their order. -/
theorem auditWriteAll_spec {entries : List AuditEntry} (hentries : ∀ e ∈ entries, e.Writable)
    (st : AuditStore) {bytes : List UInt8} (hfile : st.files st.log.fp = some bytes) :
    (auditWriteAll order entries st).log = st.log ∧
      (auditWriteAll order entries st).files st.log.fp = some (bytes ++ entries.flatMap (auditRecord order)) := by
  induction entries generalizing st bytes with
  | nil =>
    rw [List.flatMap_nil, List.append_nil]
    exact ⟨rfl, hfile⟩
  | cons entry entries ih =>
    rw [List.forall_mem_cons] at hentries
    have hwrite := auditLogWrite_eq order hentries.1 hfile
    have hfile' : (auditLogWrite order entry st).2.files (auditLogWrite order entry st).2.log.fp =
        some (bytes ++ auditRecord order entry) := by
      rw [hwrite]
      exact Function.update_self ..
    have hrest := ih hentries.2 _ hfile'
    rw [hwrite] at hrest
    rw [auditWriteAll, List.foldl_cons, hwrite, List.flatMap_cons, ← List.append_assoc]
    exact hrest

/-- A path that fits is kept whole. -/
theorem copyField_path {path : List UInt8} (hpath : path.length < 256) (hnul : 0 ∉ path) :
    copyField 256 path = path := by
  rw [copyField, cstr_of_no_zero hnul]
  exact List.take_of_length_le (Nat.le_of_lt_succ hpath)

end Writing

/-- **The audit log under truncation.** Entries are written to a fresh file, which is then cut off at any
byte. A replay that is not stopped hands out the entries that are wholly there, in their order and as they
were written, and returns their number. -/
theorem audit_round_trip (order : ByteOrder) (path : List UInt8) (files : Files) (entries : List AuditEntry)
    (k : ℕ) {σ : Type} (callback : AuditEntry → σ → ℤ × σ) (userdata : σ) (hpath : path.length < 256)
    (hnul : 0 ∉ path) (hfresh : (files path).getD [] = []) (hentries : ∀ e ∈ entries, e.Writable)
    (hgoes : ∀ entry userdata, (callback entry userdata).1 = 0) :
    let st := auditWriteAll order entries (auditLogOpen path files)
    auditLogReplay order callback userdata { st with files := truncateFile path k st.files } =
      (((wholeIn (auditRecord order) k entries).length : ℤ),
        givenTo callback (wholeIn (auditRecord order) k entries) userdata) := by
  have hopened : (auditLogOpen path files).files path = some [] := by
    show fopenAppend path files path = _
    rw [fopenAppend, Function.update_self, hfresh]
  obtain ⟨hlog, hwritten⟩ := auditWriteAll_spec order hentries (auditLogOpen path files) hopened
  have hfile : (auditWriteAll order entries (auditLogOpen path files)).files path =
      some (entries.flatMap (auditRecord order)) := hwritten
  have hread : (auditWriteAll order entries (auditLogOpen path files)).log.path = path := by
    rw [hlog]
    exact copyField_path hpath hnul
  dsimp only
  rw [auditLogReplay]
  dsimp only
  rw [hread, truncateFile, Function.update_self, hfile, Option.map_some]
  dsimp only
  rw [auditReplayLoop_eq order hgoes _ (Nat.lt_succ_self _), entriesIn,
    parse_take_encoded (auditParser_reads order) hentries, zero_add]

/-- A callback that keeps the entries it is given. -/
def keepEntry (entry : AuditEntry) (kept : List AuditEntry) : ℤ × List AuditEntry :=
  (0, kept ++ [entry])

/-- Two short entries. -/
def twoEntries : List AuditEntry := [⟨1000, 1, ascii "first"⟩, ⟨2000, 2, ascii "second"⟩]

/-- The second entry lacks its last byte, so the first is all that is replayed. -/
theorem audit_round_trip_torn :
    wholeIn (auditRecord .little) 42 twoEntries = [⟨1000, 1, ascii "first"⟩] ∧
      (let st := auditWriteAll .little twoEntries (auditLogOpen (ascii "a.log") fun _ => none)
      auditLogReplay .little keepEntry []
          { st with files := truncateFile (ascii "a.log") 42 st.files } =
        (((wholeIn (auditRecord .little) 42 twoEntries).length : ℤ),
          givenTo keepEntry (wholeIn (auditRecord .little) 42 twoEntries) [])) := by
  refine ⟨by decide, ?_⟩
  exact audit_round_trip .little (ascii "a.log") (fun _ => none) twoEntries 42 keepEntry [] (by decide)
    (by decide) rfl (by decide) (fun _ _ => rfl)

end CGateway
