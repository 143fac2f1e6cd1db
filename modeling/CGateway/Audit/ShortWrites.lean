import Mathlib.Algebra.Order.BigOperators.Group.List
import Mathlib.Algebra.Order.Group.Nat
import Mathlib.Data.List.Perm.Subperm
import CGateway.Audit.Rotation

/-! # Short writes to the audit log

`audit_log_write` puts an entry into its stream in four pieces and flushes, and looks at none of the results: it
returns 0 for an entry of which a part was stored, or nothing. The replay has no other mark than the lengths, so a
part of an entry is read together with what was written behind it.

* `StreamBehaviour` — how much of the four pieces the stream takes, and how much of that it stores;
* `auditLogWriteOn`, `auditWriteRun` — the call on such a stream, and a sequence of calls with what they acknowledge;
* `recordBytes_entriesIn_le` — what is replayed is not more than what is stored;
* `acknowledged_iff` — every acknowledged entry is replayed if and only if each was stored whole. -/

namespace CGateway

open Bytes StreamParser

/-! ### The stream -/

/-- What the stream does during a call of `audit_log_write`. -/
structure StreamBehaviour where
  /-- So many bytes of the timestamp are taken by the first `fwrite`. -/
  timestamp : ℕ
  /-- So many of the type by the second. -/
  msgType : ℕ
  /-- So many of the length by the third. -/
  length : ℕ
  /-- So many of the payload by the fourth. -/
  payload : ℕ
  /-- So many of the bytes taken are stored by `fflush`. -/
  flush : ℕ
  deriving DecidableEq, Repr

/-- A call of `audit_log_write`: what is to be written, and how the stream behaves. -/
structure AuditWrite where
  entry : AuditEntry
  stream : StreamBehaviour
  deriving DecidableEq, Repr

/-- What is stored of an entry. -/
def AuditWrite.stored (order : ByteOrder) (call : AuditWrite) : List UInt8 :=
  ((hostBytes order 8 call.entry.timestampMs.toNat).take call.stream.timestamp ++
    ((beBytes call.entry.msgType.toNat).take call.stream.msgType ++
      ((beBytes (call.entry.payload.length % 2 ^ 32)).take call.stream.length ++
        call.entry.payload.take call.stream.payload))).take call.stream.flush

/-- `audit_log_write` on such a stream: the results of `fwrite` and `fflush` are not looked at. -/
def auditLogWriteOn (order : ByteOrder) (call : AuditWrite) (st : AuditStore) : Bool × AuditStore :=
  if call.entry.payload = [] then (false, st)
  else
    let bytes := (st.files st.log.fp).getD [] ++ call.stored order
    (true, { st with files := Function.update st.files st.log.fp (some bytes) })

/-- Some calls, one after the other: the entries for which 0 was returned, and the log behind the calls. -/
def auditWriteRun (order : ByteOrder) : List AuditWrite → AuditStore → List AuditEntry × AuditStore
  | [], st => ([], st)
  | call :: calls, st =>
      let (acknowledged, st) := auditLogWriteOn order call st
      let (entries, st) := auditWriteRun order calls st
      (if acknowledged then call.entry :: entries else entries, st)

/-- Nothing of the entry is dropped, by none of the five calls. -/
def AuditWrite.Whole (call : AuditWrite) : Prop :=
  8 ≤ call.stream.timestamp ∧ 4 ≤ call.stream.msgType ∧ 4 ≤ call.stream.length ∧
    call.entry.payload.length ≤ call.stream.payload ∧ 16 + call.entry.payload.length ≤ call.stream.flush

instance (call : AuditWrite) : Decidable call.Whole := inferInstanceAs (Decidable (_ ∧ _))

section Stored

variable {call : AuditWrite}

theorem length_auditRecord (order : ByteOrder) (entry : AuditEntry) :
    (auditRecord order entry).length = 16 + entry.payload.length := by
  simp only [auditRecord, List.length_append, length_hostBytes, length_beBytes]
  omega

theorem length_stored (order : ByteOrder) (call : AuditWrite) :
    (call.stored order).length =
      min call.stream.flush (min call.stream.timestamp 8 + (min call.stream.msgType 4 +
        (min call.stream.length 4 + min call.stream.payload call.entry.payload.length))) := by
  simp only [AuditWrite.stored, List.length_take, List.length_append, length_hostBytes, length_beBytes]

/-- An entry is stored whole if as many bytes are stored. -/
theorem whole_of_length (order : ByteOrder) (h : 16 + call.entry.payload.length ≤ (call.stored order).length) :
    call.Whole := by
  rw [length_stored] at h
  refine ⟨?_, ?_, ?_, ?_, ?_⟩ <;> omega

theorem length_stored_le (order : ByteOrder) (call : AuditWrite) :
    (call.stored order).length ≤ 16 + call.entry.payload.length := by
  rw [length_stored]
  omega

/-- An entry that is stored whole is stored as it is meant. -/
theorem stored_of_whole {order : ByteOrder} (h : call.Whole) : call.stored order = auditRecord order call.entry := by
  obtain ⟨htime, htype, hlength, hpayload, hflush⟩ := h
  have htime' : (hostBytes order 8 call.entry.timestampMs.toNat).take call.stream.timestamp = _ :=
    List.take_of_length_le (by rw [length_hostBytes]; exact htime)
  have htype' : (beBytes call.entry.msgType.toNat).take call.stream.msgType = _ := List.take_of_length_le htype
  have hlength' : (beBytes (call.entry.payload.length % 2 ^ 32)).take call.stream.length = _ :=
    List.take_of_length_le hlength
  rw [AuditWrite.stored, htime', htype', hlength', List.take_of_length_le hpayload]
  exact List.take_of_length_le (by rw [← length_auditRecord order] at hflush; exact hflush)

/-- A call during which nothing is dropped is the call of `AuditLog`. -/
theorem auditLogWriteOn_of_whole (order : ByteOrder) (h : call.Whole) (st : AuditStore) :
    auditLogWriteOn order call st = auditLogWrite order call.entry st := by
  rw [auditLogWriteOn, auditLogWrite, stored_of_whole h]

end Stored

/-! ### Calls on a fresh file -/

/-- The calls that return 0. -/
def acknowledgedCalls (calls : List AuditWrite) : List AuditWrite :=
  calls.filter fun call => call.entry.payload ≠ []

/-- What calls acknowledge, and what they leave in the file. -/
theorem auditWriteRun_spec (order : ByteOrder) (calls : List AuditWrite) (st : AuditStore) {bytes : List UInt8}
    (hfile : st.files st.log.fp = some bytes) :
    (auditWriteRun order calls st).1 = (acknowledgedCalls calls).map AuditWrite.entry ∧
      (auditWriteRun order calls st).2.log = st.log ∧
      (auditWriteRun order calls st).2.files st.log.fp =
        some (bytes ++ (acknowledgedCalls calls).flatMap (AuditWrite.stored order)) := by
  induction calls generalizing st bytes with
  | nil => exact ⟨rfl, rfl, by rw [acknowledgedCalls, List.filter_nil, List.flatMap_nil, List.append_nil]; exact hfile⟩
  | cons call calls ih =>
    by_cases hempty : call.entry.payload = []
    · have hskip : acknowledgedCalls (call :: calls) = acknowledgedCalls calls :=
        List.filter_cons_of_neg (by simpa using hempty)
      rw [auditWriteRun, auditLogWriteOn, if_pos hempty, hskip]
      exact ih st hfile
    · have hkeep : acknowledgedCalls (call :: calls) = call :: acknowledgedCalls calls :=
        List.filter_cons_of_pos (by simpa using hempty)
      rw [auditWriteRun, auditLogWriteOn, if_neg hempty, hkeep, hfile, Option.getD_some]
      obtain ⟨hentries, hlog, hbytes⟩ :=
        ih ⟨st.log, Function.update st.files st.log.fp (some (bytes ++ call.stored order))⟩
          (Function.update_self ..)
      refine ⟨?_, hlog, ?_⟩
      · rw [List.map_cons, ← hentries]
        rfl
      · rw [List.flatMap_cons, ← List.append_assoc]
        exact hbytes

/-- The bytes that entries take. -/
def recordBytes (entries : List AuditEntry) : ℕ := (entries.map fun entry => 16 + entry.payload.length).sum

/-- **What is replayed is not more than what is stored.** -/
theorem recordBytes_entriesIn_le (order : ByteOrder) (bytes : List UInt8) :
    recordBytes (entriesIn order bytes) ≤ bytes.length := by
  induction bytes using parse_induction (p := auditParser order) with
  | wait bytes h =>
    rw [entriesIn, parse_of_wait h]
    exact Nat.zero_le _
  | reject bytes h => exact absurd h (Step.ofOption_ne_reject _)
  | deliver bytes entry rest h ih =>
    obtain ⟨ts, ty, len, hts, hty, hlen, -, rfl, -⟩ := auditReadEntry_eq_some_iff.mp (Step.ofOption_eq_deliver.mp h)
    rw [entriesIn] at ih ⊢
    rw [parse_of_deliver h, Outcome.after_items, List.singleton_append, recordBytes, List.map_cons,
      List.sum_cons, ← recordBytes]
    simp only [List.length_append]
    omega

/-- Entries among others do not take more than these. -/
theorem recordBytes_le_of_subperm {entries others : List AuditEntry} (h : entries.Subperm others) :
    recordBytes entries ≤ recordBytes others := by
  obtain ⟨l, hperm, hsub⟩ := h
  calc recordBytes entries = recordBytes l := ((hperm.map _).sum_eq).symm
    _ ≤ recordBytes others := (hsub.map _).sum_le_sum fun _ _ => Nat.zero_le _

/-- Calls that store as much as their entries take store each of them whole. -/
theorem whole_of_recordBytes_le {order : ByteOrder} {calls : List AuditWrite}
    (h : recordBytes (calls.map AuditWrite.entry) ≤ (calls.flatMap (AuditWrite.stored order)).length) :
    ∀ call ∈ calls, call.Whole := by
  induction calls with
  | nil => simp
  | cons call calls ih =>
    have hle : (calls.flatMap (AuditWrite.stored order)).length ≤ recordBytes (calls.map AuditWrite.entry) := by
      clear h ih
      induction calls with
      | nil => rfl
      | cons call calls ih =>
        have hcall := length_stored_le order call
        rw [List.flatMap_cons, List.length_append, List.map_cons, recordBytes, List.map_cons, List.sum_cons,
          ← recordBytes]
        omega
    have hcall := length_stored_le order call
    rw [List.flatMap_cons, List.length_append, List.map_cons, recordBytes, List.map_cons, List.sum_cons,
      ← recordBytes] at h
    exact List.forall_mem_cons.mpr ⟨whole_of_length order (by omega), ih (by omega)⟩

/-- **Acknowledged entries.** On a fresh file, with payloads whose length the length field can say, a replay hands
out every entry for which `audit_log_write` returned 0 if and only if each of them was stored whole. -/
theorem acknowledged_iff (order : ByteOrder) (path : List UInt8) (files : Files) (calls : List AuditWrite)
    (hpath : path.length < 256) (hnul : 0 ∉ path) (hfresh : (files path).getD [] = [])
    (hlength : ∀ call ∈ calls, call.entry.payload.length ≤ 2 ^ 32 - 2) :
    let (acknowledged, st) := auditWriteRun order calls (auditLogOpen path files)
    acknowledged.Subperm (replayFile order st.files st.log.path) ↔
      ∀ call ∈ calls, call.entry.payload ≠ [] → call.Whole := by
  have hopened : (auditLogOpen path files).files path = some [] := by
    show fopenAppend path files path = _
    rw [fopenAppend, Function.update_self, hfresh]
  obtain ⟨hentries, hlog, hbytes⟩ := auditWriteRun_spec order calls (auditLogOpen path files) hopened
  have hfile : (auditWriteRun order calls (auditLogOpen path files)).2.files path =
      some ((acknowledgedCalls calls).flatMap (AuditWrite.stored order)) := hbytes
  have hread : (auditWriteRun order calls (auditLogOpen path files)).2.log.path = path := by
    rw [hlog]
    exact copyField_path hpath hnul
  have hwhole : (∀ call ∈ calls, call.entry.payload ≠ [] → call.Whole) ↔
      ∀ call ∈ acknowledgedCalls calls, call.Whole := by
    simp only [acknowledgedCalls, List.mem_filter, decide_eq_true_eq, and_imp, ne_eq]
  dsimp only
  rw [hwhole, hread, hentries, replayFile_eq order hfile]
  constructor
  · intro hsub
    exact whole_of_recordBytes_le
      ((recordBytes_le_of_subperm hsub).trans (recordBytes_entriesIn_le order _))
  · intro hall
    have hrecords : (acknowledgedCalls calls).flatMap (AuditWrite.stored order) =
        ((acknowledgedCalls calls).map AuditWrite.entry).flatMap (auditRecord order) := by
      rw [List.flatMap_map]
      exact List.flatMap_congr fun call hcall => stored_of_whole (hall call hcall)
    have hwritable : ∀ entry ∈ (acknowledgedCalls calls).map AuditWrite.entry, entry.Writable := by
      intro entry hentry
      obtain ⟨call, hcall, rfl⟩ := List.mem_map.mp hentry
      obtain ⟨hmem, hne⟩ := List.mem_filter.mp hcall
      exact ⟨List.length_pos_iff.mpr (by simpa using hne), hlength call hmem⟩
    rw [hrecords, entriesIn, parse_whole_encoded (auditParser_reads order) hwritable]

/-- The two entries on a stream that behaves in these ways. -/
def twoWrites (first second : StreamBehaviour) : List AuditWrite :=
  [⟨⟨1000, 1, ascii "first"⟩, first⟩, ⟨⟨2000, 2, ascii "second"⟩, second⟩]

/-- A stream that takes and stores all, here of payloads of up to 64 bytes. -/
def soundStream : StreamBehaviour := ⟨8, 4, 4, 64, 80⟩

/-- On a sound stream both entries are replayed. -/
theorem acknowledged_sound :
    ((auditWriteRun .little (twoWrites soundStream soundStream) (auditLogOpen (ascii "a.log") fun _ => none)).1).Subperm
      (replayFile .little
        (auditWriteRun .little (twoWrites soundStream soundStream) (auditLogOpen (ascii "a.log") fun _ => none)).2.files
        (ascii "a.log")) :=
  (acknowledged_iff .little (ascii "a.log") (fun _ => none) (twoWrites soundStream soundStream) (by decide)
    (by decide) rfl (by decide)).mpr (by decide)

/-- A stream that takes four of the five bytes of the first payload. -/
def shortStream : StreamBehaviour := ⟨8, 4, 4, 4, 80⟩

/-- Both entries are acknowledged. What is replayed is one entry that was never written: the first with a byte of the
second in its payload. -/
theorem acknowledged_short :
    let run := auditWriteRun .little (twoWrites shortStream soundStream) (auditLogOpen (ascii "a.log") fun _ => none)
    run.1 = twoEntries ∧
      replayFile .little run.2.files (ascii "a.log") = [⟨1000, 1, ascii "firs" ++ [208]⟩] := by
  decide

end CGateway
