import Mathlib.Data.List.Flatten
import Mathlib.Data.List.Nodup
import CGateway.Audit.AuditLog
import CGateway.Lib.Machine
import CGateway.Lib.Slots

/-! # Rotation of the audit log

`audit_log_rotate` renames the file of the log to a name that the caller's suffix makes, and begins a new
one. A name that was used before is used again without a word, and what was in that file is gone.

* `auditStep`, `AuditRun` — writes and rotations from a fresh file on;
* `rotatedFiles`, `replayed`, `written` — the files put aside, what is replayed of all files, and what was
  written;
* `overwritten` — the entries that a rotation replaces;
* `LogInv`, `logInv_of_run` — what is replayed is a part of what was written, and how much is missing;
* `rotation_iff` — nothing is lost if and only if no rotation replaces entries. -/

namespace CGateway

open Bytes CString Machine Slots StreamParser

/-! ### Runs -/

/-- A call on the log. -/
inductive AuditCall where
  | write (entry : AuditEntry)
  | rotate (suffix : List UInt8)
  deriving DecidableEq, Repr

/-- The length of the payload that a call writes. -/
def AuditCall.payloadLength : AuditCall → ℕ
  | .write entry => entry.payload.length
  | .rotate _ => 0

/-- One call; whether it succeeded. -/
def auditStep (order : ByteOrder) (st : AuditStore) : AuditCall → AuditStore × Bool
  | .write entry => ((auditLogWrite order entry st).2, (auditLogWrite order entry st).1)
  | .rotate suffix => (auditLogRotate suffix st, true)

/-- A call as the history keeps it. -/
abbrev AuditMove := Record AuditStore AuditCall Bool

/-- A run on a log that was opened on a file. -/
abbrev AuditRun (order : ByteOrder) (path : List UInt8) (files : Files) (past : List AuditMove)
    (st : AuditStore) : Prop :=
  Run (auditStep order) (auditLogOpen path files) past st

/-- The entries that were written, in their order. -/
def written : List AuditMove → List AuditEntry
  | [] => []
  | r :: past =>
      match r.input with
      | .write entry => if r.output then written past ++ [entry] else written past
      | .rotate _ => written past

/-- The files that were put aside, in the order of their rotation: one that is replaced counts by its last
rotation. -/
def rotatedFiles : List AuditMove → List (List UInt8)
  | [] => []
  | r :: past =>
      match r.input with
      | .write _ => rotatedFiles past
      | .rotate suffix =>
          (rotatedFiles past).erase (rotatedPath r.before.log suffix) ++
            [rotatedPath r.before.log suffix]

theorem rotatedFiles_rotate (order : ByteOrder) (st : AuditStore) (suffix : List UInt8) (past : List AuditMove) :
    rotatedFiles (recordOf (auditStep order) st (.rotate suffix) :: past) =
      (rotatedFiles past).erase (rotatedPath st.log suffix) ++ [rotatedPath st.log suffix] := rfl

/-- What `audit_log_replay` hands out of a file. -/
def replayFile (order : ByteOrder) (files : Files) (name : List UInt8) : List AuditEntry :=
  (auditLogReplay order keepEntry [] ⟨⟨name, name⟩, files⟩).2

/-- What is replayed of the files put aside and of the current one. -/
def replayed (order : ByteOrder) (past : List AuditMove) (st : AuditStore) : List AuditEntry :=
  (rotatedFiles past).flatMap (replayFile order st.files) ++ replayFile order st.files st.log.path

/-- The entries in a file put aside `earlier` that the call replaces by another file. -/
def overwritten (order : ByteOrder) (r : AuditMove) (earlier : List AuditMove) : List AuditEntry :=
  match r.input with
  | .write _ => []
  | .rotate suffix =>
      if rotatedPath r.before.log suffix ∈ rotatedFiles earlier then
        replayFile order r.before.files (rotatedPath r.before.log suffix)
      else []

/-- How many entries the rotations of a history have replaced. -/
def lostCount (order : ByteOrder) : List AuditMove → ℕ
  | [] => 0
  | r :: past => (overwritten order r past).length + lostCount order past

/-! ### Files of entries -/

section Files

variable {order : ByteOrder} {files files' : Files} {name : List UInt8} {entries : List AuditEntry}

/-- The file holds these entries and nothing else. -/
structure FileHolds (order : ByteOrder) (files : Files) (name : List UInt8)
    (entries : List AuditEntry) : Prop where
  bytes : files name = some (entries.flatMap (auditRecord order))
  writable : ∀ e ∈ entries, e.Writable

/-- A callback that keeps its entries has kept them all. -/
theorem givenTo_keepEntry (entries kept : List AuditEntry) : givenTo keepEntry entries kept = kept ++ entries := by
  induction entries generalizing kept with
  | nil => rw [givenTo, List.foldl_nil, List.append_nil]
  | cons entry entries ih =>
    have hrest := ih (kept ++ [entry])
    rw [List.append_assoc, List.singleton_append] at hrest
    exact hrest

/-- What is replayed of a file. -/
theorem replayFile_eq (order : ByteOrder) {bytes : List UInt8} (h : files name = some bytes) :
    replayFile order files name = entriesIn order bytes := by
  have hgoes : ∀ entry kept, (keepEntry entry kept).1 = 0 := fun _ _ => rfl
  rw [replayFile, auditLogReplay]
  dsimp only
  rw [h]
  dsimp only
  rw [auditReplayLoop_eq order hgoes bytes (Nat.lt_succ_self _), givenTo_keepEntry, List.nil_append]

/-- **The entries of a file are replayed from it.** -/
theorem FileHolds.replay (h : FileHolds order files name entries) : replayFile order files name = entries := by
  rw [replayFile_eq order h.bytes, entriesIn, parse_whole_encoded (auditParser_reads order) h.writable]

/-- What is in a file depends on the file alone. -/
theorem replayFile_congr (h : files' name = files name) :
    replayFile order files' name = replayFile order files name := by
  rw [replayFile, replayFile, auditLogReplay, auditLogReplay]
  dsimp only
  rw [h]

/-- A rotation target is longer than the path it is made from. -/
theorem rotatedPath_ne (log : AuditLog) (hpath : log.path.length < 256) (suffix : List UInt8) :
    rotatedPath log suffix ≠ log.path := by
  intro heq
  have hlength := congrArg List.length heq
  rw [rotatedPath, List.length_take, List.length_append, List.length_append] at hlength
  have hdot : (ascii ".").length = 1 := rfl
  omega

end Files

/-! ### One call -/

section Calls

variable {order : ByteOrder} {st : AuditStore} {name : List UInt8}

/-- A write concerns the file that the log is open on. -/
theorem files_write_of_ne (entry : AuditEntry) (hname : name ≠ st.log.fp) :
    (auditLogWrite order entry st).2.files name = st.files name := by
  rw [auditLogWrite]
  split
  · rfl
  · exact Function.update_of_ne hname ..

/-- A write appends its entry to the file. -/
theorem FileHolds.write {entries : List AuditEntry} {entry : AuditEntry}
    (h : FileHolds order st.files st.log.fp entries) (hentry : entry.Writable) :
    FileHolds order (auditLogWrite order entry st).2.files st.log.fp (entries ++ [entry]) := by
  rw [auditLogWrite_eq order hentry h.bytes]
  refine ⟨?_, ?_⟩
  · dsimp only
    rw [Function.update_self, List.flatMap_append, List.flatMap_singleton]
  · intro e he
    rcases List.mem_append.mp he with he | he
    · exact h.writable e he
    · rwa [List.mem_singleton.mp he]

variable {suffix : List UInt8}

/-- The file names after a rotation. -/
theorem files_rotate (hne : rotatedPath st.log suffix ≠ st.log.path) {bytes : List UInt8}
    (hfile : st.files st.log.path = some bytes) (name : List UInt8) :
    (auditLogRotate suffix st).files name =
      if name = st.log.path then some []
      else if name = rotatedPath st.log suffix then some bytes
      else st.files name := by
  have hgone : renameFile st.log.path (rotatedPath st.log suffix) st.files st.log.path = none := by
    rw [renameFile, hfile]
    dsimp only
    rw [Function.update_of_ne hne.symm, Function.update_self]
  show fopenAppend st.log.path (renameFile st.log.path (rotatedPath st.log suffix) st.files) name = _
  rw [fopenAppend, hgone, Option.getD_none]
  by_cases hcurrent : name = st.log.path
  · rw [if_pos hcurrent, hcurrent, Function.update_self]
  · rw [if_neg hcurrent, Function.update_of_ne hcurrent, renameFile, hfile]
    dsimp only
    by_cases htarget : name = rotatedPath st.log suffix
    · rw [if_pos htarget, htarget, Function.update_self]
    · rw [if_neg htarget, Function.update_of_ne htarget, Function.update_of_ne hcurrent]

end Calls

/-! ### The invariant -/

/-- **The log behind a history.** It is open on its path, every file of it holds entries, and what is
replayed of them is a part of what was written: all but the entries that rotations have replaced. -/
structure LogInv (order : ByteOrder) (path : List UInt8) (past : List AuditMove) (st : AuditStore) :
    Prop where
  log : st.log = ⟨path, path⟩
  nodup : (rotatedFiles past).Nodup
  apart : path ∉ rotatedFiles past
  current : ∃ entries, FileHolds order st.files path entries
  aside : ∀ name ∈ rotatedFiles past, ∃ entries, FileHolds order st.files name entries
  part : (replayed order past st).Sublist (written past)
  count : (written past).length = (replayed order past st).length + lostCount order past

section Invariant

variable {order : ByteOrder} {path : List UInt8} {past : List AuditMove} {st : AuditStore}

/-- The log as it was opened. -/
theorem logInv_open (hpath : path.length < 256) (hnul : 0 ∉ path) {files : Files}
    (hfresh : (files path).getD [] = []) : LogInv order path [] (auditLogOpen path files) := by
  have hfile : FileHolds order (auditLogOpen path files).files path [] := by
    refine ⟨?_, fun e he => absurd he List.not_mem_nil⟩
    show fopenAppend path files path = _
    rw [fopenAppend, Function.update_self, hfresh]
    rfl
  have hlog : (auditLogOpen path files).log = ⟨path, path⟩ := by
    show AuditLog.mk path (copyField 256 path) = _
    rw [copyField_path hpath hnul]
  have hnothing : replayed order [] (auditLogOpen path files) = [] := by
    rw [replayed, hlog]
    exact hfile.replay
  refine ⟨hlog, List.nodup_nil, List.not_mem_nil, ⟨_, hfile⟩, fun e he => absurd he List.not_mem_nil, ?_, ?_⟩
  · rw [hnothing]
    exact List.nil_sublist _
  · rw [hnothing]
    rfl

/-- A write of nothing fails and leaves everything as it was. -/
theorem LogInv.write_nil (h : LogInv order path past st) {entry : AuditEntry} (hempty : entry.payload = []) :
    LogInv order path (recordOf (auditStep order) st (.write entry) :: past)
      (auditStep order st (.write entry)).1 := by
  have hstep : auditStep order st (.write entry) = (st, false) := by
    rw [auditStep, auditLogWrite, if_pos hempty]
  have hrecord : recordOf (auditStep order) st (.write entry) = ⟨st, .write entry, false, st⟩ := by
    rw [recordOf, hstep]
  rw [hrecord, hstep]
  refine ⟨h.log, h.nodup, h.apart, h.current, h.aside, h.part, ?_⟩
  rw [lostCount, overwritten, List.length_nil, Nat.zero_add]
  exact h.count

/-- A write adds its entry to the end of what was written and of what is replayed. -/
theorem LogInv.write (h : LogInv order path past st) {entry : AuditEntry} (hentry : entry.Writable) :
    LogInv order path (recordOf (auditStep order) st (.write entry) :: past)
      (auditStep order st (.write entry)).1 := by
  obtain ⟨entries, hcurrent⟩ := h.current
  have hfp : st.log.fp = path := by rw [h.log]
  have hwrite := auditLogWrite_eq order hentry (hfp.symm ▸ hcurrent.bytes)
  have hstep : auditStep order st (.write entry) = ((auditLogWrite order entry st).2, true) := by rw [auditStep, hwrite]
  have hlog : (auditStep order st (.write entry)).1.log = st.log := by rw [hstep, hwrite]
  have hafter : FileHolds order (auditStep order st (.write entry)).1.files path
      (entries ++ [entry]) := by
    have hheld : FileHolds order st.files st.log.fp entries := hfp.symm ▸ hcurrent
    have hadded := hheld.write hentry
    rwa [hfp] at hadded
  have hothers : ∀ name ∈ rotatedFiles past, (auditStep order st (.write entry)).1.files name = st.files name := by
    intro name hname
    refine files_write_of_ne entry ?_
    rw [hfp]
    rintro rfl
    exact h.apart hname
  have hwritten : written (recordOf (auditStep order) st (.write entry) :: past) = written past ++ [entry] := by
    simp only [written, recordOf_input, recordOf_output, hstep, if_true]
  have hreplayed : replayed order (recordOf (auditStep order) st (.write entry) :: past)
      (auditStep order st (.write entry)).1 = replayed order past st ++ [entry] := by
    rw [replayed, replayed, hlog, h.log, hafter.replay, hcurrent.replay, ← List.append_assoc]
    refine congrArg (· ++ entries ++ [entry]) ?_
    exact List.flatMap_congr fun name hname => replayFile_congr (hothers name hname)
  refine ⟨hlog.trans h.log, h.nodup, h.apart, ⟨_, hafter⟩, ?_, ?_, ?_⟩
  · intro name hname
    obtain ⟨held, hheld⟩ := h.aside name hname
    exact ⟨held, (hothers name hname).trans hheld.bytes, hheld.writable⟩
  · rw [hreplayed, hwritten]
    exact h.part.append (List.Sublist.refl _)
  · rw [hreplayed, hwritten, lostCount, List.length_append, List.length_append, h.count]
    simp only [overwritten, recordOf_input, List.length_nil]
    omega

/-- What is replayed of the files put aside, and what of it a rotation replaces. -/
theorem length_overwritten (order : ByteOrder) (past : List AuditMove) (st : AuditStore) (suffix : List UInt8) :
    ((rotatedFiles past).flatMap (replayFile order st.files)).length =
      (((rotatedFiles past).erase (rotatedPath st.log suffix)).flatMap (replayFile order st.files)).length +
          (overwritten order (recordOf (auditStep order) st (.rotate suffix)) past).length := by
  show _ = _ + (if rotatedPath st.log suffix ∈ rotatedFiles past then
    replayFile order st.files (rotatedPath st.log suffix) else []).length
  by_cases hmem : rotatedPath st.log suffix ∈ rotatedFiles past
  · rw [if_pos hmem, length_flatMap_erase _ hmem]
  · rw [if_neg hmem, List.erase_of_not_mem hmem, List.length_nil, Nat.add_zero]

section Rotate

variable (h : LogInv order path past st) (hpath : path.length < 256) (suffix : List UInt8)

include h hpath

/-- The files behind a rotation: a new one, the one put aside, and the others. -/
theorem LogInv.files_rotate (name : List UInt8) :
    (auditLogRotate suffix st).files name =
      if name = path then some []
      else if name = rotatedPath st.log suffix then st.files path
      else st.files name := by
  have hlogpath : st.log.path = path := by rw [h.log]
  obtain ⟨entries, hcurrent⟩ := h.current
  have hfiles := CGateway.files_rotate
    (CGateway.rotatedPath_ne st.log (by rwa [hlogpath]) suffix) (by rw [hlogpath]; exact hcurrent.bytes) name
  rwa [hlogpath, ← hcurrent.bytes] at hfiles

/-- The name of the file put aside is not the one of the log. -/
theorem LogInv.rotatedPath_ne : rotatedPath st.log suffix ≠ path := by
  have hlogpath : st.log.path = path := by rw [h.log]
  have hne := CGateway.rotatedPath_ne st.log (by rwa [hlogpath]) suffix
  rwa [hlogpath] at hne

/-- A file put aside earlier, under another name, stays. -/
theorem LogInv.files_kept {name : List UInt8}
    (hname : name ∈ (rotatedFiles past).erase (rotatedPath st.log suffix)) :
    name ∈ rotatedFiles past ∧ (auditLogRotate suffix st).files name = st.files name := by
  obtain ⟨hdiffers, hmem⟩ := h.nodup.mem_erase_iff.mp hname
  have hcurrent : name ≠ path := by
    rintro rfl
    exact h.apart hmem
  exact ⟨hmem, by rw [h.files_rotate hpath, if_neg hcurrent, if_neg hdiffers]⟩

/-- What is replayed behind a rotation: nothing of the file that was replaced. -/
theorem LogInv.replayed_rotate :
    replayed order (recordOf (auditStep order) st (.rotate suffix) :: past)
        (auditStep order st (.rotate suffix)).1 =
      ((rotatedFiles past).erase (rotatedPath st.log suffix)).flatMap (replayFile order st.files) ++
        replayFile order st.files path := by
  obtain ⟨entries, hcurrent⟩ := h.current
  have hne := h.rotatedPath_ne hpath suffix
  have hnew : FileHolds order (auditLogRotate suffix st).files path [] :=
    ⟨by rw [h.files_rotate hpath, if_pos rfl]; rfl, nofun⟩
  have haside : FileHolds order (auditLogRotate suffix st).files (rotatedPath st.log suffix) entries :=
    ⟨by rw [h.files_rotate hpath, if_neg hne, if_pos rfl, hcurrent.bytes], hcurrent.writable⟩
  have hcurrentAfter : (auditStep order st (.rotate suffix)).1.log.path = path := by
    show st.log.path = path
    rw [h.log]
  rw [replayed, hcurrentAfter, rotatedFiles_rotate, List.flatMap_append, List.flatMap_singleton]
  show _ ++ replayFile order (auditLogRotate suffix st).files _ ++
    replayFile order (auditLogRotate suffix st).files path = _
  rw [hnew.replay, haside.replay, hcurrent.replay, List.append_nil]
  refine congrArg (· ++ entries) ?_
  exact List.flatMap_congr fun name hname => replayFile_congr (h.files_kept hpath suffix hname).2

/-- A rotation puts the current file aside. What was in a file of that name is gone. -/
theorem LogInv.rotate :
    LogInv order path (recordOf (auditStep order) st (.rotate suffix) :: past)
      (auditStep order st (.rotate suffix)).1 := by
  have hlogpath : st.log.path = path := by rw [h.log]
  have hne := h.rotatedPath_ne hpath suffix
  obtain ⟨entries, hcurrent⟩ := h.current
  have hbefore : replayed order past st = (rotatedFiles past).flatMap (replayFile order st.files) ++
      replayFile order st.files path := by rw [replayed, hlogpath]
  refine ⟨?_, ?_, ?_, ⟨[], ?_, nofun⟩, ?_, ?_, ?_⟩
  · show AuditLog.mk st.log.path st.log.path = _
    rw [hlogpath]
  · rw [rotatedFiles_rotate, List.nodup_append]
    refine ⟨h.nodup.erase _, List.nodup_singleton _, ?_⟩
    rintro name hname other hother rfl
    exact (h.nodup.mem_erase_iff.mp hname).1 (List.mem_singleton.mp hother)
  · rw [rotatedFiles_rotate, List.mem_append, List.mem_singleton, not_or]
    exact ⟨fun hmem => h.apart (List.mem_of_mem_erase hmem), hne.symm⟩
  · exact (h.files_rotate hpath suffix path).trans (if_pos rfl)
  · intro name hname
    rw [rotatedFiles_rotate, List.mem_append, List.mem_singleton] at hname
    rcases hname with hname | rfl
    · obtain ⟨hmem, hsame⟩ := h.files_kept hpath suffix hname
      obtain ⟨held, hheld⟩ := h.aside name hmem
      exact ⟨held, hsame.trans hheld.bytes, hheld.writable⟩
    · refine ⟨entries, ?_, hcurrent.writable⟩
      rw [← hcurrent.bytes]
      exact (h.files_rotate hpath suffix _).trans ((if_neg hne).trans (if_pos rfl))
  · rw [h.replayed_rotate hpath]
    refine List.Sublist.trans ?_ h.part
    rw [hbefore]
    exact (List.erase_sublist.flatMap _).append (List.Sublist.refl _)
  · have hcount := h.count
    have hlost := length_overwritten order past st suffix
    rw [hbefore, List.length_append] at hcount
    rw [h.replayed_rotate hpath, List.length_append, lostCount]
    show (written past).length = _
    omega

end Rotate

/-- **The invariant holds in every run.** -/
theorem logInv_of_run {files : Files} (hpath : path.length < 256) (hnul : 0 ∉ path)
    (hfresh : (files path).getD [] = []) (run : AuditRun order path files past st)
    (hlengths : ∀ r ∈ past, r.input.payloadLength ≤ 2 ^ 32 - 2) : LogInv order path past st := by
  refine run.invariant (P := fun past st =>
    (∀ r ∈ past, r.input.payloadLength ≤ 2 ^ 32 - 2) → LogInv order path past st) ?_ ?_ hlengths
  · intro _
    exact logInv_open hpath hnul hfresh
  · intro past st call ih hall
    rw [List.forall_mem_cons] at hall
    have h := ih hall.2
    cases call with
    | rotate suffix => exact h.rotate hpath suffix
    | write entry =>
      by_cases hempty : entry.payload = []
      · exact h.write_nil hempty
      · exact h.write ⟨List.length_pos_of_ne_nil hempty, hall.1⟩

end Invariant

/-- Nothing was lost just when no rotation replaced an entry. -/
theorem lostCount_eq_zero_iff (order : ByteOrder) (past : List AuditMove) :
    lostCount order past = 0 ↔ ∀ r earlier, r :: earlier <:+ past → overwritten order r earlier = [] := by
  induction past with
  | nil =>
    refine iff_of_true rfl ?_
    intro r earlier hsuffix
    cases List.suffix_nil.mp hsuffix
  | cons r past ih =>
    rw [lostCount, Nat.add_eq_zero_iff, List.length_eq_zero_iff, ih]
    constructor
    · rintro ⟨hlast, hall⟩ r' earlier hsuffix
      rcases List.suffix_cons_iff.mp hsuffix with heq | hsuffix
      · obtain ⟨rfl, rfl⟩ := List.cons.inj heq
        exact hlast
      · exact hall r' earlier hsuffix
    · intro hall
      exact ⟨hall r past (List.suffix_refl _), fun r' earlier hsuffix =>
        hall r' earlier (hsuffix.trans (List.suffix_cons r past))⟩

/-- **Rotation and loss.** From a fresh file on, what is replayed of the files put aside and of the current
one is exactly what was written, if and only if no rotation took the name of a file put aside earlier that
held entries. -/
theorem rotation_iff (order : ByteOrder) (path : List UInt8) (files : Files) (past : List AuditMove)
    (st : AuditStore) (hpath : path.length < 256) (hnul : 0 ∉ path) (hfresh : (files path).getD [] = [])
    (run : AuditRun order path files past st) (hlengths : ∀ r ∈ past, r.input.payloadLength ≤ 2 ^ 32 - 2) :
    replayed order past st = written past ↔
      ∀ r earlier, r :: earlier <:+ past → overwritten order r earlier = [] := by
  have h := logInv_of_run hpath hnul hfresh run hlengths
  rw [← lostCount_eq_zero_iff, ← h.part.length_eq, h.count]
  omega

/-- Two entries, each put aside by a rotation with a suffix of its own or the same. -/
def twoRotations (first second : List UInt8) : List AuditCall :=
  [.write ⟨1000, 1, ascii "first"⟩, .rotate first, .write ⟨2000, 2, ascii "second"⟩, .rotate second]

/-- The store that these calls leave, with their history. -/
def rotatedTwice (first second : List UInt8) : List AuditMove × AuditStore :=
  exec (auditStep .little) (auditLogOpen (ascii "a.log") fun _ => none) (twoRotations first second)

/-- Rotations to different names lose nothing. -/
theorem rotation_two_names :
    rotatedFiles (rotatedTwice (ascii "1") (ascii "2")).1 = [ascii "a.log.1", ascii "a.log.2"] ∧
      replayed .little (rotatedTwice (ascii "1") (ascii "2")).1
          (rotatedTwice (ascii "1") (ascii "2")).2 =
        written (rotatedTwice (ascii "1") (ascii "2")).1 := by
  refine ⟨by decide, ?_⟩
  refine (rotation_iff .little (ascii "a.log") (fun _ => none) _ _ (by decide) (by decide) rfl
    (run_exec _ _ _) ?_).mpr ?_
  · decide
  · rw [← lostCount_eq_zero_iff]
    decide

/-- Two rotations on the same day: the entries of the first are gone. -/
theorem rotation_same_suffix :
    written (rotatedTwice (ascii "20251225") (ascii "20251225")).1 =
        [⟨1000, 1, ascii "first"⟩, ⟨2000, 2, ascii "second"⟩] ∧
      replayed .little (rotatedTwice (ascii "20251225") (ascii "20251225")).1
          (rotatedTwice (ascii "20251225") (ascii "20251225")).2 =
        [⟨2000, 2, ascii "second"⟩] := by
  decide

end CGateway
