import CGateway.Ipc.SessionLog

/-! # Whose session a chunk is counted for

A chunk is counted for the first slot that carries its id, in whatever state that slot is, and the id in
a slot is cut to 63 bytes. A session gets its own chunks just when its id is short enough to be stored
whole and no slot has carried it before.

* `Attributed` — from its start to its end, a session gets its own chunks and nothing else;
* `logStep_frame` — a call leaves the slots with other ids alone;
* `Opened.step` — a session that is found under its id stays found and active until it ends;
* `attribution_iff` — which starts open such a session. -/

namespace CGateway

open CString Machine Slots

/-! ### The law -/

/-- The id a call is about. -/
def StreamCall.name? : StreamCall → Option (List UInt8)
  | .start id | .chunk id _ | .complete id | .error id => id.map cstr

/-- The call ends the session with that id. -/
def StreamCall.ends (name : List UInt8) : StreamCall → Bool
  | .complete id | .error id => id.map cstr == some name
  | .start _ | .chunk _ _ => false

/-- What a call does to the session in a slot: a chunk for its id is accepted and counted there, and a
call about another id leaves it alone. -/
structure Attributes (slot : ℕ) (name : List UInt8) (r : StreamRecord) : Prop where
  chunk : ∀ id size, r.input = .chunk (some id) size → cstr id = name →
    r.output = 0 ∧ ∃ session, r.before.sessions[slot]? = some session ∧
      r.after.sessions[slot]? = some (session.addChunk size)
  other : r.input.name? ≠ some name → r.after.sessions[slot]? = r.before.sessions[slot]?

/-- From this state on, and until the session is ended, all calls do so. -/
def Attributed (slot : ℕ) (name : List UInt8) (mgr : IpcStreaming) : Prop :=
  ∀ past mgr', Run streamStep mgr past mgr' → (∀ r ∈ past, r.input.ends name = false) →
    ∀ r ∈ past, Attributes slot name r

/-! ### The used slots -/

section Log

variable {log : List StreamSession} {slot : ℕ} {name : List UInt8}

/-- What is found carries the id. -/
theorem getElem?_of_logFind {id : List UInt8} (h : logFind log (some id) = some slot) :
    ∃ session, log[slot]? = some session ∧ session.sessionId = cstr id := by
  obtain ⟨hlt, heq, _⟩ := List.findIdx?_eq_some_iff_getElem.mp h
  exact ⟨_, List.getElem?_eq_getElem hlt, by simpa using heq⟩

variable {id : Option (List UInt8)} {session : StreamSession}

/-- A slot with another id is not found. -/
theorem ne_of_logFind {found : ℕ} (h : logFind log id = some found) (hslot : log[slot]? = some session)
    (hother : id.map cstr ≠ some session.sessionId) : found ≠ slot := by
  rintro rfl
  cases id with
  | none => cases h
  | some id =>
    obtain ⟨session', hfound, hid⟩ := getElem?_of_logFind h
    rw [hslot, Option.some.injEq] at hfound
    rw [hfound, Option.map_some, hid] at hother
    exact hother rfl

/-- A start leaves the slots alone that were taken before. -/
theorem logStart_frame (id : Option (List UInt8)) (hslot : log[slot]? = some session) :
    (logStep log (.start id)).1[slot]? = some session := by
  cases id with
  | none => exact hslot
  | some id =>
    rw [logStep]
    split
    · rw [List.getElem?_append_left (List.getElem?_eq_some_iff.mp hslot).1, hslot]
    · exact hslot

/-- A chunk leaves every slot alone but the one that is found. -/
theorem getElem?_logStep_chunk {found : ℕ} (hfind : logFind log id = some found) (hne : found ≠ slot)
    (size : UInt64) : (logStep log (.chunk id size)).1[slot]? = log[slot]? := by
  rw [logStep, hfind]
  dsimp only
  split
  · rfl
  · exact List.getElem?_modify_ne _ _ hne

/-- The end of another session leaves a slot alone. -/
theorem logFinish_frame (final : StreamState) (hslot : log[slot]? = some session)
    (hother : id.map cstr ≠ some session.sessionId) : (logFinish final id log).1[slot]? = some session := by
  rw [logFinish]
  cases hfind : logFind log id with
  | some found => rw [List.getElem?_modify_ne _ _ (ne_of_logFind hfind hslot hother), hslot]
  | none =>
    dsimp only
    split
    · rw [List.getElem?_append_left (List.getElem?_eq_some_iff.mp hslot).1, hslot]
    · exact hslot

/-- **Frame.** A call leaves the slots with other ids alone. -/
theorem logStep_frame {call : StreamCall} (hslot : log[slot]? = some session)
    (hother : call.name? ≠ some session.sessionId) : (logStep log call).1[slot]? = some session := by
  cases call with
  | start id => exact logStart_frame id hslot
  | complete id => exact logFinish_frame .complete hslot hother
  | error id => exact logFinish_frame .error hslot hother
  | chunk id size =>
    cases hfind : logFind log id with
    | none =>
      rw [logStep, hfind]
      exact hslot
    | some found => rw [getElem?_logStep_chunk hfind (ne_of_logFind hfind hslot hother), hslot]

end Log

/-! ### An open session -/

/-- The session in the slot is active, and the first that carries the id. -/
structure Opened (slot : ℕ) (name : List UInt8) (log : List StreamSession) : Prop where
  first : (log.map (·.sessionId)).findIdx? (· == name) = some slot
  active : ∃ session, log[slot]? = some session ∧ session.state = .active

section Session

variable {mgr : IpcStreaming} {log : List StreamSession} {slot : ℕ} {name : List UInt8}

/-- The lookup, in terms of the ids alone. -/
theorem logFind_eq (log : List StreamSession) (id : List UInt8) :
    logFind log (some id) = (log.map (·.sessionId)).findIdx? (· == cstr id) := by
  rw [logFind, List.findIdx?_map]
  rfl

/-- **One call while the session is open.** It is counted as it should be, and the session stays open. -/
theorem Opened.step (ho : Opened slot name log) (h : Logged mgr log) {call : StreamCall}
    (hends : call.ends name = false) :
    Opened slot name (logStep log call).1 ∧ Attributes slot name (recordOf streamStep mgr call) := by
  obtain ⟨session, hslot, hactive⟩ := ho.active
  have hlt := (List.getElem?_eq_some_iff.mp hslot).1
  have hbefore : mgr.sessions[slot]? = some session := by rw [h.getElem?_used hlt, hslot]
  have hafter : (streamStep mgr call).1.sessions[slot]? = (logStep log call).1[slot]? :=
    (h.step call).1.getElem?_used (hlt.trans_le (h.length_le_step call))
  have hfirst : ((logStep log call).1.map (·.sessionId)).findIdx? (· == name) = some slot := by
    rw [h.ids_step, List.findIdx?_append, ho.first, Option.some_or]
  have hname : session.sessionId = name := by
    obtain ⟨hi, heq, _⟩ := List.findIdx?_eq_some_iff_getElem.mp ho.first
    have hget := (List.getElem?_eq_some_iff.mp hslot).2
    rw [List.getElem_map, hget] at heq
    simpa using heq
  by_cases hother : call.name? = some name
  · cases call with
    | start id =>
      have hframe := logStart_frame id hslot
      refine ⟨⟨hfirst, session, hframe, hactive⟩, ⟨fun _ _ hinput => ?_, fun hne => ?_⟩⟩
      · cases hinput
      · exact absurd hother hne
    | chunk id size =>
      obtain ⟨id, rfl, rfl⟩ := Option.map_eq_some_iff.mp hother
      have hstep : logStep log (.chunk (some id) size) = (log.modify slot (·.addChunk size), 0) := by
        rw [logStep, logFind_eq, ho.first]
        simp [hslot, hactive]
      have hcounted : (log.modify slot (·.addChunk size))[slot]? = some (session.addChunk size) :=
        getElem?_modify_self _ hslot
      refine ⟨⟨hfirst, session.addChunk size, by rw [hstep, hcounted], hactive⟩,
        ⟨fun id' size' hinput hid => ?_, fun hne => ?_⟩⟩
      · cases hinput
        refine ⟨?_, session, hbefore, ?_⟩
        · rw [recordOf_output, (h.step _).2, hstep]
        · exact hafter.trans (by rw [hstep, hcounted])
      · exact absurd hother hne
    | complete id => simp [StreamCall.ends, show id.map cstr = some name from hother] at hends
    | error id => simp [StreamCall.ends, show id.map cstr = some name from hother] at hends
  · have hframe : (logStep log call).1[slot]? = some session := logStep_frame hslot (by rw [hname]; exact hother)
    refine ⟨⟨hfirst, session, hframe, hactive⟩, ⟨fun id size hinput hid => ?_, fun _ => ?_⟩⟩
    · rw [recordOf_input] at hinput
      rw [hinput, StreamCall.name?, Option.map_some, hid] at hother
      exact absurd rfl hother
    · exact hafter.trans (hframe.trans hbefore.symm)

/-- An open session gets its own chunks, until it is ended. -/
theorem Opened.attributed (ho : Opened slot name log) (h : Logged mgr log) : Attributed slot name mgr := by
  intro past mgr' run hends
  have key : ∃ log, Logged mgr' log ∧ Opened slot name log ∧ ∀ r ∈ past, Attributes slot name r := by
    induction run with
    | start => exact ⟨log, h, ho, by simp⟩
    | next run call ih =>
      rw [List.forall_mem_cons] at hends
      obtain ⟨log, h, ho, hall⟩ := ih hends.2
      obtain ⟨ho', hlast⟩ := ho.step h hends.1
      exact ⟨_, (h.step call).1, ho', List.forall_mem_cons.mpr ⟨hlast, hall⟩⟩
  obtain ⟨_, _, _, hall⟩ := key
  exact hall

end Session

/-! ### Which starts open a session -/

section Start

variable {past : List StreamRecord} {mgr : IpcStreaming}

/-- A session whose id is new and short enough is open. -/
theorem opened_of_new {log : List StreamSession} {id : List UInt8} (hshort : (cstr id).length < 64)
    (hnew : cstr id ∉ log.map (·.sessionId)) :
    Opened log.length (cstr id) (log ++ [⟨copyField 64 id, .active, 0, 0⟩]) := by
  have hstored : copyField 64 id = cstr id := List.take_of_length_le (by omega)
  refine ⟨?_, ⟨_, List.getElem?_concat_length, rfl⟩⟩
  have hnone : (log.map (·.sessionId)).findIdx? (· == cstr id) = none := by
    rw [List.findIdx?_eq_none_iff]
    intro name hname
    have hne : name ≠ cstr id := by
      rintro rfl
      exact hnew hname
    simpa using hne
  rw [hstored, List.map_append, List.findIdx?_append, hnone]
  simp

/-- A session that gets its own chunks is found under its id: the id is stored whole, and new. -/
theorem found_of_attributed {log : List StreamSession} {id : List UInt8} {mgr : IpcStreaming}
    (hattributed : Attributed log.length (cstr id) mgr)
    (h : Logged mgr (log ++ [⟨copyField 64 id, .active, 0, 0⟩])) :
    copyField 64 id = cstr id ∧ cstr id ∉ log.map (·.sessionId) := by
  -- One chunk is enough to see where it is counted.
  have hchunk := hattributed _ _ (.next .start (.chunk (some id) 0)) (by simp [StreamCall.ends]) _
    List.mem_cons_self
  obtain ⟨houtput, session, hbefore, hafter⟩ := hchunk.chunk id 0 rfl rfl
  have hsession : session = ⟨copyField 64 id, .active, 0, 0⟩ := by
    have hlast : log.length < (log ++ [(⟨copyField 64 id, .active, 0, 0⟩ : StreamSession)]).length := by simp
    have hused := h.getElem?_used hlast
    rw [List.getElem?_concat_length] at hused
    exact Option.some.inj (hbefore.symm.trans hused)
  have hcounted : (logStep (log ++ [⟨copyField 64 id, .active, 0, 0⟩])
      (.chunk (some id) 0)).1[log.length]? = some (session.addChunk 0) := by
    rw [← (h.step _).1.getElem?_used]
    · exact hafter
    · exact Nat.lt_of_lt_of_le (by simp) (h.length_le_step _)
  rw [recordOf_output, (h.step _).2] at houtput
  rw [logStep] at houtput
  cases hfind : logFind (log ++ [⟨copyField 64 id, .active, 0, 0⟩]) (some id) with
  | none =>
    rw [hfind] at houtput
    cases houtput
  | some found =>
    -- It is counted in the slot that is found, so that slot is the one of the session.
    have hfound : found = log.length := by
      by_contra hne
      rw [getElem?_logStep_chunk hfind hne, List.getElem?_concat_length, hsession] at hcounted
      have hchunks := congrArg StreamSession.chunksReceived (Option.some.inj hcounted)
      revert hchunks
      show ¬ (0 : UInt64) = 0 + 1
      decide
    subst hfound
    obtain ⟨_, hid, hfirst⟩ := List.findIdx?_eq_some_iff_getElem.mp hfind
    refine ⟨by simpa using hid, fun hmem => ?_⟩
    obtain ⟨i, hi, hname⟩ := List.mem_iff_getElem.mp hmem
    rw [List.length_map] at hi
    have hskip := hfirst i hi
    rw [List.getElem_append_left hi] at hskip
    rw [List.getElem_map] at hname
    simp [hname] at hskip

/-- **Chunk attribution, exactly.** A start that succeeds opens a session that gets its own chunks, and
nothing else, until it is ended, if and only if its id has fewer than 64 bytes and no slot was taken with
that id before. -/
theorem attribution_iff (run : StreamRun past mgr) (id : List UInt8)
    (hstart : (streamStep mgr (.start (some id))).2 = 0) :
    ∃ slot, allocSession mgr = some slot ∧
      (Attributed slot (cstr id) (streamStep mgr (.start (some id))).1 ↔
        (cstr id).length < 64 ∧ cstr id ∉ storedIds past) := by
  obtain ⟨log, h, hids⟩ := logged_of_run run
  have hroom := (h.start_succeeds_iff id).mp hstart
  refine ⟨log.length, by rw [h.alloc_eq, if_pos hroom], ?_⟩
  have h' : Logged (streamStep mgr (.start (some id))).1 (log ++ [⟨copyField 64 id, .active, 0, 0⟩]) := by
    have hnext := (h.step (.start (some id))).1
    rwa [logStep, if_pos hroom] at hnext
  have hmem : cstr id ∈ storedIds past ↔ cstr id ∈ log.map (·.sessionId) := by
    rw [hids, List.mem_reverse]
  rw [hmem]
  constructor
  · intro hattributed
    obtain ⟨hstored, hnew⟩ := found_of_attributed hattributed h'
    refine ⟨?_, hnew⟩
    have hle := length_copyField_le 64 id
    rw [hstored] at hle
    omega
  · rintro ⟨hshort, hnew⟩
    exact (opened_of_new hshort hnew).attributed h'

end Start

/-- A stream that is open. -/
def openStream : List StreamCall :=
  [.start (some (Bytes.ascii "a")), .chunk (some (Bytes.ascii "a")) 10]

/-- A second stream with a new id gets its own chunks. -/
theorem attribution_second_stream :
    Attributed 1 (Bytes.ascii "b")
      (streamStep (exec streamStep ipcStreamingInit openStream).2 (.start (some (Bytes.ascii "b")))).1 := by
  obtain ⟨slot, hslot, hiff⟩ := attribution_iff (run_exec streamStep ipcStreamingInit openStream)
    (Bytes.ascii "b") (by decide)
  have hone : allocSession (exec streamStep ipcStreamingInit openStream).2 = some 1 := by decide
  rw [hone, Option.some.injEq] at hslot
  rw [hslot]
  exact hiff.mpr (by decide)

/-- An id that was used before, and one of 64 bytes: the start succeeds and the next chunk is refused.
The chunk of another stream, whose id is the first 63 bytes, is counted for the second. -/
theorem attribution_lost :
    ((exec streamStep ipcStreamingInit [.start (some (Bytes.ascii "s")),
        .complete (some (Bytes.ascii "s")), .start (some (Bytes.ascii "s")),
        .chunk (some (Bytes.ascii "s")) 10]).1.map (·.output)) = [-1, 0, 0, 0] ∧
      ((exec streamStep ipcStreamingInit [.start (some (List.replicate 64 97)),
        .chunk (some (List.replicate 64 97)) 10,
        .chunk (some (List.replicate 63 97)) 20]).1.map
          fun r => (r.output, (r.after.sessions[0]?).map (·.totalBytes))) =
        [(0, some 20), (-1, some 0), (0, some 0)] := by
  decide

end CGateway
