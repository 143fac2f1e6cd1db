import CGateway.Ipc.Streaming

/-! # The session table is a list that only grows

A slot of the session table is taken once, from IDLE, and never becomes IDLE again. The used slots are
therefore a front part of the table, in the order in which they were taken, and everything that the
operations do is visible in that list of at most 64 sessions.

* `logStep` — the operations on the list of the used slots;
* `Logged`, `Logged.step` — the table is this list, padded with fresh slots, and every call does to the
  table what it does to the list;
* `logged_of_run` — after any run, with the ids that the calls have stored. -/

namespace CGateway

open CString Machine Slots

/-! ### The list of the used slots -/

/-- A slot as `calloc` leaves it. -/
def freshSession : StreamSession := ⟨[], .idle, 0, 0⟩

/-- A session with one more chunk. -/
def StreamSession.addChunk (size : UInt64) (session : StreamSession) : StreamSession :=
  { session with
    chunksReceived := session.chunksReceived + 1
    totalBytes := session.totalBytes + size }

/-- The first used slot with that id. -/
def logFind (log : List StreamSession) : Option (List UInt8) → Option ℕ
  | none => none
  | some id => log.findIdx? fun session => session.sessionId == cstr id

/-- The end of a session. An empty id that no used slot has is the id of the next fresh one. -/
def logFinish (final : StreamState) (id : Option (List UInt8)) (log : List StreamSession) :
    List StreamSession × ℤ :=
  match logFind log id with
  | some slot => (log.modify slot fun session => { session with state := final }, 0)
  | none =>
      if id.map cstr = some [] ∧ log.length < maxStreamSessions then
        (log ++ [{ freshSession with state := final }], 0)
      else (log, -1)

/-- One call, as it acts on the used slots. -/
def logStep (log : List StreamSession) : StreamCall → List StreamSession × ℤ
  | .start none => (log, -1)
  | .start (some id) =>
      if log.length < maxStreamSessions then (log ++ [⟨copyField 64 id, .active, 0, 0⟩], 0)
      else (log, -1)
  | .chunk id size =>
      match logFind log id with
      | none => (log, -1)
      | some slot =>
          if (log[slot]?.map (·.state)) ≠ some .active then (log, -1)
          else (log.modify slot (·.addChunk size), 0)
  | .complete id => logFinish .complete id log
  | .error id => logFinish .error id log

/-! ### The table -/

/-- The table holds these sessions, behind them fresh slots. -/
structure Logged (mgr : IpcStreaming) (log : List StreamSession) : Prop where
  sessions_eq : mgr.sessions = log ++ List.replicate (maxStreamSessions - log.length) freshSession
  length_le : log.length ≤ maxStreamSessions
  used : ∀ session ∈ log, session.state ≠ .idle

section Table

variable {mgr : IpcStreaming} {log : List StreamSession}

/-- The lookup meets the used slots first, then, for an empty id, the first fresh one. -/
theorem Logged.find_eq (h : Logged mgr log) (id : Option (List UInt8)) :
    findSession mgr id = (logFind log id).or
      (if id.map cstr = some [] ∧ log.length < maxStreamSessions then some log.length else none) := by
  cases id with
  | none => rfl
  | some id =>
    rw [findSession, h.sessions_eq, List.findIdx?_append, List.findIdx?_replicate, logFind]
    congr 1
    simp only [freshSession, Option.map_some, Option.some.injEq, Nat.sub_pos_iff_lt, beq_iff_eq,
      eq_comm (a := cstr id), and_comm (b := log.length < maxStreamSessions)]
    split <;> simp

/-- The first idle slot is the first fresh one. -/
theorem Logged.alloc_eq (h : Logged mgr log) :
    allocSession mgr = if log.length < maxStreamSessions then some log.length else none := by
  have hnone : log.findIdx? (fun session => session.state == .idle) = none := by
    rw [List.findIdx?_eq_none_iff]
    intro session hsession
    simpa using h.used session hsession
  rw [allocSession, h.sessions_eq, List.findIdx?_append, List.findIdx?_replicate, hnone, Option.none_or]
  simp only [freshSession, Nat.sub_pos_iff_lt, beq_self_eq_true, and_true]
  split <;> simp

/-- Writing a used slot. -/
theorem Logged.modify (h : Logged mgr log) {slot : ℕ} (hslot : slot < log.length)
    {f : StreamSession → StreamSession} (hf : ∀ session ∈ log, (f session).state ≠ .idle)
    {mgr' : IpcStreaming} (hmgr : mgr'.sessions = mgr.sessions.modify slot f) : Logged mgr' (log.modify slot f) := by
  refine ⟨?_, ?_, fun session hsession => ?_⟩
  · rw [hmgr, h.sessions_eq, List.length_modify, modify_append_left f hslot]
  · rw [List.length_modify]
    exact h.length_le
  · obtain ⟨i, hi⟩ := List.mem_iff_getElem?.mp hsession
    rw [List.getElem?_modify] at hi
    obtain ⟨old, hold, rfl⟩ := Option.map_eq_some_iff.mp hi
    have hmem := List.mem_of_getElem? hold
    split
    · exact hf old hmem
    · exact h.used old hmem

/-- Writing the first fresh slot. -/
theorem Logged.append (h : Logged mgr log) (hroom : log.length < maxStreamSessions)
    (f : StreamSession → StreamSession) (hf : (f freshSession).state ≠ .idle)
    {mgr' : IpcStreaming} (hmgr : mgr'.sessions = mgr.sessions.modify log.length f) :
    Logged mgr' (log ++ [f freshSession]) := by
  obtain ⟨n, hn⟩ : ∃ n, maxStreamSessions - log.length = n + 1 := ⟨maxStreamSessions - log.length - 1, by omega⟩
  have hn' : maxStreamSessions - (log ++ [f freshSession]).length = n := by
    rw [List.length_append, List.length_singleton]
    omega
  refine ⟨?_, ?_, fun session hsession => ?_⟩
  · rw [hmgr, h.sessions_eq, hn, hn', List.replicate_succ, modify_append_self, List.append_assoc, List.singleton_append]
  · rw [List.length_append, List.length_singleton]
    exact hroom
  · rcases List.mem_append.mp hsession with hold | hnew
    · exact h.used session hold
    · rw [List.mem_singleton.mp hnew]
      exact hf

/-- What is found among the used slots is one of them. -/
theorem lt_of_logFind {id : Option (List UInt8)} {slot : ℕ} (h : logFind log id = some slot) : slot < log.length := by
  cases id with
  | none => cases h
  | some id => exact (List.findIdx?_eq_some_iff_getElem.mp h).1

/-- A used slot. -/
theorem Logged.getElem?_used (h : Logged mgr log) {slot : ℕ} (hslot : slot < log.length) :
    mgr.sessions[slot]? = log[slot]? := by
  rw [h.sessions_eq, List.getElem?_append_left hslot]

/-- The state of a used slot. -/
theorem Logged.sessionState_used (h : Logged mgr log) {slot : ℕ} (hslot : slot < log.length) :
    sessionState mgr slot = log[slot]?.map (·.state) := by
  rw [sessionState, h.getElem?_used hslot]

/-- The first fresh slot is idle. -/
theorem Logged.sessionState_fresh (h : Logged mgr log) (hroom : log.length < maxStreamSessions) :
    sessionState mgr log.length = some .idle := by
  rw [sessionState, h.sessions_eq, List.getElem?_append_right le_rfl, Nat.sub_self,
    List.getElem?_replicate_of_lt (Nat.sub_pos_of_lt hroom)]
  rfl

/-- A finishing call. -/
theorem Logged.finish (h : Logged mgr log) {final : StreamState} (hfinal : final ≠ .idle)
    (id : Option (List UInt8)) :
    Logged (finishSession final id mgr).1 (logFinish final id log).1 ∧
      (finishSession final id mgr).2 = (logFinish final id log).2 := by
  rw [finishSession, h.find_eq, logFinish]
  cases hfind : logFind log id with
  | some slot => exact ⟨h.modify (lt_of_logFind hfind) (fun _ _ => hfinal) rfl, rfl⟩
  | none =>
    by_cases hempty : id.map cstr = some [] ∧ log.length < maxStreamSessions
    · simp only [Option.none_or, if_pos hempty, and_true]
      exact h.append hempty.2 (fun session => { session with state := final }) hfinal rfl
    · simp only [Option.none_or, if_neg hempty, and_true]
      exact h

/-- **One call.** It does to the table what it does to the list of the used slots. -/
theorem Logged.step (h : Logged mgr log) (call : StreamCall) :
    Logged (streamStep mgr call).1 (logStep log call).1 ∧ (streamStep mgr call).2 = (logStep log call).2 := by
  cases call with
  | start id =>
    cases id with
    | none => exact ⟨h, rfl⟩
    | some id =>
      rw [streamStep, ipcStreamingStart, h.alloc_eq, logStep]
      by_cases hroom : log.length < maxStreamSessions
      · simp only [if_pos hroom, and_true]
        exact h.append hroom (fun _ => ⟨copyField 64 id, .active, 0, 0⟩) StreamState.noConfusion rfl
      · simp only [if_neg hroom, and_true]
        exact h
  | chunk id size =>
    rw [streamStep, ipcStreamingChunk, h.find_eq, logStep]
    cases hfind : logFind log id with
    | some slot =>
      have hslot := lt_of_logFind hfind
      dsimp only [Option.some_or]
      rw [h.sessionState_used hslot]
      split
      · exact ⟨h, rfl⟩
      · refine ⟨h.modify (f := (·.addChunk size)) hslot ?_ rfl, rfl⟩
        exact fun session hsession => h.used session hsession
    | none =>
      -- A fresh slot is not active, so a chunk for the empty id is refused.
      by_cases hempty : id.map cstr = some [] ∧ log.length < maxStreamSessions
      · rw [if_pos hempty, Option.none_or]
        dsimp only
        rw [h.sessionState_fresh hempty.2, if_pos (by decide)]
        exact ⟨h, rfl⟩
      · rw [if_neg hempty, Option.none_or]
        exact ⟨h, rfl⟩
  | complete id => exact h.finish StreamState.noConfusion id
  | error id => exact h.finish StreamState.noConfusion id

end Table

/-! ### Runs -/

/-- The id that a call stores in the slot it takes: a start takes an idle slot, and so does a finishing
call with an empty id whose lookup ends in one. -/
def storedId (r : StreamRecord) : Option (List UInt8) :=
  match r.input with
  | .start id => if r.output = 0 then id.map (copyField 64) else none
  | .chunk _ _ => none
  | .complete id | .error id =>
      if (findSession r.before id).bind (sessionState r.before) = some .idle then some [] else none

/-- The ids stored in a run, the latest first. -/
def storedIds (past : List StreamRecord) : List (List UInt8) := past.filterMap storedId

section Runs

variable {mgr : IpcStreaming} {log : List StreamSession}

/-- Writing to a used slot what keeps its id. -/
theorem ids_modify {f : StreamSession → StreamSession} (hf : ∀ s, (f s).sessionId = s.sessionId)
    (slot : ℕ) : (log.modify slot f).map (·.sessionId) = log.map (·.sessionId) := by
  refine List.ext_getElem? fun i => ?_
  rw [List.getElem?_map, List.getElem?_map, List.getElem?_modify]
  cases log[i]? with
  | none => rfl
  | some session => by_cases hi : slot = i <;> simp [hi, hf]

/-- The ids after a finishing call. -/
theorem Logged.ids_finish (h : Logged mgr log) (final : StreamState) (id : Option (List UInt8)) :
    (logFinish final id log).1.map (·.sessionId) = log.map (·.sessionId) ++
      (if (findSession mgr id).bind (sessionState mgr) = some .idle then some [] else none).toList := by
  rw [h.find_eq, logFinish]
  cases hfind : logFind log id with
  | some slot =>
    have hslot := lt_of_logFind hfind
    have hused : sessionState mgr slot ≠ some .idle := by
      rw [h.sessionState_used hslot, List.getElem?_eq_getElem hslot, Option.map_some, ne_eq, Option.some.injEq]
      exact h.used _ (List.getElem_mem hslot)
    rw [Option.some_or, Option.bind_some, if_neg hused]
    simp only [Option.toList_none, List.append_nil]
    exact ids_modify (by intro _; rfl) slot
  | none =>
    by_cases hempty : id.map cstr = some [] ∧ log.length < maxStreamSessions
    · simp only [if_pos hempty, Option.none_or, Option.bind_some, h.sessionState_fresh hempty.2]
      simp [freshSession]
    · simp only [if_neg hempty, Option.none_or, Option.bind_none]
      simp

/-- The ids after a call: those before it, and the one it stores. -/
theorem Logged.ids_step (h : Logged mgr log) (call : StreamCall) :
    (logStep log call).1.map (·.sessionId) =
      log.map (·.sessionId) ++ (storedId (recordOf streamStep mgr call)).toList := by
  have houtput := (h.step call).2
  cases call with
  | start id =>
    rw [storedId]
    simp only [recordOf_input, recordOf_output, houtput]
    cases id with
    | none => simp [logStep]
    | some id =>
      rw [logStep]
      split <;> simp
  | chunk id size =>
    rw [storedId, logStep]
    simp only [recordOf_input, Option.toList_none, List.append_nil]
    cases logFind log id with
    | none => rfl
    | some slot =>
      dsimp only
      split
      · rfl
      · exact ids_modify (by intro _; rfl) slot
  | complete id => exact h.ids_finish .complete id
  | error id => exact h.ids_finish .error id

/-- A start succeeds while a slot is left. -/
theorem Logged.start_succeeds_iff (h : Logged mgr log) (id : List UInt8) :
    (streamStep mgr (.start (some id))).2 = 0 ↔ log.length < maxStreamSessions := by
  rw [(h.step _).2, logStep]
  split
  · exact iff_of_true rfl (by assumption)
  · refine iff_of_false ?_ (by assumption)
    show ¬ (-1 : ℤ) = 0
    decide

/-- No call gives a slot back. -/
theorem Logged.length_le_step (h : Logged mgr log) (call : StreamCall) : log.length ≤ (logStep log call).1.length := by
  have hids := congrArg List.length (h.ids_step call)
  rw [List.length_map, List.length_append, List.length_map] at hids
  omega

/-- **The table after a run.** The used slots are as many as ids were stored, and carry them in order. -/
theorem logged_of_run {past : List StreamRecord} (run : StreamRun past mgr) :
    ∃ log, Logged mgr log ∧ log.map (·.sessionId) = (storedIds past).reverse := by
  induction run with
  | start => exact ⟨[], ⟨rfl, Nat.zero_le _, fun _ h => absurd h List.not_mem_nil⟩, rfl⟩
  | next run call ih =>
    obtain ⟨log, h, hids⟩ := ih
    refine ⟨_, (h.step call).1, ?_⟩
    rw [h.ids_step, hids, storedIds, storedIds, List.filterMap_cons]
    cases storedId (recordOf streamStep _ call) <;> simp

end Runs

end CGateway
