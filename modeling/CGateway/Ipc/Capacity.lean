import CGateway.Ipc.SessionLog

/-! # The capacity for streams is used up

A stream can be started while a slot is idle, and no slot becomes idle again: a finished session keeps
its slot. Whether a stream can be started depends on how many slots have ever been taken, not on how
many sessions are active.

* `start_succeeds_iff` — a start succeeds just while fewer than 64 slots have been taken;
* `capacity_iff` — when this is the same as fewer than 64 active sessions;
* `Logged.starts_fail` — once 64 slots are taken, every later start fails. -/

namespace CGateway

open Machine

/-- How many sessions are finished, completed or failed. -/
def finishedSessions (mgr : IpcStreaming) : ℕ :=
  mgr.sessions.countP fun session => session.state == .complete || session.state == .error

section Counts

variable {mgr : IpcStreaming} {log : List StreamSession}

/-- Every slot that was taken holds an active or a finished session. -/
theorem Logged.active_add_finished (h : Logged mgr log) : activeSessions mgr + finishedSessions mgr = log.length := by
  have hsplit : log.countP StreamSession.isActive +
      log.countP (fun session => session.state == .complete || session.state == .error) = log.length := by
    rw [List.length_eq_countP_add_countP StreamSession.isActive]
    congr 1
    refine List.countP_congr fun session hsession => ?_
    have hused := h.used session hsession
    rw [StreamSession.isActive]
    cases hstate : session.state with
    | idle => exact absurd hstate hused
    | active => simp
    | complete => simp
    | error => simp
  rw [activeSessions, finishedSessions, h.sessions_eq, List.countP_append, List.countP_append,
    List.countP_replicate, List.countP_replicate]
  simpa [StreamSession.isActive, freshSession] using hsplit

/-- **Full for ever.** Once all slots are taken, every later start fails. -/
theorem Logged.starts_fail (h : Logged mgr log) (hfull : maxStreamSessions ≤ log.length)
    {past : List StreamRecord} {mgr' : IpcStreaming} (run : Run streamStep mgr past mgr') :
    ∀ r ∈ past, ∀ id, r.input = .start id → r.output = -1 := by
  refine (run.invariant (P := fun past mgr => (∃ log, Logged mgr log ∧ maxStreamSessions ≤ log.length) ∧
    ∀ r ∈ past, ∀ id, r.input = .start id → r.output = -1) ⟨⟨log, h, hfull⟩, by simp⟩ ?_).2
  rintro past mgr call ⟨⟨log, h, hfull⟩, hfailed⟩
  refine ⟨⟨_, (h.step call).1, hfull.trans (h.length_le_step call)⟩, fun r hr id hinput => ?_⟩
  rcases List.mem_cons.mp hr with rfl | hr
  · rw [recordOf_input] at hinput
    rw [recordOf_output, hinput, (h.step _).2]
    cases id with
    | none => rfl
    | some id => rw [logStep, if_neg (not_lt.mpr hfull)]
  · exact hfailed r hr id hinput

end Counts

section Runs

variable {past : List StreamRecord} {mgr : IpcStreaming}

/-- A start succeeds just while fewer than 64 slots have been taken since the beginning. -/
theorem start_succeeds_iff (run : StreamRun past mgr) (id : List UInt8) :
    (streamStep mgr (.start (some id))).2 = 0 ↔ (storedIds past).length < maxStreamSessions := by
  obtain ⟨log, h, hids⟩ := logged_of_run run
  have hlength := congrArg List.length hids
  rw [List.length_map, List.length_reverse] at hlength
  rw [h.start_succeeds_iff, hlength]

/-- **Stream capacity, exactly.** After any run, "a start succeeds if and only if fewer than 64 sessions
are active" is true just where no session is finished or fewer than 64 slots have been taken. -/
theorem capacity_iff (run : StreamRun past mgr) (id : List UInt8) :
    ((streamStep mgr (.start (some id))).2 = 0 ↔ activeSessions mgr < maxStreamSessions) ↔
      finishedSessions mgr = 0 ∨ (storedIds past).length < maxStreamSessions := by
  obtain ⟨log, h, hids⟩ := logged_of_run run
  have hlength := congrArg List.length hids
  rw [List.length_map, List.length_reverse] at hlength
  have hsum := h.active_add_finished
  have hle := h.length_le
  rw [start_succeeds_iff run id, ← hlength]
  omega

end Runs

/-- A stream can be started after one has been completed. -/
theorem capacity_after_stream :
    (streamStep (exec streamStep ipcStreamingInit streamCalls).2 (.start (some [116]))).2 = 0 ∧
      finishedSessions (exec streamStep ipcStreamingInit streamCalls).2 = 1 :=
  ⟨((capacity_iff (run_exec streamStep ipcStreamingInit streamCalls) [116]).mpr
    (.inr (by decide))).mpr (by decide), by decide⟩

/-- Streams with different ids, each started and completed at once. -/
def shortStreams (n : ℕ) : List StreamCall :=
  (List.range n).flatMap fun i =>
    [.start (some [UInt8.ofNat (i + 1)]), .complete (some [UInt8.ofNat (i + 1)])]

/-- **64 streams are enough.** After 64 short streams no session is active, and no stream can ever be
started again. -/
theorem capacity_used_up :
    (exec streamStep ipcStreamingInit (shortStreams 64)).1.all (·.output == 0) = true ∧
      activeSessions (exec streamStep ipcStreamingInit (shortStreams 64)).2 = 0 ∧
      ∀ past mgr, Run streamStep (exec streamStep ipcStreamingInit (shortStreams 64)).2 past mgr →
        ∀ r ∈ past, ∀ id, r.input = .start id → r.output = -1 := by
  have hall : (exec streamStep ipcStreamingInit (shortStreams 64)).1.all (·.output == 0) = true := by
    decide +kernel
  have hstored : (storedIds (exec streamStep ipcStreamingInit (shortStreams 64)).1).length = 64 := by
    decide +kernel
  refine ⟨hall, by decide +kernel, fun past mgr run => ?_⟩
  obtain ⟨log, h, hids⟩ := logged_of_run (run_exec streamStep ipcStreamingInit (shortStreams 64))
  have hlength := congrArg List.length hids
  rw [List.length_map, List.length_reverse, hstored] at hlength
  exact h.starts_fail (le_of_eq hlength.symm) run

end CGateway
