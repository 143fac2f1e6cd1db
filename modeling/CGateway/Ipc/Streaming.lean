import CGateway.Lib.CString
import CGateway.Lib.Machine
import CGateway.Lib.Slots

/-! # Stream sessions and their count

The session table of `ipc_streaming.c`: 64 slots that are taken from IDLE and never given back, looked
up by id, and a counter of the active ones that every operation keeps by hand.

`ipc_streaming_complete` and `ipc_streaming_error` take one from the counter for every session they
find, whatever its state, and the lookup finds finished sessions and, for the empty id, slots that were
never used.

* `streamStep` — one call, with its return value;
* `activeCount_add_misses` — the counter is the number of active sessions less the calls that ended a
  session which was not active;
* `activeStreams_iff` — the reported count is right after exactly the runs without such a call. -/

namespace CGateway

open Bytes CString Machine

/-! ### The session table -/

/-- `stream_state_t`. -/
inductive StreamState where
  | idle
  | active
  | complete
  | error
  deriving DecidableEq, Repr

/-- `stream_session_t`; the id is the C string in its buffer of 64 bytes. -/
structure StreamSession where
  sessionId : List UInt8
  state : StreamState
  chunksReceived : UInt64
  totalBytes : UInt64
  deriving DecidableEq, Repr

/-- `ipc_streaming_t`. -/
structure IpcStreaming where
  sessions : List StreamSession
  activeCount : ℤ
  totalChunks : UInt64
  deriving DecidableEq, Repr

/-- `MAX_STREAM_SESSIONS`. -/
def maxStreamSessions : ℕ := 64

/-- `ipc_streaming_init`: zeroed memory. -/
def ipcStreamingInit : IpcStreaming where
  sessions := List.replicate maxStreamSessions ⟨[], .idle, 0, 0⟩
  activeCount := 0
  totalChunks := 0

/-- `find_session`: the first slot with that id, in any state. -/
def findSession (mgr : IpcStreaming) : Option (List UInt8) → Option ℕ
  | none => none
  | some id => mgr.sessions.findIdx? fun session => session.sessionId == cstr id

/-- `alloc_session`: the first idle slot. -/
def allocSession (mgr : IpcStreaming) : Option ℕ :=
  mgr.sessions.findIdx? fun session => session.state == .idle

/-- The state of a slot. -/
def sessionState (mgr : IpcStreaming) (slot : ℕ) : Option StreamState :=
  mgr.sessions[slot]?.map (·.state)

/-! ### The operations -/

/-- `ipc_streaming_start`; an id of 64 bytes or more is stored without its end. -/
def ipcStreamingStart (sessionId : Option (List UInt8)) (mgr : IpcStreaming) : IpcStreaming × ℤ :=
  match sessionId with
  | none => (mgr, -1)
  | some id =>
      match allocSession mgr with
      | none => (mgr, -1)
      | some slot =>
          ({ mgr with
              sessions := mgr.sessions.modify slot fun _ => ⟨copyField 64 id, .active, 0, 0⟩
              activeCount := mgr.activeCount + 1 }, 0)

/-- `ipc_streaming_chunk`; the data itself is not kept. -/
def ipcStreamingChunk (sessionId : Option (List UInt8)) (chunkSize : UInt64) (mgr : IpcStreaming) :
    IpcStreaming × ℤ :=
  match findSession mgr sessionId with
  | none => (mgr, -1)
  | some slot =>
      if sessionState mgr slot ≠ some .active then (mgr, -1)
      else
        ({ mgr with
            sessions := mgr.sessions.modify slot fun session =>
              { session with
                chunksReceived := session.chunksReceived + 1
                totalBytes := session.totalBytes + chunkSize }
            totalChunks := mgr.totalChunks + 1 }, 0)

/-- What `ipc_streaming_complete` and `ipc_streaming_error` share: the session's state is written
without a look at the old one. -/
def finishSession (final : StreamState) (sessionId : Option (List UInt8)) (mgr : IpcStreaming) :
    IpcStreaming × ℤ :=
  match findSession mgr sessionId with
  | none => (mgr, -1)
  | some slot =>
      ({ mgr with
          sessions := mgr.sessions.modify slot fun session => { session with state := final }
          activeCount := mgr.activeCount - 1 }, 0)

/-- `ipc_streaming_complete`. -/
def ipcStreamingComplete : Option (List UInt8) → IpcStreaming → IpcStreaming × ℤ :=
  finishSession .complete

/-- `ipc_streaming_error`. -/
def ipcStreamingError : Option (List UInt8) → IpcStreaming → IpcStreaming × ℤ :=
  finishSession .error

/-- `ipc_streaming_get_stats`: active streams and chunks. -/
def ipcStreamingGetStats (mgr : IpcStreaming) : ℤ × UInt64 := (mgr.activeCount, mgr.totalChunks)

/-- A call on the session table; an absent id is a null pointer. -/
inductive StreamCall where
  | start (sessionId : Option (List UInt8))
  | chunk (sessionId : Option (List UInt8)) (chunkSize : UInt64)
  | complete (sessionId : Option (List UInt8))
  | error (sessionId : Option (List UInt8))
  deriving DecidableEq, Repr

/-- One call. -/
def streamStep (mgr : IpcStreaming) : StreamCall → IpcStreaming × ℤ
  | .start id => ipcStreamingStart id mgr
  | .chunk id size => ipcStreamingChunk id size mgr
  | .complete id => ipcStreamingComplete id mgr
  | .error id => ipcStreamingError id mgr

/-- A step of a run, as the history keeps it. -/
abbrev StreamRecord := Record IpcStreaming StreamCall ℤ

/-- A run from the fresh table. -/
abbrev StreamRun (past : List StreamRecord) (mgr : IpcStreaming) : Prop :=
  Run streamStep ipcStreamingInit past mgr

/-! ### The count -/

/-- The session is active. -/
def StreamSession.isActive (session : StreamSession) : Bool := session.state == .active

/-- How many sessions are active. -/
def activeSessions (mgr : IpcStreaming) : ℕ := mgr.sessions.countP StreamSession.isActive

/-- The call ends no session, or one that is active. -/
def endsActive (mgr : IpcStreaming) : StreamCall → Bool
  | .start _ | .chunk _ _ => true
  | .complete id | .error id =>
      (findSession mgr id).all fun slot => sessionState mgr slot == some .active

section Step

variable (mgr : IpcStreaming)

/-- What is found is in the table. -/
theorem exists_of_findSession {mgr : IpcStreaming} {id : Option (List UInt8)} {slot : ℕ}
    (h : findSession mgr id = some slot) : ∃ session, mgr.sessions[slot]? = some session := by
  cases id with
  | none => cases h
  | some id =>
    obtain ⟨hlt, _⟩ := List.findIdx?_eq_some_iff_getElem.mp h
    exact ⟨_, List.getElem?_eq_getElem hlt⟩

/-- What is allocated is an idle slot of the table. -/
theorem exists_of_allocSession {mgr : IpcStreaming} {slot : ℕ} (h : allocSession mgr = some slot) :
    ∃ session, mgr.sessions[slot]? = some session ∧ session.state = .idle := by
  obtain ⟨hlt, hidle, _⟩ := List.findIdx?_eq_some_iff_getElem.mp h
  exact ⟨_, List.getElem?_eq_getElem hlt, by simpa using hidle⟩

/-- A finishing call takes one from the counter, and one from the active sessions only where it finds
one. -/
theorem finishSession_count {final : StreamState} (hfinal : final ≠ .active) (id : Option (List UInt8)) :
    (finishSession final id mgr).1.activeCount - activeSessions (finishSession final id mgr).1 =
      mgr.activeCount - activeSessions mgr -
        if (findSession mgr id).all fun slot => sessionState mgr slot == some .active then 0
        else 1 := by
  rw [finishSession]
  cases hfind : findSession mgr id with
  | none => simp
  | some slot =>
    obtain ⟨session, hsession⟩ := exists_of_findSession hfind
    have hcount := Slots.countP_modify StreamSession.isActive
      (fun session => { session with state := final }) hsession
    -- The session found is not active any more; it counts only where it was.
    have hnew : StreamSession.isActive { session with state := final } = false := beq_eq_false_iff_ne.mpr hfinal
    have hold : (sessionState mgr slot == some .active) = session.isActive := by
      rw [sessionState, hsession]
      rfl
    rw [hnew] at hcount
    simp only [activeSessions, Option.all_some, hold]
    cases hactive : session.isActive <;> simp [hactive] at hcount ⊢ <;> omega

/-- The counter and the active sessions move together in every call but one that ends a session which
is not active. -/
theorem streamStep_count (call : StreamCall) :
    (streamStep mgr call).1.activeCount - activeSessions (streamStep mgr call).1 =
      mgr.activeCount - activeSessions mgr - if endsActive mgr call then 0 else 1 := by
  cases call with
  | complete id => exact finishSession_count mgr (by decide) id
  | error id => exact finishSession_count mgr (by decide) id
  | start id =>
    have hends : endsActive mgr (.start id) = true := rfl
    rw [hends, if_pos rfl, streamStep]
    cases id with
    | none => simp [ipcStreamingStart]
    | some id =>
      cases halloc : allocSession mgr with
      | none => simp [ipcStreamingStart, halloc]
      | some slot =>
        obtain ⟨session, hsession, hidle⟩ := exists_of_allocSession halloc
        have hcount := Slots.countP_modify StreamSession.isActive
          (fun _ => ⟨copyField 64 id, .active, 0, 0⟩) hsession
        have hold : session.isActive = false := by
          rw [StreamSession.isActive, hidle]
          rfl
        have hnew : StreamSession.isActive ⟨copyField 64 id, .active, 0, 0⟩ = true := rfl
        rw [hold, hnew] at hcount
        simp only [ipcStreamingStart, halloc, activeSessions, Bool.toNat_false, Bool.toNat_true] at hcount ⊢
        omega
  | chunk id size =>
    have hends : endsActive mgr (.chunk id size) = true := rfl
    rw [hends, if_pos rfl, streamStep, ipcStreamingChunk]
    cases hfind : findSession mgr id with
    | none => simp
    | some slot =>
      obtain ⟨session, hsession⟩ := exists_of_findSession hfind
      -- Only the session's counters are written, so it is as active as before.
      have hcount := Slots.countP_modify StreamSession.isActive
        (fun session => { session with
          chunksReceived := session.chunksReceived + 1
          totalBytes := session.totalBytes + size }) hsession
      have hsame := Nat.add_right_cancel hcount
      dsimp only
      split
      · simp
      · simp [activeSessions, hsame]

/-- A finishing call that fails changes nothing, ... -/
theorem finishSession_failed {final : StreamState} {id : Option (List UInt8)}
    (h : (finishSession final id mgr).2 = -1) : (finishSession final id mgr).1 = mgr := by
  rw [finishSession] at h ⊢
  cases hfind : findSession mgr id with
  | none => rfl
  | some slot => simp [hfind] at h

/-- ... and neither does any other call. -/
theorem streamStep_failed {call : StreamCall} (h : (streamStep mgr call).2 = -1) : (streamStep mgr call).1 = mgr := by
  cases call with
  | complete id => exact finishSession_failed mgr h
  | error id => exact finishSession_failed mgr h
  | start id =>
    cases id with
    | none => rfl
    | some id =>
      rw [streamStep, ipcStreamingStart] at h ⊢
      cases halloc : allocSession mgr with
      | none => rfl
      | some slot => simp [halloc] at h
  | chunk id size =>
    rw [streamStep, ipcStreamingChunk] at h ⊢
    cases hfind : findSession mgr id with
    | none => rfl
    | some slot =>
      rw [hfind] at h
      dsimp only at h ⊢
      split
      · rfl
      · rename_i hactive
        simp [hactive] at h

end Step

/-! ### Runs -/

/-- The calls of a run that ended a session which was not active. -/
def misses (past : List StreamRecord) : ℕ := past.countP fun r => !endsActive r.before r.input

section Run

variable {past : List StreamRecord} {mgr : IpcStreaming}

/-- **The law of the counter.** It falls behind the number of active sessions by one for every call
that ended a session which was not active. -/
theorem activeCount_add_misses (run : StreamRun past mgr) : mgr.activeCount + misses past = activeSessions mgr := by
  refine run.invariant (P := fun past mgr => mgr.activeCount + misses past = activeSessions mgr)
    (by decide) ?_
  intro past mgr call ih
  have hstep := streamStep_count mgr call
  have hmisses : misses (recordOf streamStep mgr call :: past) =
      misses past + if endsActive mgr call then 0 else 1 := by
    rw [misses, List.countP_cons, misses]
    cases hends : endsActive mgr call <;> simp [recordOf, hends]
  rw [hmisses]
  cases hends : endsActive mgr call <;> simp [hends] at hstep ⊢ <;> omega

/-- In every run, a call that returned −1 left the table as it was. -/
theorem unchanged_of_failed (run : StreamRun past mgr) : ∀ r ∈ past, r.output = -1 → r.after = r.before := by
  refine run.invariant (P := fun past _ => ∀ r ∈ past, r.output = -1 → r.after = r.before)
    (by simp) ?_
  intro past mgr call ih r hr
  rcases List.mem_cons.mp hr with rfl | hr
  · exact streamStep_failed mgr
  · exact ih r hr

/-- **The session count.** The reported number of active streams is the number of active sessions, and
failed calls change nothing, after exactly the runs in which every session that was ended was active
when it was ended. -/
theorem activeStreams_iff (run : StreamRun past mgr) :
    ((ipcStreamingGetStats mgr).1 = activeSessions mgr ∧ ∀ r ∈ past, r.output = -1 → r.after = r.before) ↔
      ∀ r ∈ past, endsActive r.before r.input = true := by
  have hlaw := activeCount_add_misses run
  have hzero : misses past = 0 ↔ ∀ r ∈ past, endsActive r.before r.input = true := by
    rw [misses, List.countP_eq_zero]
    simp
  rw [← hzero]
  constructor
  · rintro ⟨hcount, _⟩
    have hcount : mgr.activeCount = activeSessions mgr := hcount
    omega
  · intro hmisses
    refine ⟨?_, unchanged_of_failed run⟩
    show mgr.activeCount = activeSessions mgr
    omega

end Run

/-- The calls of a stream: it starts, receives two chunks and ends. -/
def streamCalls : List StreamCall :=
  [.start (some (ascii "s")), .chunk (some (ascii "s")) 10, .chunk (some (ascii "s")) 20,
    .complete (some (ascii "s"))]

/-- The count is right after a stream. -/
theorem activeStreams_after_stream :
    (ipcStreamingGetStats (exec streamStep ipcStreamingInit streamCalls).2).1 =
      activeSessions (exec streamStep ipcStreamingInit streamCalls).2 :=
  ((activeStreams_iff (run_exec streamStep ipcStreamingInit streamCalls)).mpr (by decide)).1

/-- A stream that is completed a second time leaves a count of −1 with no session active. -/
theorem activeStreams_completed_twice :
    StreamRun
        (exec streamStep ipcStreamingInit (streamCalls ++ [.complete (some (ascii "s"))])).1
        (exec streamStep ipcStreamingInit (streamCalls ++ [.complete (some (ascii "s"))])).2 ∧
      (ipcStreamingGetStats
        (exec streamStep ipcStreamingInit (streamCalls ++ [.complete (some (ascii "s"))])).2).1 =
          -1 ∧
      activeSessions
        (exec streamStep ipcStreamingInit (streamCalls ++ [.complete (some (ascii "s"))])).2 = 0 :=
  ⟨run_exec _ _ _, by decide, by decide⟩

end CGateway
