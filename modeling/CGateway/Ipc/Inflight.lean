import Mathlib.Algebra.Order.BigOperators.Group.Finset
import CGateway.Lib.Machine
import CGateway.Lib.Parties

/-! # Requests in flight on the IPC connections

`ipc_backpressure.c`: a counter of the requests in flight for every connection and one for all of them,
with a limit each. A completion takes one from both counters, each under its own guard, so that a
completion that nobody waits for can lower the one and not the other.

* `inflightStep` — the calls;
* `withinLimits_of_run` — no counter leaves its limits, whatever is called;
* `accounting_iff` — the common counter is the sum of the others just as long as no completion comes
  for a connection without a request while another connection has one. -/

namespace CGateway

open Machine Parties

/-! ### The counters -/

/-- `ipc_backpressure_config_t`. -/
structure IpcBackpressureConfig where
  globalMaxInflight : ℤ
  perConnMaxInflight : ℤ
  deriving DecidableEq, Repr

/-- `ipc_backpressure_t`; `connections` is read below `MAX_CONNECTIONS` only. -/
structure IpcBackpressure where
  config : IpcBackpressureConfig
  globalInflight : ℤ
  connections : ℕ → ℤ
  totalRejections : UInt64

/-- `MAX_CONNECTIONS` of the backpressure table. -/
def maxTrackedConnections : ℕ := 64

/-- The configuration as `ipc_backpressure_init` keeps it: 1000 and 10 in place of what is not positive. -/
def IpcBackpressureConfig.validated (config : IpcBackpressureConfig) : IpcBackpressureConfig where
  globalMaxInflight := if config.globalMaxInflight ≤ 0 then 1000 else config.globalMaxInflight
  perConnMaxInflight := if config.perConnMaxInflight ≤ 0 then 10 else config.perConnMaxInflight

/-- `ipc_backpressure_init`; without a configuration the defaults. -/
def ipcBackpressureInit (config : Option IpcBackpressureConfig) : IpcBackpressure where
  config := (config.getD ⟨1000, 10⟩).validated
  globalInflight := 0
  connections := fun _ => 0
  totalRejections := 0

/-- The connection id is that of a tracked connection. -/
def InRange (connId : ℤ) : Prop := 0 ≤ connId ∧ connId < maxTrackedConnections

instance (connId : ℤ) : Decidable (InRange connId) := inferInstanceAs (Decidable (_ ∧ _))

/-- `ipc_backpressure_can_accept`. -/
def ipcBackpressureCanAccept (connId : ℤ) (bp : IpcBackpressure) : Bool :=
  if ¬ InRange connId then false
  else if bp.config.globalMaxInflight ≤ bp.globalInflight then false
  else if bp.config.perConnMaxInflight ≤ bp.connections connId.toNat then false
  else true

/-- `ipc_backpressure_request_start`, which asks `ipc_backpressure_can_accept` itself. -/
def ipcBackpressureRequestStart (connId : ℤ) (bp : IpcBackpressure) : IpcBackpressure :=
  if ¬ InRange connId then bp
  else if !ipcBackpressureCanAccept connId bp then
    { bp with totalRejections := bp.totalRejections + 1 }
  else
    { bp with
      globalInflight := bp.globalInflight + 1
      connections := Function.update bp.connections connId.toNat (bp.connections connId.toNat + 1) }

/-- `ipc_backpressure_request_complete`. -/
def ipcBackpressureRequestComplete (connId : ℤ) (bp : IpcBackpressure) : IpcBackpressure :=
  if ¬ InRange connId then bp
  else
    let count := bp.connections connId.toNat
    { bp with
      globalInflight := if 0 < bp.globalInflight then bp.globalInflight - 1 else bp.globalInflight
      connections := Function.update bp.connections connId.toNat
        (if 0 < count then count - 1 else count) }

/-- `ipc_backpressure_get_stats`. -/
def ipcBackpressureGetStats (bp : IpcBackpressure) : ℤ × UInt64 :=
  (bp.globalInflight, bp.totalRejections)

/-- A call on the counters. -/
inductive InflightCall where
  | canAccept (connId : ℤ)
  | start (connId : ℤ)
  | complete (connId : ℤ)
  deriving DecidableEq, Repr

/-- One call, with its answer where it has one. -/
def inflightStep (bp : IpcBackpressure) : InflightCall → IpcBackpressure × Option Bool
  | .canAccept connId => (bp, some (ipcBackpressureCanAccept connId bp))
  | .start connId => (ipcBackpressureRequestStart connId bp, none)
  | .complete connId => (ipcBackpressureRequestComplete connId bp, none)

/-- A step of a run, as the history keeps it. -/
abbrev InflightRecord := Record IpcBackpressure InflightCall (Option Bool)

/-- A run from fresh counters. -/
abbrev InflightRun (config : IpcBackpressureConfig) (past : List InflightRecord) (bp : IpcBackpressure) : Prop :=
  Run inflightStep (ipcBackpressureInit (some config)) past bp

/-! ### What a call does to a counter -/

/-- The requests in flight by connection, all together. -/
def connectionsTotal (bp : IpcBackpressure) : ℤ :=
  ∑ i ∈ Finset.range maxTrackedConnections, bp.connections i

/-- The common counter is the sum of the others. -/
def Accounted (bp : IpcBackpressure) : Prop := bp.globalInflight = connectionsTotal bp

/-- A completion is for a connection with a request in flight, or there is none at all. -/
def Matched (bp : IpcBackpressure) : InflightCall → Prop
  | .complete connId =>
      InRange connId → 0 < bp.connections connId.toNat ∨ bp.globalInflight = 0
  | .canAccept _ | .start _ => True

instance (bp : IpcBackpressure) : DecidablePred (Matched bp)
  | .complete connId => inferInstanceAs (Decidable (InRange connId → _))
  | .canAccept _ | .start _ => isTrue trivial

/-- All counters are between 0 and their limits. -/
structure WithinLimits (config : IpcBackpressureConfig) (bp : IpcBackpressure) : Prop where
  config_eq : bp.config = config
  global : 0 ≤ bp.globalInflight ∧ bp.globalInflight ≤ config.globalMaxInflight
  connection : ∀ i, 0 ≤ bp.connections i ∧ bp.connections i ≤ config.perConnMaxInflight

section Steps

variable {config : IpcBackpressureConfig} {bp : IpcBackpressure}

/-- A tracked connection is one of those the sum is over. -/
theorem InRange.mem_range {connId : ℤ} (hrange : InRange connId) :
    connId.toNat ∈ Finset.range maxTrackedConnections := by
  rw [Finset.mem_range]
  have := hrange.1
  have := hrange.2
  omega

/-- A request is accepted on a tracked connection while both counters are below their limits. -/
theorem ipcBackpressureCanAccept_iff (connId : ℤ) :
    ipcBackpressureCanAccept connId bp = true ↔
      InRange connId ∧ bp.globalInflight < bp.config.globalMaxInflight ∧
        bp.connections connId.toNat < bp.config.perConnMaxInflight := by
  rw [ipcBackpressureCanAccept]
  by_cases hrange : InRange connId <;> simp [hrange]

/-- A start either leaves the counters as they are or adds one to each below its limit. -/
theorem ipcBackpressureRequestStart_cases (bp : IpcBackpressure) (connId : ℤ) :
    ((ipcBackpressureRequestStart connId bp).config = bp.config ∧
      (ipcBackpressureRequestStart connId bp).globalInflight = bp.globalInflight ∧
      (ipcBackpressureRequestStart connId bp).connections = bp.connections) ∨
    (InRange connId ∧ bp.globalInflight < bp.config.globalMaxInflight ∧
      bp.connections connId.toNat < bp.config.perConnMaxInflight ∧
      ipcBackpressureRequestStart connId bp =
        { bp with
          globalInflight := bp.globalInflight + 1
          connections := Function.update bp.connections connId.toNat
            (bp.connections connId.toNat + 1) }) := by
  rw [ipcBackpressureRequestStart]
  by_cases hrange : InRange connId
  · rw [if_neg (not_not_intro hrange)]
    cases haccept : ipcBackpressureCanAccept connId bp with
    | false => exact .inl ⟨rfl, rfl, rfl⟩
    | true =>
      obtain ⟨-, hglobal, hconn⟩ := (ipcBackpressureCanAccept_iff connId).mp haccept
      exact .inr ⟨hrange, hglobal, hconn, rfl⟩
  · rw [if_pos hrange]
    exact .inl ⟨rfl, rfl, rfl⟩

/-- Writing a counter within its limits keeps all of them there. -/
theorem within_update {connections : ℕ → ℤ} {limit count : ℤ} {slot : ℕ}
    (h : ∀ i, 0 ≤ connections i ∧ connections i ≤ limit) (hcount : 0 ≤ count ∧ count ≤ limit) :
    ∀ i, 0 ≤ Function.update connections slot count i ∧ Function.update connections slot count i ≤ limit :=
  (Function.forall_update_iff connections fun _ n => 0 ≤ n ∧ n ≤ limit).mpr
    ⟨hcount, fun i _ => h i⟩

/-- A start keeps all counters within their limits. -/
theorem WithinLimits.start (h : WithinLimits config bp) (connId : ℤ) :
    WithinLimits config (ipcBackpressureRequestStart connId bp) := by
  have hglobal := h.global
  obtain ⟨hconfig, hcount, hconn⟩ | ⟨hrange, hroom, hroomConn, heq⟩ := ipcBackpressureRequestStart_cases bp connId
  · exact ⟨by rw [hconfig, h.config_eq], by rw [hcount]; exact hglobal, by rw [hconn]; exact h.connection⟩
  · rw [h.config_eq] at hroom hroomConn
    rw [heq]
    refine ⟨h.config_eq, ?_, ?_⟩
    · show 0 ≤ bp.globalInflight + 1 ∧ bp.globalInflight + 1 ≤ config.globalMaxInflight
      omega
    · refine within_update h.connection ?_
      have := h.connection connId.toNat
      omega

/-- So does a completion, which never takes a counter below 0. -/
theorem WithinLimits.complete (h : WithinLimits config bp) (connId : ℤ) :
    WithinLimits config (ipcBackpressureRequestComplete connId bp) := by
  have hglobal := h.global
  rw [ipcBackpressureRequestComplete]
  by_cases hrange : InRange connId
  · rw [if_neg (not_not_intro hrange)]
    refine ⟨h.config_eq, ?_, ?_⟩
    · show 0 ≤ ite _ _ _ ∧ ite _ _ _ ≤ config.globalMaxInflight
      split <;> omega
    · refine within_update h.connection ?_
      have := h.connection connId.toNat
      split <;> omega
  · rwa [if_pos hrange]

/-- Every call keeps all counters within their limits. -/
theorem WithinLimits.step (h : WithinLimits config bp) (call : InflightCall) :
    WithinLimits config (inflightStep bp call).1 := by
  cases call with
  | canAccept connId => exact h
  | start connId => exact h.start connId
  | complete connId => exact h.complete connId

/-- A start moves the common counter and the sum together. -/
theorem Accounted.start (h : Accounted bp) (connId : ℤ) : Accounted (ipcBackpressureRequestStart connId bp) := by
  obtain ⟨-, hcount, hconn⟩ | ⟨hrange, -, -, heq⟩ := ipcBackpressureRequestStart_cases bp connId
  · rw [Accounted, connectionsTotal, hcount, hconn]
    exact h
  · rw [Accounted, connectionsTotal] at h ⊢
    have hsum := sum_update_add id bp.connections hrange.mem_range
      (bp.connections connId.toNat + 1)
    rw [heq]
    simp only [id] at hsum ⊢
    omega

/-- A completion moves them together just when it is a matched one: under the two guards it lowers
both counters or none. -/
theorem Accounted.complete_iff (hlimits : WithinLimits config bp) (h : Accounted bp) (connId : ℤ) :
    Accounted (ipcBackpressureRequestComplete connId bp) ↔ Matched bp (.complete connId) := by
  have hglobal := hlimits.global.1
  have hconn := (hlimits.connection connId.toNat).1
  rw [Accounted, connectionsTotal] at h ⊢
  rw [ipcBackpressureRequestComplete, Matched]
  by_cases hrange : InRange connId
  · have hsum := sum_update_add id bp.connections hrange.mem_range
      (if 0 < bp.connections connId.toNat then bp.connections connId.toNat - 1 else bp.connections connId.toNat)
    rw [if_neg (not_not_intro hrange)]
    simp only [id] at hsum ⊢
    -- a counter above 0 makes the sum, and with it the common counter, positive
    have hle : bp.connections connId.toNat ≤ bp.globalInflight := by
      rw [h]
      exact Finset.single_le_sum (fun i _ => (hlimits.connection i).1) hrange.mem_range
    simp only [hrange, true_implies]
    by_cases hpos : 0 < bp.connections connId.toNat
    · rw [if_pos hpos] at hsum ⊢
      split <;> omega
    · rw [if_neg hpos] at hsum ⊢
      split <;> omega
  · rw [if_pos hrange]
    exact ⟨fun _ hin => absurd hin hrange, fun _ => h⟩

/-- **What a call does to the sum.** From counters that agree, they agree after the call if and only if
the call is a matched one. -/
theorem accounted_step_iff (hlimits : WithinLimits config bp) (h : Accounted bp)
    (call : InflightCall) : Accounted (inflightStep bp call).1 ↔ Matched bp call := by
  cases call with
  | canAccept connId => exact iff_of_true h trivial
  | start connId => exact iff_of_true (h.start connId) trivial
  | complete connId => exact Accounted.complete_iff hlimits h connId

end Steps

/-! ### Runs -/

/-- Positive limits are kept as they are. -/
theorem IpcBackpressureConfig.validated_of_pos {config : IpcBackpressureConfig}
    (hglobal : 0 < config.globalMaxInflight) (hconn : 0 < config.perConnMaxInflight) : config.validated = config := by
  rw [validated, if_neg (by omega), if_neg (by omega)]

/-- **Whatever is called, no counter leaves its limits.** -/
theorem withinLimits_of_run {config : IpcBackpressureConfig} {past : List InflightRecord}
    {bp : IpcBackpressure} (hglobal : 0 < config.globalMaxInflight)
    (hconn : 0 < config.perConnMaxInflight) (run : InflightRun config past bp) : WithinLimits config bp := by
  refine run.invariant (P := fun _ bp => WithinLimits config bp) ?_ (fun _ _ call h => h.step call)
  refine ⟨config.validated_of_pos hglobal hconn, ?_, fun _ => ?_⟩
  · show (0 : ℤ) ≤ 0 ∧ 0 ≤ config.globalMaxInflight
    omega
  · show (0 : ℤ) ≤ 0 ∧ 0 ≤ config.perConnMaxInflight
    omega

/-- Fresh counters agree. -/
theorem accounted_init (config : Option IpcBackpressureConfig) : Accounted (ipcBackpressureInit config) :=
  Finset.sum_const_zero.symm

/-- **The accounting law.** With positive limits every run keeps all counters within them. The common
counter has been the sum of the others all the time if and only if every completion came for a connection
with a request in flight, or when there was none on any connection. -/
theorem accounting_iff (config : IpcBackpressureConfig) (hglobal : 0 < config.globalMaxInflight)
    (hconn : 0 < config.perConnMaxInflight) (past : List InflightRecord) (bp : IpcBackpressure)
    (run : InflightRun config past bp) :
    WithinLimits config bp ∧
      ((∀ r ∈ past, Accounted r.after) ↔ ∀ r ∈ past, Matched r.before r.input) := by
  refine ⟨withinLimits_of_run hglobal hconn run, ?_⟩
  refine run.forall_iff (accounted_init _) (fun _ _ _ _ _ h => h) ?_
  intro past bp call run h
  exact accounted_step_iff (withinLimits_of_run hglobal hconn run) h call

/-- A request that is accepted, started and completed on connection 3. -/
def requestOnThree : List InflightCall := [.canAccept 3, .start 3, .complete 3]

/-- The counters stay within their limits, and they agree. -/
theorem accounting_after_request :
    WithinLimits ⟨2, 1⟩ (exec inflightStep (ipcBackpressureInit (some ⟨2, 1⟩)) requestOnThree).2 ∧
      ∀ r ∈ (exec inflightStep (ipcBackpressureInit (some ⟨2, 1⟩)) requestOnThree).1,
        Accounted r.after := by
  obtain ⟨hlimits, hiff⟩ :=
    accounting_iff ⟨2, 1⟩ (by decide) (by decide) _ _ (run_exec _ _ requestOnThree)
  refine ⟨hlimits, hiff.mpr ?_⟩
  decide

/-- A completion for connection 1, which has no request, takes back the request of connection 0 in the
common counter only: with a limit of one, a second request is then accepted on top of the first. -/
theorem accounting_spurious_completion :
    let calls : List InflightCall := [.canAccept 0, .start 0, .complete 1, .canAccept 1, .start 1]
    let bp := (exec inflightStep (ipcBackpressureInit (some ⟨1, 1⟩)) calls).2
    InflightRun ⟨1, 1⟩ (exec inflightStep (ipcBackpressureInit (some ⟨1, 1⟩)) calls).1 bp ∧
      bp.globalInflight = 1 ∧ bp.connections 0 = 1 ∧ bp.connections 1 = 1 ∧ ¬ Accounted bp := by
  refine ⟨run_exec _ _ _, by decide, by decide, by decide, ?_⟩
  rw [Accounted, connectionsTotal]
  decide

end CGateway
