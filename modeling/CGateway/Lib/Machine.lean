import Mathlib.Data.List.Basic
import Mathlib.Data.List.Infix

/-! # Deterministic machines, their runs and their histories

A component that is driven call by call is a step function `step : S → I → S × O`: an input takes a
state to the next one and answers an output. A **run** is a finite sequence of inputs from a start
state. Its **history** keeps every step as a `Record`, the latest first, so that a law about the past
("since the last success", "counting the call that opened the period") is a recursion on a list.

* `Run step s₀ past s` — from `s₀` some inputs lead to `s` and leave the history `past`;
* `Run.invariant` — what holds at the start and is kept by every step holds of every run;
* `Run.of_suffix` — every step of a run was made at the end of an earlier run;
* `Run.forall_iff` — what holds of all steps of a run, from what a step from a good state does;
* `exec` / `run_exec` — the run of an explicit list of inputs. -/

namespace Machine

universe u v w

variable {S : Type u} {I : Type v} {O : Type w}

/-- One step as a history keeps it: the states around it, the input and the answer. -/
structure Record (S : Type u) (I : Type v) (O : Type w) where
  /-- The state the step started from. -/
  before : S
  /-- The input that was given. -/
  input : I
  /-- The answer to the input. -/
  output : O
  /-- The state the step ended in. -/
  after : S

/-- The record of giving `i` to the machine in state `s`. -/
def recordOf (step : S → I → S × O) (s : S) (i : I) : Record S I O :=
  ⟨s, i, (step s i).2, (step s i).1⟩

@[simp] theorem recordOf_input (step : S → I → S × O) (s : S) (i : I) : (recordOf step s i).input = i := rfl

@[simp] theorem recordOf_output (step : S → I → S × O) (s : S) (i : I) :
    (recordOf step s i).output = (step s i).2 := rfl

/-- `Run step s₀ past s`: from `s₀` the machine has come to `s`, and `past` records its steps, the
latest first. -/
inductive Run (step : S → I → S × O) (s₀ : S) : List (Record S I O) → S → Prop
  /-- The empty run. -/
  | start : Run step s₀ [] s₀
  /-- A run extended by one input. -/
  | next {past : List (Record S I O)} {s : S} (run : Run step s₀ past s) (i : I) :
      Run step s₀ (recordOf step s i :: past) (step s i).1

namespace Run

variable {step : S → I → S × O} {s₀ s : S} {past : List (Record S I O)}

/-- **Invariant rule.** A relation between history and state that holds at the start and that every
step keeps holds of every run. -/
theorem invariant {P : List (Record S I O) → S → Prop} (hstart : P [] s₀)
    (hstep : ∀ past s i, P past s → P (recordOf step s i :: past) (step s i).1)
    (h : Run step s₀ past s) : P past s := by
  induction h with
  | start => exact hstart
  | next _ i ih => exact hstep _ _ i ih

/-- **An earlier moment of a run.** Each recorded step was made from a state that the steps before it
lead to. -/
theorem of_suffix {r : Record S I O} {earlier : List (Record S I O)} (h : Run step s₀ past s)
    (hsuffix : r :: earlier <:+ past) : Run step s₀ earlier r.before ∧ r = recordOf step r.before r.input := by
  induction h with
  | start => cases List.suffix_nil.mp hsuffix
  | next run i ih =>
    rcases List.suffix_cons_iff.mp hsuffix with heq | hsuffix
    · obtain ⟨rfl, rfl⟩ := List.cons.inj heq
      exact ⟨run, rfl⟩
    · exact ih hsuffix

/-- **First failure.** Where a step from a good state is right just when it is allowed, and a right step from
there leads to a good state, the steps of a run are all right if and only if they are all allowed. -/
theorem forall_iff {good : S → Prop} {right allowed : Record S I O → Prop} (hstart : good s₀)
    (hkeeps : ∀ past s i, Run step s₀ past s → good s → right (recordOf step s i) → good (step s i).1)
    (hstep : ∀ past s i, Run step s₀ past s → good s → (right (recordOf step s i) ↔ allowed (recordOf step s i)))
    (h : Run step s₀ past s) : (∀ r ∈ past, right r) ↔ ∀ r ∈ past, allowed r := by
  have hlast : ∀ {past s}, Run step s₀ past s → (∀ r ∈ past, right r) → good s := by
    intro past s run
    induction run with
    | start => exact fun _ => hstart
    | next run i ih =>
      intro hall
      rw [List.forall_mem_cons] at hall
      exact hkeeps _ _ i run (ih hall.2) hall.1
  induction h with
  | start => simp
  | next run i ih =>
    rw [List.forall_mem_cons, List.forall_mem_cons]
    constructor
    · rintro ⟨hright, hall⟩
      exact ⟨(hstep _ _ i run (hlast run hall)).mp hright, ih.mp hall⟩
    · rintro ⟨hallowed, hall⟩
      exact ⟨(hstep _ _ i run (hlast run (ih.mpr hall))).mpr hallowed, ih.mpr hall⟩

end Run

/-- Run an explicit list of inputs, the earliest first: the history (latest first) and the state. -/
def exec (step : S → I → S × O) (s₀ : S) (inputs : List I) : List (Record S I O) × S :=
  inputs.foldl (fun acc i => (recordOf step acc.2 i :: acc.1, (step acc.2 i).1)) ([], s₀)

/-- One more input at the end. -/
theorem exec_concat (step : S → I → S × O) (s₀ : S) (inputs : List I) (i : I) :
    exec step s₀ (inputs ++ [i]) =
      (recordOf step (exec step s₀ inputs).2 i :: (exec step s₀ inputs).1, (step (exec step s₀ inputs).2 i).1) := by
  rw [exec, List.foldl_append]
  rfl

/-- Executing a list of inputs is a run. -/
theorem run_exec (step : S → I → S × O) (s₀ : S) (inputs : List I) :
    Run step s₀ (exec step s₀ inputs).1 (exec step s₀ inputs).2 := by
  have key : ∀ (inputs : List I) (acc : List (Record S I O) × S), Run step s₀ acc.1 acc.2 →
      Run step s₀
        (inputs.foldl (fun acc i => (recordOf step acc.2 i :: acc.1, (step acc.2 i).1)) acc).1
        (inputs.foldl (fun acc i => (recordOf step acc.2 i :: acc.1, (step acc.2 i).1)) acc).2 := by
    intro inputs
    induction inputs with
    | nil => exact fun _ h => h
    | cons i rest ih => exact fun acc h => ih _ (h.next i)
  exact key inputs _ .start

end Machine
