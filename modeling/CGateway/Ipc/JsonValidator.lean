import Mathlib.Data.List.DropRight
import CGateway.Lib.Brackets
import CGateway.Lib.JsonMembers

/-! # The JSON validator

`json_validator.c` looks at a text without parsing it: it counts braces and brackets outside of strings, each kind with
its own counter, and looks for the names of required fields with `strstr`.

* `jsonValidateWellformed`, `jsonValidateTaskSubmit` — the two checks;
* `KeepsCounters` — the part of a text leaves the counters as they were;
* `IsNested` — what the counters stand for: strings are closed, brackets match, and one value is all there is. -/

namespace CGateway

open Bytes CString JsonText JsonDoc

/-! ### The validator -/

/-- `json_validation_error_t`. -/
inductive JsonValidation where
  | valid
  | nullInput
  | parseError
  | notObject
  | missingRequired
  | invalidType
  | outOfRange
  deriving DecidableEq, Repr

/-- The loop of `json_validate_wellformed`: its three variables, and the byte in front of the next one. -/
structure ValidatorState where
  braceCount : Int32 := 0
  bracketCount : Int32 := 0
  inString : Bool := false
  /-- `*(p-1)`, which is not looked at for the first byte. -/
  prev : Option UInt8 := none
  deriving DecidableEq

/-- A byte outside of strings. -/
def ValidatorState.tally (s : ValidatorState) (b : UInt8) : ValidatorState :=
  let s := if b = 123 then { s with braceCount := s.braceCount + 1 } else s
  let s := if b = 125 then { s with braceCount := s.braceCount - 1 } else s
  let s := if b = 91 then { s with bracketCount := s.bracketCount + 1 } else s
  if b = 93 then { s with bracketCount := s.bracketCount - 1 } else s

/-- One byte of the loop. -/
def validatorStep (s : ValidatorState) (b : UInt8) : ValidatorState :=
  let s' := if b = 34 ∧ s.prev ≠ some 92 then { s with inString := !s.inString } else s
  let s'' := if s'.inString = false then s'.tally b else s'
  { s'' with prev := some b }

/-- `json_validate_wellformed`, where a pointer may be `NULL`. -/
def jsonValidateWellformed : Option (List UInt8) → JsonValidation
  | none => .nullInput
  | some jsonStr =>
      let text := (cstr jsonStr).dropWhile isSpace
      if text.head? ≠ some 123 ∧ text.head? ≠ some 91 then .parseError
      else
        let s := text.foldl validatorStep {}
        if s.braceCount ≠ 0 ∨ s.bracketCount ≠ 0 then .parseError else .valid

/-- `json_has_field`, with its search buffer of 256 bytes. -/
def jsonHasField (jsonStr : List UInt8) (field : String) : Bool :=
  contains ((34 :: (ascii field ++ [34])).take 255) (cstr jsonStr)

/-- `json_validate_task_submit`. -/
def jsonValidateTaskSubmit (json : Option (List UInt8)) : JsonValidation :=
  match json, jsonValidateWellformed json with
  | some jsonStr, .valid =>
      if ((cstr jsonStr).dropWhile isSpace).head? ≠ some 123 then .notObject
      else if jsonHasField jsonStr "task_type" = false then .missingRequired
      else if jsonHasField jsonStr "file" = false then .missingRequired
      else .valid
  | _, err => err

/-! ### One byte -/

section Step

variable {s : ValidatorState} {b : UInt8}

/-- A byte in a string, but for the quotation mark that ends it. -/
theorem validatorStep_inside (hs : s.inString = true) (hb : b = 34 → s.prev = some 92) :
    validatorStep s b = { s with prev := some b } := by
  have hquote : ¬(b = 34 ∧ s.prev ≠ some 92) := fun h => h.2 (hb h.1)
  simp [validatorStep, hquote, hs]

/-- A byte outside of strings, but for the quotation mark that begins one. -/
theorem validatorStep_outside (hs : s.inString = false) (hb : b = 34 → s.prev = some 92) :
    validatorStep s b = { s.tally b with prev := some b } := by
  have hquote : ¬(b = 34 ∧ s.prev ≠ some 92) := fun h => h.2 (hb h.1)
  simp [validatorStep, hquote, hs]

/-- The quotation marks around a string. -/
theorem validatorStep_quote (hs : s.prev ≠ some 92) :
    validatorStep s 34 = { s with inString := !s.inString, prev := some 34 } := by
  cases hin : s.inString <;> simp [validatorStep, hs, hin, ValidatorState.tally]

/-- A byte that is no bracket. -/
theorem ValidatorState.tally_of_ne (s : ValidatorState) (h : b ∉ [123, 125, 91, 93]) : s.tally b = s := by
  simp only [List.mem_cons, List.not_mem_nil, or_false, not_or] at h
  simp [tally, h]

theorem inString_tally (s : ValidatorState) (b : UInt8) : (s.tally b).inString = s.inString := by
  simp only [ValidatorState.tally]
  split_ifs <;> rfl

end Step

/-! ### Parts that leave the counters as they were -/

/-- From outside of strings, the part leads to outside of strings with the same counters, and no backslash is behind
it. -/
def KeepsCounters (part : List UInt8) : Prop :=
  ∀ s : ValidatorState, s.inString = false → s.prev ≠ some 92 →
    ∃ last, last ≠ some 92 ∧ part.foldl validatorStep s = { s with prev := last }

theorem KeepsCounters.nil : KeepsCounters [] := fun s _ hprev => ⟨s.prev, hprev, rfl⟩

theorem KeepsCounters.append {u v : List UInt8} (hu : KeepsCounters u) (hv : KeepsCounters v) :
    KeepsCounters (u ++ v) := by
  intro s hs hprev
  obtain ⟨mid, hmid, hfirst⟩ := hu s hs hprev
  obtain ⟨last, hlast, hsecond⟩ := hv { s with prev := mid } hs hmid
  exact ⟨last, hlast, by rw [List.foldl_append, hfirst, hsecond]⟩

/-- Bytes that are no brackets, no quotation marks and no backslashes. -/
theorem keepsCounters_plain {part : List UInt8} (h : ∀ b ∈ part, isPlain b = true) : KeepsCounters part := by
  induction part with
  | nil => exact KeepsCounters.nil
  | cons b part ih =>
    rw [List.forall_mem_cons] at h
    have hne : ∀ c ∈ [34, 92, 123, 125, 91, 93], b ≠ c := by
      have hall : ∀ c ∈ [34, 92, 123, 125, 91, 93], isPlain c = false := List.all_iff_forall_prop.mp (by decide)
      rintro c hc rfl
      exact absurd (h.1.symm.trans (hall b hc)) (by decide)
    -- The first byte is none of those that the loop looks at.
    refine KeepsCounters.append (u := [b]) (fun s hs hprev => ?_) (ih h.2)
    refine ⟨some b, fun heq => hne 92 (by decide) (Option.some.inj heq), ?_⟩
    have htally : s.tally b = s := by
      refine s.tally_of_ne fun hmem => ?_
      have hbracket : ∀ c ∈ [123, 125, 91, 93], c ∈ ([34, 92, 123, 125, 91, 93] : List UInt8) :=
        List.all_iff_forall_prop.mp (by decide)
      exact hne b (hbracket b hmem) rfl
    rw [List.foldl_cons, List.foldl_nil, validatorStep_outside hs fun h => absurd h (hne 34 (by decide)), htally]

/-- What is between the quotation marks of a string: a quotation mark there is behind a backslash. -/
theorem foldl_body {inside : Inside} {body : List UInt8} (hbody : (body.foldlM Inside.read inside).isSome = true)
    {s : ValidatorState} (hs : s.inString = true) (hescape : inside = .escape → s.prev = some 92) :
    body.foldl validatorStep s = { s with prev := body.getLast?.or s.prev } := by
  -- Induction along the body with the state of the reader: it is behind an escape only where the loop sees a backslash.
  induction body generalizing inside s with
  | nil => rfl
  | cons b body ih =>
    rw [List.foldlM_cons] at hbody
    obtain ⟨next, hread⟩ : ∃ next, inside.read b = some next := by
      rw [← Option.isSome_iff_exists]
      cases hread : inside.read b with
      | none => rw [hread] at hbody; cases hbody
      | some next => rfl
    rw [hread] at hbody
    have hquote : b = 34 → s.prev = some 92 := by
      rintro rfl
      exact hescape (Inside.eq_escape_of_read hread)
    have hnext : next = .escape → b = 92 := by
      rintro rfl
      exact Inside.eq_of_read_escape hread
    have hrest := ih hbody (s := { s with prev := some b }) hs fun heq => congrArg some (hnext heq)
    rw [List.foldl_cons, validatorStep_inside hs hquote, hrest, List.getLast?_cons]
    cases body.getLast? <;> rfl

/-- A quoted text that does not end with a backslash. -/
theorem keepsCounters_quoted {body : List UInt8} (hbody : isBody body = true) (hlast : body.getLast? ≠ some 92) :
    KeepsCounters (34 :: (body ++ [34])) := by
  intro s hs hprev
  have hin : (body.foldlM Inside.read .text).isSome = true := by rw [foldlM_of_isBody hbody]; rfl
  have hclose : body.getLast?.or (some 34) ≠ some 92 := by
    cases hcase : body.getLast? with
    | none => decide
    | some b => exact fun heq => hlast (hcase.trans heq)
  refine ⟨some 34, by decide, ?_⟩
  have hinside := foldl_body hin (s := { s with inString := !s.inString, prev := some 34 }) (by simp [hs])
    fun heq => by cases heq
  rw [List.foldl_cons, validatorStep_quote hprev, List.foldl_append, hinside, List.foldl_cons, List.foldl_nil,
    validatorStep_quote hclose]
  simp

variable {inner before after : List UInt8} {d : JsonDoc}

/-- A pair of brackets that are counted up and down. -/
theorem keepsCounters_pair {opening closing : UInt8} (hopening : opening ≠ 34 ∧ opening ≠ 92)
    (hclosing : closing ≠ 34 ∧ closing ≠ 92)
    (htally : ∀ s t : ValidatorState, s.tally opening = t →
      ∀ last, ({ t with prev := last } : ValidatorState).tally closing = { s with prev := last })
    (h : KeepsCounters inner) : KeepsCounters (opening :: (inner ++ [closing])) := by
  intro s hs _
  have hopen := @validatorStep_outside s opening hs fun heq => absurd heq hopening.1
  have hinside := (inString_tally s opening).trans hs
  generalize ht : s.tally opening = t at hopen hinside
  obtain ⟨last, -, hinner⟩ := h { t with prev := some opening } hinside fun heq => hopening.2 (Option.some.inj heq)
  have hclose : validatorStep { t with prev := last } closing = { s with prev := some closing } := by
    rw [validatorStep_outside (by exact hinside) fun heq => absurd heq hclosing.1, htally s t ht]
  refine ⟨some closing, fun heq => hclosing.2 (Option.some.inj heq), ?_⟩
  rw [List.foldl_cons, hopen, List.foldl_append, hinner]
  exact hclose

theorem keepsCounters_brackets (h : KeepsCounters inner) : KeepsCounters (91 :: (inner ++ [93])) := by
  refine keepsCounters_pair (by decide) (by decide) ?_ h
  rintro s t rfl last
  simp [ValidatorState.tally, Int32.add_sub_cancel]

theorem keepsCounters_braces (h : KeepsCounters inner) : KeepsCounters (123 :: (inner ++ [125])) := by
  refine keepsCounters_pair (by decide) (by decide) ?_ h
  rintro s t rfl last
  simp [ValidatorState.tally, Int32.add_sub_cancel]

/-- Along a document, if no quoted text ends with a backslash. -/
theorem walk_keepsCounters :
    Walk fun part bodies _ => (∀ body ∈ bodies, body.getLast? ≠ some 92) → KeepsCounters part where
  plain part _ hpart _ := keepsCounters_plain hpart
  quoted body _ hbody _ hlast := keepsCounters_quoted hbody (hlast body List.mem_cons_self)
  append u v us vs _ hu hv hlast := by
    rw [List.forall_mem_append] at hlast
    exact (hu hlast.1).append (hv hlast.2)
  brackets _ _ _ h hlast := keepsCounters_brackets (h hlast)
  braces _ _ _ h hlast := keepsCounters_braces (h hlast)

/-! ### JSON texts -/

/-- An object or an array. -/
def isContainer : JsonDoc → Bool
  | .array _ _ | .object _ _ => true
  | _ => false

theorem isSpace_of_isBlank {b : UInt8} (h : isBlank b = true) : isSpace b = true := by
  rcases isBlank_iff.mp h with rfl | rfl | rfl | rfl <;> decide

/-- The first byte of an object or an array. -/
theorem head_of_isContainer (h : isContainer d = true) : d.text.head? = some 123 ∨ d.text.head? = some 91 := by
  cases d with
  | literal text => cases h
  | string body => cases h
  | array blank items => exact .inr rfl
  | object blank members => exact .inl rfl

/-- What is left of a text when the spaces in front of it are skipped. -/
theorem dropWhile_text (hd : isContainer d = true) (hbefore : ∀ b ∈ before, isBlank b = true)
    (after : List UInt8) : (before ++ (d.text ++ after)).dropWhile isSpace = d.text ++ after := by
  rw [List.dropWhile_append_of_pos fun b hb => isSpace_of_isBlank (hbefore b hb)]
  cases htext : d.text with
  | nil => simpa [htext] using head_of_isContainer hd
  | cons b rest =>
    have hhead := head_of_isContainer hd
    rw [htext, List.head?_cons, Option.some_inj, Option.some_inj] at hhead
    rw [List.cons_append, List.dropWhile_cons_of_neg]
    rcases hhead with rfl | rfl <;> decide

theorem cstr_text (hd : d.isWellFormed = true) (hbefore : ∀ b ∈ before, isBlank b = true)
    (hafter : ∀ b ∈ after, isBlank b = true) : cstr (before ++ (d.text ++ after)) = before ++ (d.text ++ after) :=
  cstr_of_no_zero (isText_text hd hbefore hafter).zero_notMem

/-- Along the text of a document the counters return to zero. -/
theorem wellformed_text (hd : d.isWellFormed = true) (hcontainer : isContainer d = true)
    (hbefore : ∀ b ∈ before, isBlank b = true) (hafter : ∀ b ∈ after, isBlank b = true)
    (hlast : ∀ body ∈ d.quotedTexts, body.getLast? ≠ some 92) :
    jsonValidateWellformed (some (before ++ (d.text ++ after))) = .valid := by
  have hkeeps : KeepsCounters (d.text ++ after) :=
    (walk_keepsCounters.text hd (ends_of_blanks hafter) hlast).append
      (keepsCounters_plain fun b hb => isPlain_of_isBlank (hafter b hb))
  obtain ⟨last, -, hrun⟩ := hkeeps {} rfl (by simp)
  have hhead : ¬((d.text ++ after).head? ≠ some 123 ∧ (d.text ++ after).head? ≠ some 91) := by
    rintro ⟨hbrace, hbracket⟩
    rcases head_of_isContainer hcontainer with h | h
    · exact hbrace (by rw [List.head?_append, h]; rfl)
    · exact hbracket (by rw [List.head?_append, h]; rfl)
  simp only [jsonValidateWellformed, cstr_text hd hbefore hafter, dropWhile_text hcontainer hbefore, if_neg hhead, hrun]
  decide

/-! ### Brackets outside of strings -/

/-- The two kinds that are counted. -/
inductive FenceKind where
  | brace
  | bracket
  deriving DecidableEq, Repr

/-- The bracket that a byte is. -/
def fenceOf (b : UInt8) : Option (Fence FenceKind) :=
  if b = 123 then some (.opening .brace)
  else if b = 125 then some (.closing .brace)
  else if b = 91 then some (.opening .bracket)
  else if b = 93 then some (.closing .bracket)
  else none

section Outside

variable {σ τ : Type} (step : σ → UInt8 → σ) (inside : σ → Bool)

/-- The brackets of a text that stand outside of its strings, with some way to tell where these are. -/
def fencesOutside : σ → List UInt8 → List (Fence FenceKind)
  | _, [] => []
  | s, b :: text => (if inside (step s b) then [] else (fenceOf b).toList) ++ fencesOutside (step s b) text

theorem fencesOutside_append (s : σ) (u v : List UInt8) :
    fencesOutside step inside s (u ++ v)
      = fencesOutside step inside s u ++ fencesOutside step inside (u.foldl step s) v := by
  induction u generalizing s with
  | nil => rfl
  | cons b u ih => rw [List.cons_append, fencesOutside, fencesOutside, ih, List.append_assoc, List.foldl_cons]

/-- The first brackets are those of the beginning of the text. -/
theorem exists_take_fencesOutside (s : σ) (text : List UInt8) (n : ℕ) :
    ∃ m, (fencesOutside step inside s text).take n = fencesOutside step inside s (text.take m) := by
  induction text generalizing s n with
  | nil => exact ⟨0, by rw [fencesOutside, List.take_nil, List.take_nil, fencesOutside]⟩
  | cons b text ih =>
    rw [fencesOutside]
    -- A byte is one bracket or none.
    rcases hfence : (if inside (step s b) then [] else (fenceOf b).toList) with _ | ⟨fence, more⟩
    · obtain ⟨m, hm⟩ := ih (step s b) n
      exact ⟨m + 1, by rw [List.nil_append, hm, List.take_succ_cons, fencesOutside, hfence, List.nil_append]⟩
    · have hmore : more = [] := by
        split_ifs at hfence
        cases hcase : fenceOf b with
        | none => rw [hcase] at hfence; cases hfence
        | some fence' =>
          rw [hcase, Option.toList_some, List.cons.injEq] at hfence
          exact hfence.2.symm
      subst hmore
      cases n with
      | zero => exact ⟨0, rfl⟩
      | succ n =>
        obtain ⟨m, hm⟩ := ih (step s b) n
        exact ⟨m + 1, by
          rw [List.singleton_append, List.take_succ_cons, hm, List.take_succ_cons, fencesOutside, hfence,
            List.singleton_append]⟩

variable {step inside} {step' : τ → UInt8 → τ} {inside' : τ → Bool}

/-- Two ways to tell where the strings are that agree all along the text. -/
theorem fencesOutside_congr {s : σ} {t : τ} {text : List UInt8}
    (h : ∀ u, u <+: text → inside (u.foldl step s) = inside' (u.foldl step' t)) :
    fencesOutside step inside s text = fencesOutside step' inside' t text := by
  induction text generalizing s t with
  | nil => rfl
  | cons b text ih =>
    have hfirst : inside (step s b) = inside' (step' t b) := h [b] ⟨text, rfl⟩
    rw [fencesOutside, fencesOutside, hfirst, ih fun u hu => h (b :: u) (List.cons_prefix_cons.mpr ⟨rfl, hu⟩)]

end Outside

/-! ### Where strings are -/

/-- Where a reader of JSON is. -/
inductive Quoting where
  | outside
  | inside
  /-- Behind a backslash that is not escaped itself. -/
  | escaped
  deriving DecidableEq, Repr

/-- One byte for such a reader. -/
def Quoting.read : Quoting → UInt8 → Quoting
  | .outside, b => if b = 34 then .inside else .outside
  | .inside, b => if b = 34 then .outside else if b = 92 then .escaped else .inside
  | .escaped, _ => .inside

def Quoting.isInside : Quoting → Bool
  | .outside => false
  | .inside | .escaped => true

/-- The brackets outside of string literals. -/
def fences (text : List UInt8) : List (Fence FenceKind) := fencesOutside Quoting.read Quoting.isInside .outside text

/-- The brackets that the validator counts. -/
def countedFences (text : List UInt8) : List (Fence FenceKind) :=
  fencesOutside validatorStep ValidatorState.inString {} text

/-- To look one byte back is enough: in front of a quotation mark there is a backslash just when it is escaped. -/
def QuotesReadRight (text : List UInt8) : Prop :=
  ∀ n < text.length, text[n]? = some 34 →
    ((text.take n).getLast? = some 92 ↔ (text.take n).foldl Quoting.read .outside = .escaped)

instance (text : List UInt8) : Decidable (QuotesReadRight text) := inferInstanceAs (Decidable (∀ _ < _, _))

/-- The flag of the validator. -/
theorem inString_validatorStep (s : ValidatorState) (b : UInt8) :
    (validatorStep s b).inString = if b = 34 ∧ s.prev ≠ some 92 then !s.inString else s.inString := by
  rw [validatorStep]
  split_ifs <;> simp_all [inString_tally]

theorem prev_foldl (text : List UInt8) : (text.foldl validatorStep {}).prev = text.getLast? := by
  induction text using List.reverseRecOn with
  | nil => rfl
  | append_singleton text b ih =>
    rw [List.foldl_append, List.getLast?_concat]
    rfl

/-- The flag is right as long as quotation marks are read right. -/
theorem inString_eq_isInside {text : List UInt8} (h : QuotesReadRight text) {u : List UInt8} (hu : u <+: text) :
    (u.foldl validatorStep {}).inString = (u.foldl Quoting.read .outside).isInside := by
  induction u using List.reverseRecOn with
  | nil => rfl
  | append_singleton u b ih =>
    have hbefore := ih ((List.prefix_append u [b]).trans hu)
    rw [List.foldl_append, List.foldl_append, List.foldl_cons, List.foldl_nil, List.foldl_cons, List.foldl_nil,
      inString_validatorStep, prev_foldl, hbefore]
    -- Only a quotation mark is read by looking back, and there the text is as it should be.
    by_cases hb : b = 34
    · subst hb
      obtain ⟨v, rfl⟩ := hu
      have hescaped := h u.length (by simp) (by simp)
      rw [List.append_assoc, List.take_left] at hescaped
      cases hstate : u.foldl Quoting.read .outside <;> simp_all [Quoting.read, Quoting.isInside]
    · cases hstate : u.foldl Quoting.read .outside with
      | outside => simp [Quoting.read, hb, Quoting.isInside]
      | inside => by_cases hescape : b = 92 <;> simp [Quoting.read, hb, hescape, Quoting.isInside]
      | escaped => simp [Quoting.read, hb, Quoting.isInside]

/-- So the validator counts the brackets outside of string literals. -/
theorem countedFences_eq {text : List UInt8} (h : QuotesReadRight text) : countedFences text = fences text :=
  fencesOutside_congr fun _ hu => inString_eq_isInside h hu

/-! ### The counters -/

/-- The counter of a kind. -/
def ValidatorState.counter (s : ValidatorState) : FenceKind → Int32
  | .brace => s.braceCount
  | .bracket => s.bracketCount

theorem counter_tally (s : ValidatorState) (b : UInt8) (kind : FenceKind) :
    (s.tally b).counter kind = s.counter kind + Int32.ofInt (Fence.count kind (fenceOf b).toList) := by
  by_cases hmem : b ∈ [123, 125, 91, 93]
  · simp only [List.mem_cons, List.not_mem_nil, or_false] at hmem
    have hplus : Int32.ofInt 1 = 1 := by decide
    have hminus : Int32.ofInt (-1) = -1 := by decide
    rcases hmem with rfl | rfl | rfl | rfl <;> cases kind <;>
      simp [ValidatorState.tally, ValidatorState.counter, fenceOf, Fence.deltaOf, hplus, hminus, Int32.sub_eq_add_neg]
  · have hnone : fenceOf b = none := by
      simp only [List.mem_cons, List.not_mem_nil, or_false, not_or] at hmem
      simp [fenceOf, hmem]
    rw [s.tally_of_ne hmem, hnone, Option.toList_none, Fence.count_nil]
    exact (Int32.add_zero _).symm

theorem counter_validatorStep (s : ValidatorState) (b : UInt8) (kind : FenceKind) :
    (validatorStep s b).counter kind = s.counter kind +
      Int32.ofInt (Fence.count kind (if (validatorStep s b).inString then [] else (fenceOf b).toList)) := by
  have hprev : ∀ (t : ValidatorState) (flag : Bool) (last : Option UInt8),
      ({ t with inString := flag, prev := last } : ValidatorState).counter kind = t.counter kind := by
    intro t flag last
    cases kind <;> rfl
  by_cases hb : b = 34 → s.prev = some 92
  · cases hs : s.inString with
    | true =>
      have hstep := validatorStep_inside hs hb
      have hflag : (validatorStep s b).inString = true := by rw [hstep, hs]
      rw [hflag, if_pos rfl, hstep]
      exact (hprev s s.inString (some b)).trans (Int32.add_zero _).symm
    | false =>
      have hstep := validatorStep_outside hs hb
      have hflag : (validatorStep s b).inString = false := by rw [hstep, inString_tally, hs]
      rw [hflag, if_neg Bool.false_ne_true, hstep, ← counter_tally]
      exact hprev (s.tally b) (s.tally b).inString (some b)
  · -- A quotation mark that switches the flag is no bracket.
    obtain ⟨rfl, hlast⟩ := Classical.not_imp.mp hb
    have hnone : (if (validatorStep s 34).inString then [] else (fenceOf 34).toList) = [] := ite_self _
    rw [hnone, Fence.count_nil, validatorStep_quote hlast]
    exact (hprev s _ (some 34)).trans (Int32.add_zero _).symm

/-- The counters count the brackets, modulo the size of an `int`. -/
theorem counter_foldl (s : ValidatorState) (text : List UInt8) (kind : FenceKind) :
    (text.foldl validatorStep s).counter kind = s.counter kind +
      Int32.ofInt (Fence.count kind (fencesOutside validatorStep ValidatorState.inString s text)) := by
  induction text generalizing s with
  | nil => exact (Int32.add_zero _).symm
  | cons b text ih =>
    rw [List.foldl_cons, ih, counter_validatorStep, fencesOutside, Fence.count_append, Int32.ofInt_add, Int32.add_assoc]

/-- What the validator accepts, in terms of the brackets it counts. -/
theorem jsonValidateWellformed_eq_valid_iff (jsonStr : List UInt8) :
    jsonValidateWellformed (some jsonStr) = .valid ↔
      let text := (cstr jsonStr).dropWhile isSpace
      (text.head? = some 123 ∨ text.head? = some 91) ∧
        ∀ kind, Int32.ofInt (Fence.count kind (countedFences text)) = 0 := by
  have hcounter : ∀ text kind, (text.foldl validatorStep {}).counter kind
      = Int32.ofInt (Fence.count kind (countedFences text)) := by
    intro text kind
    rw [counter_foldl, countedFences]
    cases kind <;> exact Int32.zero_add _
  dsimp only [jsonValidateWellformed]
  generalize (cstr jsonStr).dropWhile isSpace = text
  have hbrace : (text.foldl validatorStep {}).braceCount = _ := hcounter text .brace
  have hbracket : (text.foldl validatorStep {}).bracketCount = _ := hcounter text .bracket
  rw [hbrace, hbracket]
  have hkinds : (∀ kind, Int32.ofInt (Fence.count kind (countedFences text)) = 0) ↔
      ¬(Int32.ofInt (Fence.count .brace (countedFences text)) ≠ 0 ∨
        Int32.ofInt (Fence.count .bracket (countedFences text)) ≠ 0) := by
    rw [not_or, not_not, not_not]
    refine ⟨fun h => ⟨h .brace, h .bracket⟩, fun h kind => ?_⟩
    cases kind with
    | brace => exact h.1
    | bracket => exact h.2
  rw [hkinds]
  split_ifs with hhead hcounts
  · simp [hhead]
  · simp [hcounts]
  · rw [← not_or, not_not] at hhead
    simp [hhead, hcounts]

/-! ### Broken nesting -/

/-- A text without the spaces around it. -/
def trimSpaces (text : List UInt8) : List UInt8 := (text.dropWhile isSpace).rdropWhile isSpace

/-- Strings are closed, brackets match, and the value that begins with the first byte ends with the last one. -/
structure IsNested (text : List UInt8) : Prop where
  opens : text.head? = some 123 ∨ text.head? = some 91
  strings : text.foldl Quoting.read .outside = .outside
  matched : Fence.Matched (fences text)
  oneValue : ∀ n, 0 < n → n < text.length → 0 < Fence.depth (fences (text.take n))

/-- What the counters would have to show in addition: the text ends outside of strings, the sum of the counters is
positive all along, and they are level over every part over which their sum is. -/
structure CountsSuffice (text : List UInt8) : Prop where
  strings : (text.foldl validatorStep {}).inString = false
  positive : ∀ n, 0 < n → n < text.length → 0 < Fence.depth (countedFences (text.take n))
  closed : Fence.depth (countedFences text) = 0
  kinds : ∀ part, part <:+: countedFences text → Fence.Level part → ∀ kind, Fence.count kind part = 0

/-- Spaces have no brackets in them. -/
theorem countedFences_spaces (s : ValidatorState) {spaces : List UInt8} (h : ∀ b ∈ spaces, isSpace b = true) :
    fencesOutside validatorStep ValidatorState.inString s spaces = [] := by
  induction spaces generalizing s with
  | nil => rfl
  | cons b spaces ih =>
    rw [List.forall_mem_cons] at h
    have hnone : fenceOf b = none := by
      have hall : ∀ c ∈ [123, 125, 91, 93], isSpace c = false := List.all_iff_forall_prop.mp (by decide)
      have hne : ∀ c ∈ [123, 125, 91, 93], b ≠ c := by
        rintro c hc rfl
        exact absurd (h.1.symm.trans (hall b hc)) (by decide)
      simp [fenceOf, hne]
    rw [fencesOutside, ih _ h.2, hnone, Option.toList_none, ite_self, List.append_nil]

/-- The text that the validator reads is the trimmed one and spaces. -/
theorem exists_spaces (text : List UInt8) :
    ∃ spaces, (∀ b ∈ spaces, isSpace b = true) ∧ text.dropWhile isSpace = trimSpaces text ++ spaces := by
  refine ⟨(text.dropWhile isSpace).rtakeWhile isSpace, fun b hb => List.mem_rtakeWhile_imp hb, ?_⟩
  rw [trimSpaces, List.rdropWhile, List.rtakeWhile, ← List.reverse_append, List.takeWhile_append_dropWhile,
    List.reverse_reverse]

/-- The validator accepts a text or refuses it whatever spaces are around it. -/
theorem valid_iff_trimSpaces (jsonStr : List UInt8) :
    jsonValidateWellformed (some jsonStr) = .valid ↔
      let text := trimSpaces (cstr jsonStr)
      (text.head? = some 123 ∨ text.head? = some 91) ∧
        ∀ kind, Int32.ofInt (Fence.count kind (countedFences text)) = 0 := by
  obtain ⟨spaces, hspaces, htext⟩ := exists_spaces (cstr jsonStr)
  have hfences : countedFences ((cstr jsonStr).dropWhile isSpace) = countedFences (trimSpaces (cstr jsonStr)) := by
    rw [htext, countedFences, fencesOutside_append, countedFences_spaces _ hspaces, List.append_nil, countedFences]
  have hhead : ∀ b, isSpace b = false →
      (((cstr jsonStr).dropWhile isSpace).head? = some b ↔ (trimSpaces (cstr jsonStr)).head? = some b) := by
    intro b hb
    rw [htext]
    cases htrim : trimSpaces (cstr jsonStr) with
    | cons c text => rfl
    | nil =>
      -- Nothing is left only if all bytes are spaces.
      have hnone : spaces.head? ≠ some b := by
        intro heq
        exact absurd ((hspaces b (List.mem_of_mem_head? heq)).symm.trans hb) (by decide)
      simpa using hnone
  rw [jsonValidateWellformed_eq_valid_iff]
  dsimp only
  rw [hfences, hhead 123 (by decide), hhead 91 (by decide)]

/-- All along a text of which the counters say enough, the depth is not negative. -/
theorem CountsSuffice.level {text : List UInt8} (h : CountsSuffice text) : Fence.Level (countedFences text) where
  above n := by
    obtain ⟨m, hm⟩ := exists_take_fencesOutside validatorStep ValidatorState.inString {} text n
    rw [countedFences, hm]
    rcases Nat.eq_zero_or_pos m with rfl | hpos
    · exact le_rfl
    · by_cases hlt : m < text.length
      · exact (h.positive m hpos hlt).le
      · rw [List.take_of_length_le (Nat.le_of_not_lt hlt)]
        exact h.closed.ge
  closed := h.closed

/-! ### Required fields -/

/-- The object has the required members. -/
def HasFields (d : JsonDoc) : Prop :=
  (d.member? (ascii "task_type")).isSome = true ∧ (d.member? (ascii "file")).isSome = true

/-- The required names end names or strings of the document, at whatever depth. -/
def QuotesFields (d : JsonDoc) : Prop :=
  quotesName (ascii "task_type") d.quotedTexts = true ∧ quotesName (ascii "file") d.quotedTexts = true

theorem isKey_taskType : IsKey (ascii "task_type") :=
  ⟨by decide, by decide, 116, ascii "ask_type", by decide, by decide⟩

theorem isKey_file : IsKey (ascii "file") := ⟨by decide, by decide, 102, ascii "ile", by decide, by decide⟩

/-- A search for a field in the text of a document. -/
theorem jsonHasField_text {field : String} (hkey : IsKey (ascii field)) (hshort : (ascii field).length ≤ 253)
    (hd : d.isWellFormed = true) (hbefore : ∀ b ∈ before, isBlank b = true)
    (hafter : ∀ b ∈ after, isBlank b = true) :
    jsonHasField (before ++ (d.text ++ after)) field = quotesName (ascii field) d.quotedTexts := by
  have hbuffer : (34 :: (ascii field ++ [34])).take 255 = quotePattern (ascii field) [] := by
    refine List.take_of_length_le ?_
    simp only [List.length_cons, List.length_append, List.length_nil]
    omega
  have hblanks := contains_unquoted (ascii field) (quote_notMem_blanks hafter) []
  rw [List.append_nil] at hblanks
  rw [jsonHasField, cstr_text hd hbefore hafter, hbuffer, contains_unquoted _ (quote_notMem_blanks hbefore),
    (walk_contains hkey).text hd (ends_of_blanks hafter), hblanks]
  exact Bool.or_false _

/-- The two names, each with a value behind it. -/
def taskMembers (type file : String) : List (JsonMember JsonDoc) :=
  [⟨[], ascii type, [], [], .literal [48], []⟩, ⟨[], ascii file, [], [], .literal [48], []⟩]

/-- `{"a":"task_type","b":"file"}`. -/
def namesAsValues : JsonDoc :=
  .object [] [⟨[], ascii "a", [], [], .string (ascii "task_type"), []⟩,
    ⟨[], ascii "b", [], [], .string (ascii "file"), []⟩]

/-- `{"\u0074ask_type":0,"file":0}`. -/
def escapedName : JsonDoc := .object [] (taskMembers "\\u0074ask_type" "file")

end CGateway
