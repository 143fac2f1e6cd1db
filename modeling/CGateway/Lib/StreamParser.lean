import Mathlib.Data.List.Basic

/-! # Parsing a stream that arrives in pieces

A parser of a stream of items looks at the bytes at hand and waits for more, delivers an item and goes
on behind it, or rejects the stream for good. Its decisions must not change when more bytes arrive
(`deliver_stable`, `reject_stable`). Then cutting the stream into pieces has no influence:

* `parse` — the whole stream at once;
* `feed` — a further piece, on top of what the pieces so far have given;
* `feed_parse` — feeding a piece is parsing the longer stream;
* `Reads`, `parse_take_encoded` — a stream of encoded items that is cut off anywhere. -/

namespace StreamParser

universe u v

/-- What a parser does with the bytes at hand. -/
inductive Step (α : Type u) (β : Type v) where
  /-- More input is needed. -/
  | wait
  /-- The stream is malformed. -/
  | reject
  /-- An item, and the input behind it. -/
  | deliver (item : β) (rest : List α)

/-- The decision of a reader that gives an item and the input behind it, or nothing for lack of input. -/
def Step.ofOption {α : Type u} {β : Type v} : Option (β × List α) → Step α β
  | none => .wait
  | some (item, rest) => .deliver item rest

/-- What such a reader delivers. -/
theorem Step.ofOption_eq_deliver {α : Type u} {β : Type v} {read : Option (β × List α)} {item : β}
    {rest : List α} : Step.ofOption read = .deliver item rest ↔ read = some (item, rest) := by
  cases read with
  | none => exact ⟨nofun, nofun⟩
  | some found =>
    rw [Step.ofOption, Step.deliver.injEq, Option.some.injEq, Prod.ext_iff]

/-- When it waits. -/
theorem Step.ofOption_eq_wait {α : Type u} {β : Type v} {read : Option (β × List α)} :
    Step.ofOption read = .wait ↔ read = none := by
  cases read with
  | none => exact ⟨fun _ => rfl, fun _ => rfl⟩
  | some found => exact ⟨nofun, nofun⟩

/-- It rejects nothing. -/
theorem Step.ofOption_ne_reject {α : Type u} {β : Type v} (read : Option (β × List α)) :
    Step.ofOption read ≠ .reject := by
  cases read <;> exact nofun

/-- A parser: its decision on the input at hand, which further input does not change. -/
structure Parser (α : Type u) (β : Type v) where
  /-- The decision. -/
  step : List α → Step α β
  /-- An item takes at least one unit of input. -/
  deliver_shorter : ∀ {xs item rest}, step xs = .deliver item rest → rest.length < xs.length
  /-- An item stays the same when more input arrives. -/
  deliver_stable : ∀ {xs item rest} (ys : List α), step xs = .deliver item rest →
    step (xs ++ ys) = .deliver item (rest ++ ys)
  /-- A rejected stream stays rejected. -/
  reject_stable : ∀ {xs} (ys : List α), step xs = .reject → step (xs ++ ys) = .reject

/-- How a parser stands after some input. -/
inductive Status (α : Type u) where
  /-- It waits for more, and the input not yet consumed is kept. -/
  | waiting (rest : List α)
  /-- The stream was rejected. -/
  | rejected
  deriving DecidableEq, Repr

/-- The items delivered so far, in order, and how the parser stands. -/
structure Outcome (α : Type u) (β : Type v) where
  items : List β
  status : Status α
  deriving DecidableEq, Repr

/-- An outcome with items delivered before it. -/
def Outcome.after {α : Type u} {β : Type v} (earlier : List β) (o : Outcome α β) : Outcome α β :=
  ⟨earlier ++ o.items, o.status⟩

variable {α : Type u} {β : Type v} (p : Parser α β)

/-- At most `fuel` decisions on the input. -/
def parseFuel : ℕ → List α → Outcome α β
  | 0, xs => ⟨[], .waiting xs⟩
  | fuel + 1, xs =>
      match p.step xs with
      | .wait => ⟨[], .waiting xs⟩
      | .reject => ⟨[], .rejected⟩
      | .deliver item rest => (parseFuel fuel rest).after [item]

/-- Parse the input as far as it goes: no input needs more decisions than it is long. -/
def parse (xs : List α) : Outcome α β := parseFuel p (xs.length + 1) xs

/-- More fuel than the input is long makes no difference. -/
theorem parseFuel_eq_parse (fuel : ℕ) (xs : List α) (h : xs.length < fuel) : parseFuel p fuel xs = parse p xs := by
  suffices key : ∀ (a b : ℕ) (xs : List α), xs.length < a → xs.length < b →
      parseFuel p a xs = parseFuel p b xs from key _ _ xs h (Nat.lt_succ_self _)
  intro a
  induction a with
  | zero => exact fun _ _ h => absurd h (Nat.not_lt_zero _)
  | succ a ih =>
    intro b xs ha hb
    obtain ⟨b, rfl⟩ := Nat.exists_eq_succ_of_ne_zero (Nat.ne_zero_of_lt hb)
    rw [parseFuel, parseFuel]
    cases hstep : p.step xs with
    | wait => rfl
    | reject => rfl
    | deliver item rest =>
      have hshort := p.deliver_shorter hstep
      show (parseFuel p a rest).after [item] = (parseFuel p b rest).after [item]
      rw [ih b rest (by omega) (by omega)]

section Unfolding

variable {p} {xs : List α}

/-- Parsing input that is too short. -/
theorem parse_of_wait (h : p.step xs = .wait) : parse p xs = ⟨[], .waiting xs⟩ := by
  rw [parse, parseFuel, h]

/-- Parsing malformed input. -/
theorem parse_of_reject (h : p.step xs = .reject) : parse p xs = ⟨[], .rejected⟩ := by
  rw [parse, parseFuel, h]

/-- Parsing input that begins with an item. -/
theorem parse_of_deliver {item : β} {rest : List α} (h : p.step xs = .deliver item rest) :
    parse p xs = (parse p rest).after [item] := by
  rw [parse, parseFuel, h]
  show (parseFuel p xs.length rest).after [item] = _
  rw [parseFuel_eq_parse p _ _ (p.deliver_shorter h)]

/-- Induction along the decisions of the parser. -/
theorem parse_induction {P : List α → Prop} (wait : ∀ xs, p.step xs = .wait → P xs)
    (reject : ∀ xs, p.step xs = .reject → P xs)
    (deliver : ∀ xs item rest, p.step xs = .deliver item rest → P rest → P xs) (xs : List α) : P xs := by
  generalize hn : xs.length = n
  induction n using Nat.strongRecOn generalizing xs with
  | _ n ih =>
    cases hstep : p.step xs with
    | wait => exact wait xs hstep
    | reject => exact reject xs hstep
    | deliver item rest =>
      have hshort := p.deliver_shorter hstep
      exact deliver xs item rest hstep (ih _ (by omega) rest rfl)

end Unfolding

@[simp] theorem Outcome.after_items (earlier : List β) (o : Outcome α β) :
    (o.after earlier).items = earlier ++ o.items := rfl

@[simp] theorem Outcome.after_status (earlier : List β) (o : Outcome α β) : (o.after earlier).status = o.status := rfl

/-- A further piece of the stream, on top of an outcome. -/
def feed (o : Outcome α β) (ys : List α) : Outcome α β :=
  match o.status with
  | .waiting rest => (parse p (rest ++ ys)).after o.items
  | .rejected => o

/-- Feeding keeps what was delivered before. -/
theorem feed_after (earlier : List β) (o : Outcome α β) (ys : List α) :
    feed p (o.after earlier) ys = (feed p o ys).after earlier := by
  obtain ⟨items, status⟩ := o
  cases status with
  | waiting rest => simp [feed, Outcome.after]
  | rejected => rfl

/-- **Cutting makes no difference.** Feeding a piece to the outcome of a stream gives the outcome of
the longer stream. -/
theorem feed_parse (xs ys : List α) : feed p (parse p xs) ys = parse p (xs ++ ys) := by
  induction xs using parse_induction (p := p) with
  | wait xs h => rw [parse_of_wait h]; rfl
  | reject xs h => rw [parse_of_reject h, parse_of_reject (p.reject_stable ys h)]; rfl
  | deliver xs item rest h ih =>
    rw [parse_of_deliver h, feed_after, ih, parse_of_deliver (p.deliver_stable ys h)]

/-- What comes behind a rejected stream has no influence. -/
theorem parse_append_of_rejected {xs : List α} (h : (parse p xs).status = .rejected)
    (ys : List α) : parse p (xs ++ ys) = parse p xs := by
  rw [← feed_parse, feed, h]

/-- A stream that waits with `rest` goes on as `rest` does. -/
theorem parse_append_of_waiting {xs rest : List α} (h : (parse p xs).status = .waiting rest)
    (ys : List α) : parse p (xs ++ ys) = (parse p (rest ++ ys)).after (parse p xs).items := by
  rw [← feed_parse, feed, h]

/-- What a parser keeps is input it waits on. -/
theorem step_of_waiting {xs rest : List α} (h : (parse p xs).status = .waiting rest) : p.step rest = .wait := by
  induction xs using parse_induction (p := p) with
  | wait xs hw =>
    rw [parse_of_wait hw, Status.waiting.injEq] at h
    rwa [← h]
  | reject xs hr => rw [parse_of_reject hr] at h; cases h
  | deliver xs item rest' hd ih =>
    rw [parse_of_deliver hd, Outcome.after_status] at h
    exact ih h

/-! ### Encoded streams -/

/-- The parser reads an encoding back: it delivers an encoded item, whatever follows. -/
def Reads (encode : β → List α) (good : β → Prop) : Prop :=
  ∀ item, good item → ∀ rest, p.step (encode item ++ rest) = .deliver item rest

/-- The items of a stream that lie wholly within its first `k` units. -/
def wholeIn (encode : β → List α) : ℕ → List β → List β
  | _, [] => []
  | k, item :: items =>
      if (encode item).length ≤ k then item :: wholeIn encode (k - (encode item).length) items
      else []

variable {p} {encode : β → List α} {good : β → Prop}

/-- A part of an encoded item is waited on: every other decision would be one on the whole item. -/
theorem Reads.wait (h : Reads p encode good) {item : β} (hitem : good item) {k : ℕ}
    (hk : k < (encode item).length) : p.step ((encode item).take k) = .wait := by
  have hwhole := h item hitem []
  rw [List.append_nil] at hwhole
  cases hstep : p.step ((encode item).take k) with
  | wait => rfl
  | reject =>
    have hstable := p.reject_stable ((encode item).drop k) hstep
    rw [List.take_append_drop, hwhole] at hstable
    cases hstable
  | deliver other rest =>
    have hstable := p.deliver_stable ((encode item).drop k) hstep
    rw [List.take_append_drop, hwhole] at hstable
    have hrest := congrArg List.length (Step.deliver.inj hstable).2
    rw [List.length_nil, List.length_append, List.length_drop] at hrest
    omega

/-- Nothing is delivered from an empty stream. -/
theorem parse_nil_items : (parse p []).items = [] := by
  cases hstep : p.step [] with
  | wait => rw [parse_of_wait hstep]
  | reject => rw [parse_of_reject hstep]
  | deliver item rest => exact absurd (p.deliver_shorter hstep) (Nat.not_lt_zero _)

/-- **A stream that is cut off.** Of encoded items, the parser delivers those that lie wholly before the
cut. -/
theorem parse_take_encoded (h : Reads p encode good) {items : List β} (hgood : ∀ item ∈ items, good item) (k : ℕ) :
    (parse p ((items.flatMap encode).take k)).items = wholeIn encode k items := by
  induction items generalizing k with
  | nil => rw [List.flatMap_nil, List.take_nil, parse_nil_items, wholeIn]
  | cons item items ih =>
    rw [List.forall_mem_cons] at hgood
    rw [List.flatMap_cons, wholeIn]
    by_cases hwhole : (encode item).length ≤ k
    · rw [if_pos hwhole, List.take_append, List.take_of_length_le hwhole,
        parse_of_deliver (h item hgood.1 _), Outcome.after_items, ih hgood.2]
      rfl
    · have hcut := Nat.not_le.mp hwhole
      rw [if_neg hwhole, List.take_append_of_le_length (Nat.le_of_lt hcut), parse_of_wait (h.wait hgood.1 hcut)]

/-- A stream that is as long as its items holds them all. -/
theorem wholeIn_of_le (encode : β → List α) {items : List β} {k : ℕ}
    (h : (items.flatMap encode).length ≤ k) : wholeIn encode k items = items := by
  induction items generalizing k with
  | nil => rfl
  | cons item items ih =>
    rw [List.flatMap_cons, List.length_append] at h
    rw [wholeIn, if_pos (by omega), ih (by omega)]

/-- A whole stream of encoded items. -/
theorem parse_whole_encoded (h : Reads p encode good) {items : List β}
    (hgood : ∀ item ∈ items, good item) : (parse p (items.flatMap encode)).items = items := by
  have hcut := parse_take_encoded h hgood (items.flatMap encode).length
  rw [List.take_length, wholeIn_of_le encode (Nat.le_refl _)] at hcut
  exact hcut

end StreamParser
