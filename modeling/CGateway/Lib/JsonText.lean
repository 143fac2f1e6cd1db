import Mathlib.Data.List.Basic
import CGateway.Lib.Bytes
import CGateway.Lib.Utf8

/-! # JSON texts

A pushdown machine that reads a JSON text byte by byte. What it does on a byte depends on its mode alone
(`Mode.move`), and what becomes of that depends on the arrays and objects it is in (`Move.apply`). So a value
is read in the same way at the outside and within an object, up to the byte that ends it there.

* `Mode`, `Move`, `Scan` — the machine;
* `IsText` — a JSON text: one value, with blanks around it, in well-formed UTF-8;
* `topLevel` — the names and the values of the members of an object, as they stand in its text;
* `members` — the same in pairs;
* `topLevel_embed_iff`, `members_embed_iff` — a text in the place of the last value of an object is this value
  if and only if it is a JSON text. -/

namespace JsonText

open Bytes

/-! ### The machine -/

/-- What a value may be in. -/
inductive Container where
  | object
  | array
  deriving DecidableEq, Repr

/-- Where the machine is within a value. -/
inductive Mode where
  /-- In front of a value. -/
  | value
  /-- Behind an opening bracket. -/
  | item
  /-- Behind an opening brace. -/
  | firstName
  /-- Behind a comma in an object. -/
  | name
  /-- In a string, which may be a name. -/
  | text (isName : Bool)
  /-- Behind a backslash. -/
  | escape (isName : Bool)
  /-- In the digits of an escape, with so many to come behind the next one. -/
  | hex (isName : Bool) (left : ℕ)
  /-- Behind a name. -/
  | colon
  /-- Behind a value. -/
  | after
  /-- In one of the three words, with these letters to come. -/
  | word (rest : List UInt8)
  /-- Behind the sign of a number. -/
  | minus
  /-- Behind a leading zero. -/
  | zero
  /-- In the digits of an integer. -/
  | int
  /-- Behind the point. -/
  | point
  /-- In the digits of a fraction. -/
  | frac
  /-- Behind the letter of an exponent. -/
  | exp
  /-- Behind the sign of an exponent. -/
  | expSign
  /-- In the digits of an exponent. -/
  | expInt
  deriving DecidableEq, Repr

/-- A value may end here. -/
def Mode.ends : Mode → Bool
  | .after | .zero | .int | .frac | .expInt => true
  | _ => false

/-- What the machine does on a byte. -/
inductive Move where
  | stay (mode : Mode)
  | push (container : Container) (mode : Mode)
  | close (container : Container)
  | comma
  | colon
  | fail
  deriving DecidableEq, Repr

def isBlank (b : UInt8) : Bool := b == 32 || b == 9 || b == 10 || b == 13

variable {b : UInt8} {mode mode' : Mode} {stack : List Container} {state : Mode × List Container}
  {text head first : List UInt8} {s s' : Scan} {pieces : List (List UInt8)}

theorem isBlank_iff : isBlank b = true ↔ b = 32 ∨ b = 9 ∨ b = 10 ∨ b = 13 := by
  simp [isBlank, or_assoc]

def isDigit (b : UInt8) : Bool := 48 ≤ b && b ≤ 57

def isHex (b : UInt8) : Bool := isDigit b || (65 ≤ b && b ≤ 70) || (97 ≤ b && b ≤ 102)

def isExp (b : UInt8) : Bool := b == 101 || b == 69

/-- The first byte of a value. -/
def opening (b : UInt8) : Move :=
  if b = 123 then .push .object .firstName
  else if b = 91 then .push .array .item
  else if b = 34 then .stay (.text false)
  else if b = 45 then .stay .minus
  else if b = 48 then .stay .zero
  else if isDigit b then .stay .int
  else if b = 116 then .stay (.word (ascii "rue"))
  else if b = 102 then .stay (.word (ascii "alse"))
  else if b = 110 then .stay (.word (ascii "ull"))
  else .fail

/-- A byte behind a value. -/
def ending (b : UInt8) : Move :=
  if isBlank b then .stay .after
  else if b = 44 then .comma
  else if b = 125 then .close .object
  else if b = 93 then .close .array
  else .fail

/-- One byte in one mode. -/
def Mode.move : Mode → UInt8 → Move
  | .value, b => if isBlank b then .stay .value else opening b
  | .item, b => if isBlank b then .stay .item else if b = 93 then .close .array else opening b
  | .firstName, b =>
      if isBlank b then .stay .firstName
      else if b = 34 then .stay (.text true)
      else if b = 125 then .close .object
      else .fail
  | .name, b => if isBlank b then .stay .name else if b = 34 then .stay (.text true) else .fail
  | .text isName, b =>
      if b = 34 then .stay (if isName then .colon else .after)
      else if b = 92 then .stay (.escape isName)
      else if b < 32 then .fail
      else .stay (.text isName)
  | .escape isName, b =>
      if b ∈ ascii "\"\\/bfnrt" then .stay (.text isName)
      else if b = 117 then .stay (.hex isName 3)
      else .fail
  | .hex isName left, b =>
      if isHex b then .stay (if left = 0 then .text isName else .hex isName (left - 1)) else .fail
  | .colon, b => if isBlank b then .stay .colon else if b = 58 then .colon else .fail
  | .after, b => ending b
  | .word [], _ => .fail
  | .word (c :: rest), b => if b = c then .stay (if rest = [] then .after else .word rest) else .fail
  | .minus, b => if b = 48 then .stay .zero else if isDigit b then .stay .int else .fail
  | .zero, b => if b = 46 then .stay .point else if isExp b then .stay .exp else ending b
  | .int, b =>
      if isDigit b then .stay .int
      else if b = 46 then .stay .point
      else if isExp b then .stay .exp
      else ending b
  | .point, b => if isDigit b then .stay .frac else .fail
  | .frac, b => if isDigit b then .stay .frac else if isExp b then .stay .exp else ending b
  | .exp, b =>
      if b = 43 ∨ b = 45 then .stay .expSign else if isDigit b then .stay .expInt else .fail
  | .expSign, b => if isDigit b then .stay .expInt else .fail
  | .expInt, b => if isDigit b then .stay .expInt else ending b

/-- A move in these containers, the innermost first. -/
def Move.apply : Move → List Container → Option (Mode × List Container)
  | .stay mode, stack => some (mode, stack)
  | .push container mode, stack => some (mode, container :: stack)
  | .close container, top :: stack => if container = top then some (.after, stack) else none
  | .comma, .object :: stack => some (.name, .object :: stack)
  | .comma, .array :: stack => some (.value, .array :: stack)
  | .colon, .object :: stack => some (.value, .object :: stack)
  | _, _ => none

/-- The machine on a whole text. -/
def run (state : Mode × List Container) (text : List UInt8) : Option (Mode × List Container) :=
  text.foldlM (fun state b => (state.1.move b).apply state.2) state

/-- The text is one value, with blanks around it. -/
def accepts (text : List UInt8) : Bool :=
  (run (.value, []) text).any fun state => state.1.ends && state.2 == []

/-- A JSON text. -/
def IsText (text : List UInt8) : Prop := Utf8.valid text = true ∧ accepts text = true

instance (text : List UInt8) : Decidable (IsText text) := inferInstanceAs (Decidable (_ ∧ _))

/-! ### The members of an object -/

/-- The move begins a member of the outermost object, or its value, or ends the object. -/
def Move.cuts : Move → List Container → Bool
  | .push .object _, [] => true
  | .comma, [.object] => true
  | .colon, [.object] => true
  | .close .object, [.object] => true
  | _, _ => false

/-- The machine with the text since the last cut, and the texts between the cuts before. -/
structure Scan where
  mode : Mode := .value
  stack : List Container := []
  piece : List UInt8 := []
  pieces : List (List UInt8) := []
  deriving DecidableEq, Repr

/-- One byte. -/
def Scan.read (s : Scan) (b : UInt8) : Option Scan :=
  ((s.mode.move b).apply s.stack).map fun state =>
    if (s.mode.move b).cuts s.stack then ⟨state.1, state.2, [], s.pieces ++ [s.piece]⟩
    else ⟨state.1, state.2, s.piece ++ [b], s.pieces⟩

/-- The names and the values in an object, in turn, as they stand in its text. An empty object has one piece,
the blanks in it. -/
def topLevel (text : List UInt8) : Option (List (List UInt8)) :=
  (text.foldlM Scan.read {}).bind fun s =>
    if Utf8.valid text ∧ s.mode.ends ∧ s.stack = [] ∧ s.pieces ≠ [] then some s.pieces.tail else none

/-- The elements two by two. -/
def pairs {α : Type} : List α → Option (List (α × α))
  | [] => some []
  | [_] => none
  | a :: b :: rest => (pairs rest).map ((a, b) :: ·)

/-- The members of an object: each name with its value. -/
def members (text : List UInt8) : Option (List (List UInt8 × List UInt8)) :=
  (topLevel text).bind fun pieces => if pieces.length = 1 then some [] else pairs pieces

/-! ### Moves -/

section Moves

variable {move : Move} {mode : Mode} {stack stack' : List Container}

/-- `Move.apply`, by what becomes of the containers. -/
inductive Move.Leads : Move → List Container → Mode × List Container → Prop
  | stay (mode : Mode) (stack : List Container) : Leads (.stay mode) stack (mode, stack)
  | push (container : Container) (mode : Mode) (stack : List Container) :
      Leads (.push container mode) stack (mode, container :: stack)
  | close (container : Container) (stack : List Container) :
      Leads (.close container) (container :: stack) (.after, stack)
  | nextName (stack : List Container) : Leads .comma (.object :: stack) (.name, .object :: stack)
  | nextItem (stack : List Container) : Leads .comma (.array :: stack) (.value, .array :: stack)
  | colon (stack : List Container) : Leads .colon (.object :: stack) (.value, .object :: stack)

theorem leads_of_apply {state : Mode × List Container} (h : move.apply stack = some state) :
    move.Leads stack state := by
  cases move with
  | stay mode =>
    obtain rfl := Option.some.inj h
    exact .stay mode stack
  | push container mode =>
    obtain rfl := Option.some.inj h
    exact .push container mode stack
  | fail => cases h
  | close container =>
    cases stack with
    | nil => cases h
    | cons top stack =>
      rw [Move.apply] at h
      split at h
      · next heq =>
          subst heq
          obtain rfl := Option.some.inj h
          exact .close container stack
      · cases h
  | comma =>
    cases stack with
    | nil => cases h
    | cons top stack =>
      cases top with
      | object =>
        obtain rfl := Option.some.inj h
        exact .nextName stack
      | array =>
        obtain rfl := Option.some.inj h
        exact .nextItem stack
  | colon =>
    cases stack with
    | nil => cases h
    | cons top stack =>
      cases top with
      | object =>
        obtain rfl := Option.some.inj h
        exact .colon stack
      | array => cases h

/-- What can be done in some containers can be done in more. -/
theorem apply_append (h : move.apply stack = some (mode, stack')) (base : List Container) :
    move.apply (stack ++ base) = some (mode, stack' ++ base) := by
  cases leads_of_apply h with
  | close container => exact if_pos rfl
  | _ => rfl

/-- What cannot be done alone can be done within an object only where it cuts. -/
theorem cuts_of_apply_none (h : move.apply stack = none) (houter : move.apply (stack ++ [.object]) ≠ none) :
    stack = [] ∧ move.cuts (stack ++ [.object]) = true := by
  cases stack with
  | nil =>
    cases move with
    | stay mode => cases h
    | push container mode => cases h
    | fail => exact absurd rfl houter
    | close container =>
      cases container with
      | object => exact ⟨rfl, rfl⟩
      | array => exact absurd rfl houter
    | comma => exact ⟨rfl, rfl⟩
    | colon => exact ⟨rfl, rfl⟩
  | cons top stack =>
    exfalso
    cases move with
    | stay mode => cases h
    | push container mode => cases h
    | fail => exact houter rfl
    | close container =>
      simp only [Move.apply, List.cons_append] at h houter
      split at h
      · cases h
      · next hne => exact houter (if_neg hne)
    | comma => cases top <;> cases h
    | colon =>
      cases top with
      | object => cases h
      | array => exact houter rfl

/-- There are no cuts further in. -/
theorem not_cuts_of_cons (move : Move) (top : Container) (stack : List Container) :
    move.cuts (top :: stack ++ [.object]) = false := by
  obtain ⟨c, rest, hrest⟩ : ∃ c rest, stack ++ [Container.object] = c :: rest := by
    cases stack with
    | nil => exact ⟨_, _, rfl⟩
    | cons c rest => exact ⟨_, _, rfl⟩
  rw [List.cons_append, hrest]
  cases move with
  | push container mode => cases container <;> rfl
  | close container => cases container <;> cases top <;> rfl
  | comma => cases top <;> rfl
  | colon => cases top <;> rfl
  | _ => rfl

/-- Cuts within an object are its commas, its colons and its end. -/
theorem cuts_append (h : move.cuts (stack ++ [.object]) = true) :
    stack = [] ∧ (move = .comma ∨ move = .colon ∨ move = .close .object) := by
  cases stack with
  | nil =>
    refine ⟨rfl, ?_⟩
    cases move with
    | comma => exact .inl rfl
    | colon => exact .inr (.inl rfl)
    | close container =>
      cases container with
      | object => exact .inr (.inr rfl)
      | array => cases h
    | stay mode => cases h
    | push container mode => cases container <;> cases h
    | fail => cases h
  | cons top stack =>
    rw [not_cuts_of_cons] at h
    cases h

/-- What can be done alone does not cut within an object. -/
theorem not_cuts_of_apply (h : move.apply stack = some (mode, stack')) : move.cuts (stack ++ [.object]) = false := by
  rw [← Bool.not_eq_true]
  intro hcuts
  obtain ⟨rfl, rfl | rfl | rfl⟩ := cuts_append hcuts <;> cases h

/-- Without a cut, the outermost object is not left. -/
theorem bottom_of_not_cuts (h : move.apply (stack ++ [.object]) = some (mode, stack'))
    (hcuts : move.cuts (stack ++ [.object]) = false) : ∃ inner, stack' = inner ++ [.object] := by
  cases hinner : move.apply stack with
  | some state =>
    have hsame := (apply_append hinner [.object]).symm.trans h
    exact ⟨state.2, (Prod.mk.inj (Option.some.inj hsame)).2.symm⟩
  | none =>
    have hcut := (cuts_of_apply_none hinner (by rw [h]; nofun)).2
    rw [hcuts] at hcut
    cases hcut

end Moves

/-! ### Closing braces -/

/-- A brace closes an object behind a value, or right behind the opening brace. -/
theorem move_brace (h : mode.move 125 = .close .object) : mode.ends = true ∨ mode = .firstName := by
  cases mode with
  | text isName => cases isName <;> exact absurd h (by decide)
  | escape isName => exact absurd h (by cases isName <;> decide)
  | hex isName left => exact absurd h nofun
  | word rest =>
    cases rest with
    | nil => cases h
    | cons c rest =>
      rw [Mode.move] at h
      split at h <;> cases h
  | firstName => exact .inr rfl
  | after => exact .inl rfl
  | zero => exact .inl rfl
  | int => exact .inl rfl
  | frac => exact .inl rfl
  | expInt => exact .inl rfl
  | _ => exact absurd h (by decide)

/-- Behind a value a brace closes an object. -/
theorem move_brace_of_ends (h : mode.ends = true) : mode.move 125 = .close .object := by
  cases mode <;> first | rfl | cases h

/-- The mode behind an opening brace is entered there only. -/
theorem move_firstName (h : mode.move b = .stay .firstName) : mode = .firstName := by
  have hopening : opening b ≠ .stay .firstName := by
    unfold opening
    repeat' refine iteInduction (motive := (· ≠ Move.stay Mode.firstName)) (fun _ => ?_) fun _ => ?_
    all_goals nofun
  have hending : ending b ≠ .stay .firstName := by
    unfold ending
    split_ifs <;> nofun
  revert h
  cases mode with
  | firstName => exact fun _ => rfl
  | word rest =>
    cases rest with
    | nil => nofun
    | cons c rest =>
      rw [Mode.move]
      split_ifs <;> nofun
  | after => exact fun h => absurd h hending
  | _ =>
    rw [Mode.move]
    split_ifs <;> first | exact fun h => absurd h hopening | exact fun h => absurd h hending | nofun

/-- So it comes with an object. -/
theorem apply_firstName {stack' : List Container} (h : (mode.move b).apply stack = some (.firstName, stack'))
    (hfirst : mode = .firstName → stack ≠ []) : stack' ≠ [] := by
  generalize hmove : mode.move b = move at h
  cases leads_of_apply h with
  | stay => exact hfirst (move_firstName hmove)
  | push => exact List.cons_ne_nil _ _

/-! ### NUL bytes -/

/-- No NUL is to come in a word. -/
def Mode.Letters : Mode → Prop
  | .word rest => 0 ∉ rest
  | _ => True

/-- Nor in the mode a move leads to. -/
def Move.Letters : Move → Prop
  | .stay mode => mode.Letters
  | .push _ mode => mode.Letters
  | _ => True

theorem letters_opening (b : UInt8) : (opening b).Letters := by
  unfold opening
  repeat' refine iteInduction (motive := Move.Letters) (fun _ => ?_) fun _ => ?_
  all_goals first | exact trivial | exact show (0 : UInt8) ∉ ascii _ by decide

theorem letters_ending (b : UInt8) : (ending b).Letters := by
  unfold ending
  split_ifs <;> exact trivial

theorem letters_move (hletters : mode.Letters) (b : UInt8) : (mode.move b).Letters := by
  cases mode with
  | text isName =>
    rw [Mode.move]
    cases isName <;> split_ifs <;> trivial
  | word rest =>
    cases rest with
    | nil => exact trivial
    | cons c rest =>
      rw [Mode.move]
      split_ifs
      · exact trivial
      · exact fun hmem => hletters (List.mem_cons_of_mem c hmem)
      · exact trivial
  | after => exact letters_ending b
  | _ =>
    rw [Mode.move]
    split_ifs <;> first | exact trivial | exact letters_opening b | exact letters_ending b

theorem letters_apply {move : Move} (hletters : move.Letters) (h : move.apply stack = some state) :
    state.1.Letters := by
  cases leads_of_apply h with
  | stay => exact hletters
  | push => exact hletters
  | _ => exact trivial

theorem move_zero (hletters : mode.Letters) : mode.move 0 = .fail := by
  cases mode with
  | word rest =>
    cases rest with
    | nil => rfl
    | cons c rest =>
      rw [Mode.move, if_neg]
      rintro rfl
      exact hletters List.mem_cons_self
  | _ => rfl

/-- What is read has no NUL. -/
theorem zero_notMem_of_run {state' : Mode × List Container} (hletters : state.1.Letters)
    (h : run state text = some state') : 0 ∉ text := by
  induction text generalizing state with
  | nil => exact List.not_mem_nil
  | cons b text ih =>
    rw [run, List.foldlM_cons] at h
    obtain ⟨state₁, happly, hrest⟩ := Option.bind_eq_some_iff.mp h
    have hb : b ≠ 0 := by
      rintro rfl
      rw [move_zero hletters] at happly
      cases happly
    have hletters₁ : state₁.1.Letters := letters_apply (letters_move hletters b) happly
    rw [List.mem_cons, not_or]
    exact ⟨hb.symm, ih hletters₁ hrest⟩

/-- A JSON text has no NUL. -/
theorem IsText.zero_notMem (h : IsText text) : 0 ∉ text := by
  obtain ⟨state, hrun, -⟩ := (Option.any_eq_true _ _).mp h.2
  have hletters : ((.value, []) : Mode × List Container).1.Letters := trivial
  exact zero_notMem_of_run hletters hrun

/-! ### Reading within an object -/

section Read

variable {mode : Mode} {stack : List Container} {state : Mode × List Container} {b : UInt8}
  {piece : List UInt8} {pieces : List (List UInt8)}

theorem read_of_cut (happly : (mode.move b).apply stack = some state) (hcuts : (mode.move b).cuts stack = true) :
    Scan.read ⟨mode, stack, piece, pieces⟩ b = some ⟨state.1, state.2, [], pieces ++ [piece]⟩ := by
  rw [Scan.read, happly, Option.map_some, if_pos hcuts]

theorem read_of_not_cut (happly : (mode.move b).apply stack = some state)
    (hcuts : (mode.move b).cuts stack = false) :
    Scan.read ⟨mode, stack, piece, pieces⟩ b = some ⟨state.1, state.2, piece ++ [b], pieces⟩ := by
  rw [Scan.read, happly, Option.map_some, if_neg (by rw [hcuts]; nofun)]

/-- What is read moves the machine, and cuts or does not. -/
theorem read_eq_some {s' : Scan} (h : Scan.read ⟨mode, stack, piece, pieces⟩ b = some s') :
    (mode.move b).apply stack = some (s'.mode, s'.stack) ∧
      ((mode.move b).cuts stack = true ∧ s'.piece = [] ∧ s'.pieces = pieces ++ [piece] ∨
        (mode.move b).cuts stack = false ∧ s'.piece = piece ++ [b] ∧ s'.pieces = pieces) := by
  obtain ⟨state, happly, rfl⟩ := Option.map_eq_some_iff.mp h
  cases hcuts : (mode.move b).cuts stack with
  | true =>
    dsimp only
    rw [if_pos rfl]
    exact ⟨happly, .inl ⟨rfl, rfl, rfl⟩⟩
  | false =>
    dsimp only
    rw [if_neg Bool.false_ne_true]
    exact ⟨happly, .inr ⟨rfl, rfl, rfl⟩⟩

end Read

/-- The texts between the cuts are kept. -/
theorem pieces_isPrefix (h : text.foldlM Scan.read s = some s') : s.pieces <+: s'.pieces := by
  induction text generalizing s with
  | nil =>
    obtain rfl := Option.some.inj h
    exact List.prefix_rfl
  | cons b text ih =>
    rw [List.foldlM_cons] at h
    obtain ⟨s₁, hread, hrest⟩ := Option.bind_eq_some_iff.mp h
    refine List.IsPrefix.trans ?_ (ih hrest)
    rcases (read_eq_some hread).2 with ⟨-, -, hpieces⟩ | ⟨-, -, hpieces⟩
    · rw [hpieces]
      exact List.prefix_append _ _
    · exact ⟨[], by rw [hpieces, List.append_nil]⟩

/-- Without a cut, the outermost object is not left. -/
theorem bottom_of_foldlM (h : text.foldlM Scan.read s = some s') (hcount : s'.pieces.length ≤ s.pieces.length)
    {inner : List Container} (hstack : s.stack = inner ++ [.object]) : ∃ inner', s'.stack = inner' ++ [.object] := by
  induction text generalizing s inner with
  | nil =>
    obtain rfl := Option.some.inj h
    exact ⟨inner, hstack⟩
  | cons b text ih =>
    rw [List.foldlM_cons] at h
    obtain ⟨s₁, hread, hrest⟩ := Option.bind_eq_some_iff.mp h
    have hle := (pieces_isPrefix hrest).length_le
    obtain ⟨happly, ⟨-, -, hpieces⟩ | ⟨hcuts, -, hpieces⟩⟩ := read_eq_some hread
    · rw [hpieces, List.length_append, List.length_singleton] at hle
      omega
    · rw [hstack] at happly hcuts
      obtain ⟨inner₁, hinner₁⟩ := bottom_of_not_cuts happly hcuts
      exact ih hrest (by rw [hpieces]; exact hcount) hinner₁

/-- Behind a whole value there are blanks only. -/
theorem blank_of_run (h : run (.after, []) text = some state) : ∀ b ∈ text, isBlank b = true := by
  induction text with
  | nil => exact fun b hb => absurd hb List.not_mem_nil
  | cons b text ih =>
    rw [run, List.foldlM_cons] at h
    obtain ⟨state₁, happly, hrest⟩ := Option.bind_eq_some_iff.mp h
    dsimp only at happly
    have hblank : isBlank b = true := by
      by_contra hother
      rw [Mode.move, ending, if_neg hother] at happly
      split_ifs at happly <;> cases happly
    rw [Mode.move, ending, if_pos hblank] at happly
    obtain rfl := Option.some.inj happly
    rw [List.forall_mem_cons]
    exact ⟨hblank, ih hrest⟩

/-- The scan moves as the machine does. -/
theorem run_of_foldlM (h : text.foldlM Scan.read s = some s') :
    run (s.mode, s.stack) text = some (s'.mode, s'.stack) := by
  induction text generalizing s with
  | nil =>
    obtain rfl := Option.some.inj h
    rfl
  | cons b text ih =>
    rw [List.foldlM_cons] at h
    obtain ⟨s₁, hread, hrest⟩ := Option.bind_eq_some_iff.mp h
    rw [run, List.foldlM_cons]
    dsimp only
    rw [(read_eq_some hread).1]
    exact ih hrest

/-- Where a value ends outside of all containers, the machine is behind it, if it has been in one. -/
theorem after_of_apply (hmode : stack = [] → mode = .after) (h : (mode.move b).apply stack = some (mode', [])) :
    mode' = .after := by
  generalize hmove : mode.move b = move at h
  cases leads_of_apply h with
  | stay =>
    -- Outside of all containers only a blank keeps the mode.
    rw [hmode rfl, Mode.move, ending] at hmove
    split_ifs at hmove
    cases hmove
    rfl
  | close container => rfl

theorem after_of_run (hmode : stack = [] → mode = .after) (h : run (mode, stack) text = some (mode', [])) :
    mode' = .after := by
  -- Along the text: wherever the stack is empty, the mode is the one behind a value.
  induction text generalizing mode stack with
  | nil =>
    obtain ⟨rfl, rfl⟩ := Prod.mk.inj (Option.some.inj h)
    exact hmode rfl
  | cons b text ih =>
    rw [run, List.foldlM_cons] at h
    obtain ⟨⟨mode₁, stack₁⟩, happly, hrest⟩ := Option.bind_eq_some_iff.mp h
    refine ih (fun hnil => ?_) hrest
    subst hnil
    exact after_of_apply hmode happly

/-- **The text of an object cannot be cut**: no proper beginning of it is a JSON text. -/
theorem not_accepts_of_cut {inner u v : List UInt8} (htext : u ++ v = 123 :: (inner ++ [125])) (hv : v ≠ [])
    (h : accepts (u ++ v) = true) : accepts u = false := by
  cases u with
  | nil => rfl
  | cons b u =>
    rw [List.cons_append, List.cons.injEq] at htext
    obtain ⟨rfl, hrest⟩ := htext
    by_contra haccepts
    rw [Bool.not_eq_false, accepts] at haccepts
    rw [accepts] at h
    obtain ⟨⟨mode, stack⟩, hrun, hends⟩ := (Option.any_eq_true _ _).mp haccepts
    obtain ⟨state, hwhole, -⟩ := (Option.any_eq_true _ _).mp h
    rw [Bool.and_eq_true, beq_iff_eq] at hends
    obtain ⟨-, rfl⟩ := hends
    -- Behind the cut, the machine is out of the object, and the closing brace is still to come.
    have hinside : run (.firstName, [.object]) u = some (mode, []) := hrun
    obtain rfl := after_of_run (fun hnil => by cases hnil) hinside
    rw [run, List.foldlM_append] at hwhole
    obtain ⟨state', hfirst, hlast⟩ := Option.bind_eq_some_iff.mp hwhole
    obtain rfl := Option.some.inj (hrun.symm.trans hfirst)
    have hbrace : 125 ∈ v := by
      refine List.mem_of_getLast? ?_
      have hend := congrArg List.getLast? hrest
      rw [List.getLast?_append_of_ne_nil _ hv, List.getLast?_concat] at hend
      exact hend
    exact absurd (blank_of_run hlast 125 hbrace) (by decide)

/-- Printable ASCII but the quotation mark and the backslash. -/
def IsPlain (b : UInt8) : Prop := 32 ≤ b ∧ b < 128 ∧ b ≠ 34 ∧ b ≠ 92

instance : DecidablePred IsPlain := fun _ => inferInstanceAs (Decidable (_ ∧ _))

/-- Such bytes stay in their string. -/
theorem foldlM_read_plain (hplain : ∀ b ∈ text, IsPlain b) (isName : Bool) (stack : List Container)
    (piece : List UInt8) (pieces : List (List UInt8)) :
    text.foldlM Scan.read ⟨.text isName, stack, piece, pieces⟩ = some ⟨.text isName, stack, piece ++ text, pieces⟩ := by
  induction text generalizing piece with
  | nil =>
    rw [List.append_nil]
    rfl
  | cons b text ih =>
    rw [List.forall_mem_cons] at hplain
    obtain ⟨⟨hspace, -, hquote, hbackslash⟩, hrest⟩ := hplain
    have hmove : Mode.move (.text isName) b = .stay (.text isName) := by
      rw [Mode.move, if_neg hquote, if_neg hbackslash, if_neg (UInt8.not_lt.mpr hspace)]
    have hread : Scan.read ⟨.text isName, stack, piece, pieces⟩ b =
        some ⟨.text isName, stack, piece ++ [b], pieces⟩ := by
      rw [Scan.read, hmove]
      rfl
    rw [List.foldlM_cons, hread]
    exact (ih hrest (piece ++ [b])).trans (by rw [List.append_assoc, List.singleton_append])

/-- The scan with this text in front of what it has read. -/
def Scan.behind (piece : List UInt8) (pieces : List (List UInt8)) (s : Scan) : Scan :=
  match s.pieces with
  | [] => ⟨s.mode, s.stack, piece ++ s.piece, pieces⟩
  | first :: rest => ⟨s.mode, s.stack, s.piece, pieces ++ (piece ++ first) :: rest⟩

/-- What was read before does not matter. -/
theorem read_behind (piece : List UInt8) (pieces : List (List UInt8)) (s : Scan) (b : UInt8) :
    (s.behind piece pieces).read b = (s.read b).map (Scan.behind piece pieces) := by
  obtain ⟨mode, stack, own, cut⟩ := s
  cases cut with
  | nil =>
    simp only [Scan.behind, Scan.read, Option.map_map]
    congr 1
    funext state
    by_cases hcuts : (mode.move b).cuts stack = true <;> simp [hcuts, Scan.behind]
  | cons first rest =>
    simp only [Scan.behind, Scan.read, Option.map_map]
    congr 1
    funext state
    by_cases hcuts : (mode.move b).cuts stack = true <;> simp [hcuts, Scan.behind]

theorem foldlM_read_behind (piece : List UInt8) (pieces : List (List UInt8)) (text : List UInt8) (s : Scan) :
    text.foldlM Scan.read (s.behind piece pieces) = (text.foldlM Scan.read s).map (Scan.behind piece pieces) := by
  induction text generalizing s with
  | nil => rfl
  | cons b text ih =>
    rw [List.foldlM_cons, List.foldlM_cons, read_behind]
    cases s.read b with
    | none => rfl
    | some s₁ => exact ih s₁

/-- **A value within an object** is read like one alone. -/
theorem foldlM_read_of_run {stack' : List Container} (h : run (mode, stack) text = some (mode', stack'))
    (piece : List UInt8) (pieces : List (List UInt8)) :
    text.foldlM Scan.read ⟨mode, stack ++ [.object], piece, pieces⟩ =
      some ⟨mode', stack' ++ [.object], piece ++ text, pieces⟩ := by
  induction text generalizing mode stack piece with
  | nil =>
    obtain ⟨rfl, rfl⟩ := Prod.mk.inj (Option.some.inj h)
    rw [List.append_nil]
    rfl
  | cons b text ih =>
    rw [run, List.foldlM_cons] at h
    obtain ⟨state, happly, hrest⟩ := Option.bind_eq_some_iff.mp h
    have hread : Scan.read ⟨mode, stack ++ [.object], piece, pieces⟩ b =
        some ⟨state.1, state.2 ++ [.object], piece ++ [b], pieces⟩ :=
      read_of_not_cut (apply_append happly [.object]) (not_cuts_of_apply happly)
    rw [List.foldlM_cons, hread]
    exact (ih hrest (piece ++ [b])).trans (by rw [List.append_assoc, List.singleton_append])

/-- A cut before the closing brace: the object is left too early, or there are more cuts to come. -/
theorem no_cut_before_brace (hcuts : (mode.move b).cuts (stack ++ [.object]) = true)
    (happly : (mode.move b).apply (stack ++ [.object]) = some (s.mode, s.stack))
    (hrest : (text ++ [125]).foldlM Scan.read s = some s') (hstack : s'.stack = [])
    (hnone : s'.pieces.length ≤ s.pieces.length) : False := by
  obtain ⟨rfl, hmove⟩ := cuts_append hcuts
  have hinside : s.stack = [] ++ [Container.object] → False := by
    intro hstack₁
    obtain ⟨inner, hinner⟩ := bottom_of_foldlM hrest hnone hstack₁
    rw [hstack] at hinner
    exact absurd hinner.symm (by simp)
  rcases hmove with hmove | hmove | hmove
  · rw [hmove] at happly
    exact hinside (Prod.mk.inj (Option.some.inj happly)).2.symm
  · rw [hmove] at happly
    exact hinside (Prod.mk.inj (Option.some.inj happly)).2.symm
  · rw [hmove] at happly
    obtain ⟨hmode₁, hstack₁⟩ := Prod.mk.inj (Option.some.inj happly)
    have hrun := run_of_foldlM hrest
    rw [← hmode₁, ← hstack₁] at hrun
    have hblank := blank_of_run hrun 125 (by simp)
    cases hblank

/-- **The last value of an object.** Where a text and a closing brace are read within an object, and nothing is
cut but at the brace, the text is read alone, too. -/
theorem run_of_foldlM_read (hfirst : mode = .firstName → stack ≠ []) {piece : List UInt8}
    (h : (text ++ [125]).foldlM Scan.read ⟨mode, stack ++ [Container.object], piece, pieces⟩ = some s')
    (hstack : s'.stack = []) (hcount : s'.pieces.length = pieces.length + 1) :
    (∃ mode', run (mode, stack) text = some (mode', []) ∧ mode'.ends = true) ∧
      s'.pieces = pieces ++ [piece ++ text] := by
  -- by induction on the text: the two machines go along until the first cut, which has to be the brace
  induction text generalizing mode stack piece with
  | nil =>
    rw [List.nil_append, List.foldlM_cons] at h
    obtain ⟨s₁, hread, hrest⟩ := Option.bind_eq_some_iff.mp h
    obtain rfl := Option.some.inj hrest
    obtain ⟨happly, ⟨hcuts, -, hpieces⟩ | ⟨hcuts, -, hpieces⟩⟩ := read_eq_some hread
    · obtain ⟨rfl, hmove⟩ := cuts_append hcuts
      rw [hstack] at happly
      rcases hmove with hmove | hmove | hmove
      · rw [hmove] at happly
        exact absurd (Prod.mk.inj (Option.some.inj happly)).2 (List.cons_ne_nil _ _)
      · rw [hmove] at happly
        exact absurd (Prod.mk.inj (Option.some.inj happly)).2 (List.cons_ne_nil _ _)
      · have hends := (move_brace hmove).resolve_right fun hname => hfirst hname rfl
        rw [List.append_nil]
        exact ⟨⟨mode, rfl, hends⟩, hpieces⟩
    · rw [hpieces] at hcount
      omega
  | cons b text ih =>
    rw [List.cons_append, List.foldlM_cons] at h
    obtain ⟨s₁, hread, hrest⟩ := Option.bind_eq_some_iff.mp h
    obtain ⟨happly, ⟨hcuts, -, hpieces⟩ | ⟨hcuts, hpiece, hpieces⟩⟩ := read_eq_some hread
    · have hnone : s'.pieces.length ≤ s₁.pieces.length := by
        rw [hcount, hpieces, List.length_append, List.length_singleton]
      exact (no_cut_before_brace hcuts happly hrest hstack hnone).elim
    · -- no cut: the byte is read alone in the same way
      cases hinner : (mode.move b).apply stack with
      | none =>
        have hcut := (cuts_of_apply_none hinner (by rw [happly]; nofun)).2
        rw [hcuts] at hcut
        cases hcut
      | some state =>
        have hsame := (apply_append hinner [.object]).symm.trans happly
        obtain ⟨hmode₁, hstack₁⟩ := Prod.mk.inj (Option.some.inj hsame)
        have hs₁ : s₁ = ⟨state.1, state.2 ++ [.object], piece ++ [b], pieces⟩ := by
          rw [hmode₁, hstack₁, ← hpiece, ← hpieces]
        rw [hs₁] at hrest
        have hfirst₁ : state.1 = .firstName → state.2 ≠ [] := by
          intro hname
          have hentered : (mode.move b).apply stack = some (.firstName, state.2) := by
            rw [hinner, ← hname]
          exact apply_firstName hentered hfirst
        obtain ⟨⟨mode', hrun, hends⟩, hpieces'⟩ := ih hfirst₁ hrest
        refine ⟨⟨mode', ?_, hends⟩, ?_⟩
        · rw [run, List.foldlM_cons]
          show ((mode.move b).apply stack).bind _ = _
          rw [hinner]
          exact hrun
        · rw [hpieces', List.append_assoc, List.singleton_append]

/-- The names and values of an object begin with those read already. -/
theorem topLevel_isPrefix (hhead : head.foldlM Scan.read {} = some ⟨mode, stack, [], first :: pieces⟩)
    {all : List (List UInt8)} (h : topLevel (head ++ text ++ [125]) = some all) : pieces <+: all := by
  obtain ⟨s', hread, hresult⟩ := Option.bind_eq_some_iff.mp h
  rw [Option.ite_none_right_eq_some] at hresult
  rw [List.append_assoc, List.foldlM_append, hhead] at hread
  obtain ⟨rest, hrest⟩ := pieces_isPrefix hread
  rw [← Option.some.inj hresult.2, ← hrest]
  exact List.prefix_append _ _

/-- **A text in the place of the last value.** Behind the beginning of an object up to the colon of its last
member, a text is this member's value, and the others are what they were, if and only if it is a JSON
text. -/
theorem topLevel_embed_iff (hhead : head.foldlM Scan.read {} = some ⟨.value, [.object], [], first :: pieces⟩)
    (hascii : ∀ b ∈ head, b < 128) (text value : List UInt8) :
    topLevel (head ++ text ++ [125]) = some (pieces ++ [value]) ↔ IsText text ∧ value = text := by
  have hvalid : Utf8.valid (head ++ text ++ [125]) = Utf8.valid text := by
    rw [Utf8.valid_append_ascii (by decide), Utf8.valid_ascii_append hascii]
  have hscan : (head ++ text ++ [125]).foldlM Scan.read {} =
      (text ++ [125]).foldlM Scan.read ⟨.value, [] ++ [Container.object], [], first :: pieces⟩ := by
    rw [List.append_assoc, List.foldlM_append, hhead]
    rfl
  rw [topLevel, hscan, hvalid]
  constructor
  · intro h
    obtain ⟨s', hread, hresult⟩ := Option.bind_eq_some_iff.mp h
    rw [Option.ite_none_right_eq_some] at hresult
    obtain ⟨⟨hutf8, -, hstack, hne⟩, hpieces⟩ := hresult
    have hpieces := Option.some.inj hpieces
    have hcount : s'.pieces.length = (first :: pieces).length + 1 := by
      have hlength := congrArg List.length hpieces
      rw [List.length_tail, List.length_append, List.length_singleton] at hlength
      have hpos : 0 < s'.pieces.length := List.length_pos_iff.mpr hne
      rw [List.length_cons]
      omega
    have hfirst : Mode.value = .firstName → ([] : List Container) ≠ [] := nofun
    obtain ⟨⟨mode', hrun, hends⟩, hlast⟩ := run_of_foldlM_read hfirst hread hstack hcount
    rw [hlast, List.nil_append, List.cons_append, List.tail_cons] at hpieces
    refine ⟨⟨hutf8, ?_⟩, (List.append_cancel_left hpieces |> List.singleton_inj.mp).symm⟩
    rw [accepts, hrun, Option.any_some, hends]
    rfl
  · rintro ⟨⟨hutf8, haccepts⟩, rfl⟩
    obtain ⟨⟨mode', stack'⟩, hrun, hstate⟩ := (Option.any_eq_true _ _).mp haccepts
    rw [Bool.and_eq_true, beq_iff_eq] at hstate
    obtain ⟨hends, hstack⟩ := hstate
    obtain rfl : stack' = [] := hstack
    have hbrace : mode'.move 125 = .close .object := move_brace_of_ends hends
    have happly : (mode'.move 125).apply [.object] = some (.after, []) := by
      rw [hbrace]
      rfl
    have hclose : Scan.read ⟨mode', [.object], value, first :: pieces⟩ 125 =
        some ⟨.after, [], [], first :: pieces ++ [value]⟩ :=
      read_of_cut happly (by rw [hbrace]; rfl)
    rw [List.foldlM_append, foldlM_read_of_run hrun]
    show ((some _ : Option Scan).bind fun s => [125].foldlM Scan.read s).bind _ = _
    rw [Option.bind_some, List.foldlM_cons, List.nil_append, List.nil_append, hclose]
    show (if _ then _ else _) = _
    rw [if_pos ⟨hutf8, rfl, rfl, by simp⟩]
    rfl

/-! ### Members -/

theorem length_of_pairs {α : Type} {l : List α} {ps : List (α × α)} (h : pairs l = some ps) :
    l.length = 2 * ps.length := by
  fun_induction pairs l generalizing ps with
  | case1 =>
    obtain rfl := Option.some.inj h
    rfl
  | case2 => cases h
  | case3 a b rest ih =>
    obtain ⟨ps', hps', rfl⟩ := Option.map_eq_some_iff.mp h
    rw [List.length_cons, List.length_cons, List.length_cons, ih hps']
    omega

theorem pairs_flatMap {α : Type} (ps : List (α × α)) : pairs (ps.flatMap fun p => [p.1, p.2]) = some ps := by
  induction ps with
  | nil => rfl
  | cons p ps ih =>
    rw [List.flatMap_cons, List.cons_append, List.cons_append, List.nil_append, pairs, ih, Option.map_some]

/-- **A text in the place of the last value**, by members: there are no more of them than meant if and only
if the text is a JSON text, and then they are those meant. -/
theorem members_embed_iff {name : List UInt8} {front : List (List UInt8 × List UInt8)}
    (hhead : head.foldlM Scan.read {} =
      some ⟨.value, [.object], [], first :: (front.flatMap (fun p => [p.1, p.2]) ++ [name])⟩)
    (hascii : ∀ b ∈ head, b < 128) (text : List UInt8) (all : List (List UInt8 × List UInt8)) :
    members (head ++ text ++ [125]) = some all ∧ all.length = front.length + 1 ↔
      IsText text ∧ all = front ++ [(name, text)] := by
  have hflat : ∀ value : List UInt8, front.flatMap (fun p => [p.1, p.2]) ++ [name] ++ [value] =
      (front ++ [(name, value)]).flatMap fun p => [p.1, p.2] := by
    intro value
    simp
  constructor
  · rintro ⟨hall, hcount⟩
    obtain ⟨pieces, htop, hmembers⟩ := Option.bind_eq_some_iff.mp hall
    have hpairs : pairs pieces = some all := by
      split_ifs at hmembers
      · obtain rfl := Option.some.inj hmembers
        cases hcount
      · exact hmembers
    -- the texts between the cuts of the head come first, so one more is left
    obtain ⟨rest, hrest⟩ := topLevel_isPrefix hhead htop
    have hone : rest.length = 1 := by
      have hlength := length_of_pairs hpairs
      rw [← hrest, hcount] at hlength
      simp only [List.length_append, List.length_flatMap, List.length_cons, List.length_nil] at hlength
      simp at hlength
      omega
    obtain ⟨value, rfl⟩ := List.length_eq_one_iff.mp hone
    rw [← hrest] at htop hpairs
    obtain ⟨htext, rfl⟩ := (topLevel_embed_iff hhead hascii text value).mp htop
    rw [hflat, pairs_flatMap] at hpairs
    exact ⟨htext, (Option.some.inj hpairs).symm⟩
  · rintro ⟨htext, rfl⟩
    have htop := (topLevel_embed_iff hhead hascii text text).mpr ⟨htext, rfl⟩
    refine ⟨?_, by simp⟩
    rw [members, htop, Option.bind_some, hflat, pairs_flatMap, if_neg]
    rw [List.length_flatMap]
    simp

example : members (ascii "\x7b\"a\": 1, \"b\": [2, 3]\x7d") =
    some [(ascii "\"a\"", ascii " 1"), (ascii " \"b\"", ascii " [2, 3]")] := by
  decide +kernel

end JsonText
