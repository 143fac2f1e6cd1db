import Mathlib.Data.Bool.AllAny
import Mathlib.Data.List.Forall2
import CGateway.Lib.JsonText

/-! # JSON documents

JSON values in the way they are written: with their blanks, with the letters of their numbers and with the escapes in
their strings. The text of a document is read by the machine of `JsonText` (`isText_text`).

* `JsonDoc`, `text` — documents and their texts;
* `isWellFormed` — blanks are blanks, and strings and numbers are written as JSON has them;
* `JsonDoc.induction` — induction over a document, the parts given by membership;
* `Walk` — what can be followed along the text of a document, quoted text by quoted text;
* `unescape` — what a string says;
* `Agree` — two documents have the same structure and the same content but under secret names. -/

/-- An item of an array, with the blanks around it. -/
structure JsonItem (α : Type) where
  before : List UInt8
  value : α
  after : List UInt8

/-- A member of an object, with the blanks in front of it, on both sides of its colon and behind it. The name is what
stands between the quotation marks. -/
structure JsonMember (α : Type) where
  before : List UInt8
  name : List UInt8
  beforeColon : List UInt8
  afterColon : List UInt8
  value : α
  after : List UInt8

/-- A JSON value as it is written. -/
inductive JsonDoc where
  /-- A number or one of the three words. -/
  | literal (text : List UInt8)
  /-- What stands between the quotation marks of a string. -/
  | string (body : List UInt8)
  /-- The blanks behind the opening bracket, and the items. -/
  | array (blank : List UInt8) (items : List (JsonItem JsonDoc))
  /-- The blanks behind the opening brace, and the members. -/
  | object (blank : List UInt8) (members : List (JsonMember JsonDoc))

namespace JsonDoc

open Bytes JsonText

/-! ### Texts -/

/-- The comma in front of more parts. -/
def comma {α : Type} : List α → List UInt8
  | [] => []
  | _ :: _ => [44]

mutual

/-- The text of a document. -/
def text : JsonDoc → List UInt8
  | .literal text => text
  | .string body => 34 :: (body ++ [34])
  | .array blank items => 91 :: (blank ++ (itemsText items ++ [93]))
  | .object blank members => 123 :: (blank ++ (membersText members ++ [125]))

/-- The text of the items of an array. -/
def itemsText : List (JsonItem JsonDoc) → List UInt8
  | [] => []
  | item :: items => item.before ++ (item.value.text ++ (item.after ++ (comma items ++ itemsText items)))

/-- The text of the members of an object. -/
def membersText : List (JsonMember JsonDoc) → List UInt8
  | [] => []
  | m :: members =>
      m.before ++ (34 :: (m.name ++ (34 :: (m.beforeColon ++ (58 :: (m.afterColon ++ (m.value.text ++
        (m.after ++ (comma members ++ membersText members)))))))))

end

theorem text_literal (t : List UInt8) : text (.literal t) = t := by rw [text]

/-! ### Well-formed documents -/

/-- Where one is between the quotation marks of a string. -/
inductive Inside where
  | text
  /-- Behind a backslash. -/
  | escape
  /-- In the digits of an escape, with so many to come behind the next one. -/
  | hex (left : ℕ)
  deriving DecidableEq, Repr

/-- One byte between the quotation marks. -/
def Inside.read : Inside → UInt8 → Option Inside
  | .text, b => if b = 34 then none else if b = 92 then some .escape else if b < 32 then none else some .text
  | .escape, b => if b ∈ ascii "\"\\/bfnrt" then some .text else if b = 117 then some (.hex 3) else none
  | .hex left, b => if isHex b then some (if left = 0 then .text else .hex (left - 1)) else none

variable {m : Inside} {b : UInt8} {blanks body : List UInt8} {d : JsonDoc}

/-- A quotation mark is read behind a backslash only. -/
theorem Inside.eq_escape_of_read {m' : Inside} (h : m.read 34 = some m') : m = .escape := by
  cases m with
  | text => cases h
  | escape => rfl
  | hex left => cases h

/-- Only a backslash begins an escape. -/
theorem Inside.eq_of_read_escape (h : m.read b = some .escape) : b = 92 := by
  cases m with
  | text =>
    simp only [Inside.read] at h
    split_ifs at h with hquote hescape
    · exact hescape
    · cases h
  | escape =>
    simp only [Inside.read] at h
    split_ifs at h <;> cases h
  | hex left =>
    simp only [Inside.read] at h
    split_ifs at h <;> cases h

/-- What may stand between the quotation marks of a string. -/
def isBody (body : List UInt8) : Bool := Utf8.valid body && body.foldlM Inside.read .text == some .text

/-- The bytes of numbers and words. -/
def isLiteralByte (b : UInt8) : Bool :=
  JsonText.isDigit b || b == 43 || b == 45 || b == 46 || (65 ≤ b && b ≤ 90) || (97 ≤ b && b ≤ 122)

/-- A number or one of the three words. -/
def isLiteral (text : List UInt8) : Bool := text.all isLiteralByte && accepts text

mutual

/-- The document is well-formed JSON. -/
def isWellFormed : JsonDoc → Bool
  | .literal text => isLiteral text
  | .string body => isBody body
  | .array blank items => blank.all isBlank && itemsWellFormed items
  | .object blank members => blank.all isBlank && membersWellFormed members

/-- `isWellFormed` for the items of an array. -/
def itemsWellFormed : List (JsonItem JsonDoc) → Bool
  | [] => true
  | item :: items =>
      item.before.all isBlank && item.value.isWellFormed && item.after.all isBlank && itemsWellFormed items

/-- `isWellFormed` for the members of an object. -/
def membersWellFormed : List (JsonMember JsonDoc) → Bool
  | [] => true
  | m :: members =>
      m.before.all isBlank && isBody m.name && m.beforeColon.all isBlank && m.afterColon.all isBlank &&
        m.value.isWellFormed && m.after.all isBlank && membersWellFormed members

end

/-- An item of a well-formed array. -/
structure ItemWellFormed (item : JsonItem JsonDoc) : Prop where
  before : ∀ b ∈ item.before, isBlank b = true
  value : item.value.isWellFormed = true
  after : ∀ b ∈ item.after, isBlank b = true

/-- A member of a well-formed object. -/
structure MemberWellFormed (m : JsonMember JsonDoc) : Prop where
  before : ∀ b ∈ m.before, isBlank b = true
  name : isBody m.name = true
  beforeColon : ∀ b ∈ m.beforeColon, isBlank b = true
  afterColon : ∀ b ∈ m.afterColon, isBlank b = true
  value : m.value.isWellFormed = true
  after : ∀ b ∈ m.after, isBlank b = true

theorem isWellFormed_array_iff {blank : List UInt8} {items : List (JsonItem JsonDoc)} :
    isWellFormed (.array blank items) = true ↔
      (∀ b ∈ blank, isBlank b = true) ∧ ∀ item ∈ items, ItemWellFormed item := by
  rw [isWellFormed, Bool.and_eq_true, List.all_eq_true]
  refine and_congr_right fun _ => ?_
  induction items with
  | nil => simp [itemsWellFormed]
  | cons item items ih =>
    simp only [itemsWellFormed, Bool.and_eq_true, List.all_eq_true, ih, List.forall_mem_cons]
    refine and_congr_left fun _ => ⟨?_, ?_⟩
    · rintro ⟨⟨hbefore, hvalue⟩, hafter⟩
      exact ⟨hbefore, hvalue, hafter⟩
    · intro h
      exact ⟨⟨h.before, h.value⟩, h.after⟩

theorem isWellFormed_object_iff {blank : List UInt8} {members : List (JsonMember JsonDoc)} :
    isWellFormed (.object blank members) = true ↔
      (∀ b ∈ blank, isBlank b = true) ∧ ∀ m ∈ members, MemberWellFormed m := by
  rw [isWellFormed, Bool.and_eq_true, List.all_eq_true]
  refine and_congr_right fun _ => ?_
  induction members with
  | nil => simp [membersWellFormed]
  | cons m members ih =>
    simp only [membersWellFormed, Bool.and_eq_true, List.all_eq_true, ih, List.forall_mem_cons]
    refine and_congr_left fun _ => ⟨?_, ?_⟩
    · rintro ⟨⟨⟨⟨⟨hbefore, hname⟩, hcolon⟩, hcolon'⟩, hvalue⟩, hafter⟩
      exact ⟨hbefore, hname, hcolon, hcolon', hvalue, hafter⟩
    · intro h
      exact ⟨⟨⟨⟨⟨h.before, h.name⟩, h.beforeColon⟩, h.afterColon⟩, h.value⟩, h.after⟩

section Induction

variable {P : JsonDoc → Prop} (literal : ∀ text, P (.literal text)) (string : ∀ body, P (.string body))
  (array : ∀ blank items, (∀ item ∈ items, P item.value) → P (.array blank items))
  (object : ∀ blank members, (∀ m ∈ members, P m.value) → P (.object blank members))
include literal string array object

-- The linter looks at each member of the block alone, and the lists use these through the documents.
set_option linter.unusedSectionVars false in
mutual

private theorem doc_of_parts : ∀ d, P d
  | .literal text => literal text
  | .string body => string body
  | .array blank items => array blank items (doc_items items)
  | .object blank members => object blank members (doc_members members)

private theorem doc_items : ∀ items : List (JsonItem JsonDoc), ∀ item ∈ items, P item.value
  | [] => fun _ hitem => absurd hitem List.not_mem_nil
  | item :: items => List.forall_mem_cons.mpr ⟨doc_of_parts item.value, doc_items items⟩

private theorem doc_members : ∀ members : List (JsonMember JsonDoc), ∀ m ∈ members, P m.value
  | [] => fun _ hm => absurd hm List.not_mem_nil
  | m :: members => List.forall_mem_cons.mpr ⟨doc_of_parts m.value, doc_members members⟩

end

/-- Induction over a document: what holds of the parts holds of the whole. -/
@[elab_as_elim]
theorem induction (d : JsonDoc) : P d := doc_of_parts literal string array object d

end Induction

/-! ### The bytes of a document -/

theorem ne_of_isBlank (h : isBlank b = true) : b ≠ 34 ∧ b ≠ 44 ∧ b ≠ 58 ∧ b ≠ 93 ∧ b ≠ 125 := by
  refine ⟨?_, ?_, ?_, ?_, ?_⟩ <;> rintro rfl <;> exact absurd h (by decide)

theorem quote_notMem_blanks (h : ∀ b ∈ blanks, isBlank b = true) : 34 ∉ blanks :=
  fun hmem => (ne_of_isBlank (h 34 hmem)).1 rfl

theorem quote_notMem_comma {α : Type} (parts : List α) : 34 ∉ comma parts := by
  cases parts with
  | nil => exact List.not_mem_nil
  | cons part parts => exact show (34 : UInt8) ∉ [44] by decide

theorem ne_of_isLiteralByte (h : isLiteralByte b = true) :
    isBlank b = false ∧ b ≠ 34 ∧ b ≠ 44 ∧ b ≠ 58 ∧ b ≠ 93 ∧ b ≠ 125 := by
  refine ⟨?_, ?_, ?_, ?_, ?_, ?_⟩
  · by_contra hblank
    rw [Bool.not_eq_false, isBlank_iff] at hblank
    rcases hblank with rfl | rfl | rfl | rfl <;> exact absurd h (by decide)
  all_goals
    rintro rfl
    exact absurd h (by decide)

theorem isLiteral_ne_nil {text : List UInt8} (h : isLiteral text = true) : text ≠ [] := by
  rintro rfl
  exact absurd h (by decide)

theorem isLiteralByte_of_mem {text : List UInt8} (h : isLiteral text = true) (hb : b ∈ text) :
    isLiteralByte b = true := by
  rw [isLiteral, Bool.and_eq_true, List.all_eq_true] at h
  exact h.1 b hb

/-- The first byte of a document. -/
theorem text_eq_cons (h : d.isWellFormed = true) :
    ∃ b rest, d.text = b :: rest ∧ isBlank b = false ∧ b ≠ 44 ∧ b ≠ 58 ∧ b ≠ 93 ∧ b ≠ 125 := by
  cases d with
  | literal text =>
    obtain ⟨b, rest, rfl⟩ := List.exists_cons_of_ne_nil (isLiteral_ne_nil h)
    obtain ⟨hblank, -, hrest⟩ := ne_of_isLiteralByte (isLiteralByte_of_mem h List.mem_cons_self)
    exact ⟨b, rest, rfl, hblank, hrest⟩
  | string body => exact ⟨34, _, rfl, by decide⟩
  | array blank items => exact ⟨91, _, rfl, by decide⟩
  | object blank members => exact ⟨123, _, rfl, by decide⟩

/-! ### A document part by part -/

mutual

/-- The names and the strings of a document, as they stand between their quotation marks. -/
def quotedTexts : JsonDoc → List (List UInt8)
  | .literal _ => []
  | .string body => [body]
  | .array _ items => itemsQuoted items
  | .object _ members => membersQuoted members

/-- `quotedTexts` of the items of an array. -/
def itemsQuoted : List (JsonItem JsonDoc) → List (List UInt8)
  | [] => []
  | item :: items => item.value.quotedTexts ++ itemsQuoted items

/-- `quotedTexts` of the members of an object. -/
def membersQuoted : List (JsonMember JsonDoc) → List (List UInt8)
  | [] => []
  | m :: members => m.name :: (m.value.quotedTexts ++ membersQuoted members)

end

/-- The bytes between the quoted texts and the brackets. -/
def isPlain (b : UInt8) : Bool := isBlank b || isLiteralByte b || b == 44 || b == 58

/-- No number and no word goes on here. -/
def Ends (rest : List UInt8) : Prop := ∀ b ∈ rest.head?, isLiteralByte b = false

/-- Something about a part of a text, the quoted texts in it and what is behind it, that can be followed along a
document. -/
structure Walk (P : List UInt8 → List (List UInt8) → List UInt8 → Prop) : Prop where
  plain : ∀ part rest, (∀ b ∈ part, isPlain b = true) → P part [] rest
  quoted : ∀ body rest, isBody body = true → Ends rest → P (34 :: (body ++ [34])) [body] rest
  append : ∀ u v us vs rest, P u us (v ++ rest) → P v vs rest → P (u ++ v) (us ++ vs) rest
  brackets : ∀ inner bodies rest, P inner bodies (93 :: rest) → P (91 :: (inner ++ [93])) bodies rest
  braces : ∀ inner bodies rest, P inner bodies (125 :: rest) → P (123 :: (inner ++ [125])) bodies rest

theorem isPlain_of_isBlank (h : isBlank b = true) : isPlain b = true := by simp [isPlain, h]

theorem isPlain_of_mem_comma {α : Type} {parts : List α} (h : b ∈ comma parts) : isPlain b = true := by
  cases parts with
  | nil => cases h
  | cons part parts =>
    obtain rfl := List.mem_singleton.mp h
    rfl

theorem ends_cons (h : isLiteralByte b = false) (rest : List UInt8) : Ends (b :: rest) := by
  rintro _ ⟨⟩
  exact h

theorem isLiteralByte_of_isBlank (h : isBlank b = true) : isLiteralByte b = false := by
  by_contra hliteral
  rw [Bool.not_eq_false] at hliteral
  exact absurd (h.symm.trans (ne_of_isLiteralByte hliteral).1) (by decide)

theorem ends_blanks {rest : List UInt8} (h : ∀ b ∈ blanks, isBlank b = true) (hrest : Ends rest) :
    Ends (blanks ++ rest) := by
  cases blanks with
  | nil => exact hrest
  | cons b blanks => exact ends_cons (isLiteralByte_of_isBlank (h b List.mem_cons_self)) _

theorem ends_of_blanks (h : ∀ b ∈ blanks, isBlank b = true) : Ends blanks := by
  have hends : Ends (blanks ++ []) := ends_blanks h fun b hb => by cases hb
  rwa [List.append_nil] at hends

section Walk

variable {P : List UInt8 → List (List UInt8) → List UInt8 → Prop}

variable {rest : List UInt8}

theorem Walk.items (walk : Walk P) {items : List (JsonItem JsonDoc)} (hitems : ∀ item ∈ items, ItemWellFormed item)
    (hvalues : ∀ item ∈ items, ∀ rest, Ends rest → P item.value.text item.value.quotedTexts rest)
    (hrest : Ends rest) : P (itemsText items) (itemsQuoted items) rest := by
  induction items with
  | nil => exact walk.plain [] rest fun b hb => absurd hb List.not_mem_nil
  | cons item items ih =>
    rw [List.forall_mem_cons] at hitems hvalues
    -- Behind the value there are blanks, a comma, or what is behind the array.
    have hends : Ends (item.after ++ (comma items ++ itemsText items) ++ rest) := by
      rw [List.append_assoc]
      refine ends_blanks hitems.1.after ?_
      cases items with
      | nil => exact hrest
      | cons item' items => exact ends_cons (by decide) _
    have hbefore := fun b hb => isPlain_of_isBlank (hitems.1.before b hb)
    have hafter := fun b hb => isPlain_of_isBlank (hitems.1.after b hb)
    exact walk.append _ _ [] _ rest (walk.plain _ _ hbefore) <|
      walk.append _ _ _ _ rest (hvalues.1 _ hends) <|
      walk.append _ _ [] _ rest (walk.plain _ _ hafter) <|
      walk.append _ _ [] _ rest (walk.plain _ _ fun b => isPlain_of_mem_comma) (ih hitems.2 hvalues.2)

theorem Walk.members (walk : Walk P) {members : List (JsonMember JsonDoc)}
    (hmembers : ∀ m ∈ members, MemberWellFormed m)
    (hvalues : ∀ m ∈ members, ∀ rest, Ends rest → P m.value.text m.value.quotedTexts rest) (hrest : Ends rest) :
    P (membersText members) (membersQuoted members) rest := by
  induction members with
  | nil => exact walk.plain [] rest fun b hb => absurd hb List.not_mem_nil
  | cons m members ih =>
    rw [List.forall_mem_cons] at hmembers hvalues
    have hends : Ends (m.after ++ (comma members ++ membersText members) ++ rest) := by
      rw [List.append_assoc]
      refine ends_blanks hmembers.1.after ?_
      cases members with
      | nil => exact hrest
      | cons m' members => exact ends_cons (by decide) _
    have hbefore := fun b hb => isPlain_of_isBlank (hmembers.1.before b hb)
    have hafter := fun b hb => isPlain_of_isBlank (hmembers.1.after b hb)
    have hcolon : ∀ b ∈ m.beforeColon ++ 58 :: m.afterColon, isPlain b = true := by
      rw [List.forall_mem_append, List.forall_mem_cons]
      exact ⟨fun b hb => isPlain_of_isBlank (hmembers.1.beforeColon b hb), rfl,
        fun b hb => isPlain_of_isBlank (hmembers.1.afterColon b hb)⟩
    -- Behind the name is a blank or the colon.
    have hname : ∀ more, Ends (m.beforeColon ++ 58 :: more) :=
      fun more => ends_blanks hmembers.1.beforeColon (ends_cons (by decide) more)
    have htext : membersText (m :: members) = m.before ++ ((34 :: (m.name ++ [34])) ++
        ((m.beforeColon ++ 58 :: m.afterColon) ++ (m.value.text ++
          (m.after ++ (comma members ++ membersText members))))) := by
      simp [membersText]
    rw [htext]
    refine walk.append _ _ [] _ rest (walk.plain _ _ hbefore) <|
      walk.append _ _ [m.name] _ rest (walk.quoted _ _ hmembers.1.name ?_) <|
      walk.append _ _ [] _ rest (walk.plain _ _ hcolon) <|
      walk.append _ _ _ _ rest (hvalues.1 _ hends) <|
      walk.append _ _ [] _ rest (walk.plain _ _ hafter) <|
      walk.append _ _ [] _ rest (walk.plain _ _ fun b => isPlain_of_mem_comma) (ih hmembers.2 hvalues.2)
    simp only [List.append_assoc, List.cons_append]
    exact hname _

/-- **What can be followed along a document holds of its text.** -/
theorem Walk.text (walk : Walk P) {d : JsonDoc} (hd : d.isWellFormed = true) (hrest : Ends rest) :
    P d.text d.quotedTexts rest := by
  -- Induction on the document, for every rest that does not go on with a number or a word.
  induction d using JsonDoc.induction generalizing rest with
  | literal text =>
    refine walk.plain text rest fun b hb => ?_
    simp [isPlain, isLiteralByte_of_mem hd hb]
  | string body => exact walk.quoted body rest hd hrest
  | array blank items ih =>
    obtain ⟨hblank, hitems⟩ := isWellFormed_array_iff.mp hd
    have hvalues : ∀ item ∈ items, ∀ rest, Ends rest → P item.value.text item.value.quotedTexts rest :=
      fun item hitem rest hrest => ih item hitem (hitems item hitem).value hrest
    rw [JsonDoc.text, ← List.append_assoc]
    exact walk.brackets _ _ rest <|
      walk.append _ _ [] _ _ (walk.plain _ _ fun b hb => isPlain_of_isBlank (hblank b hb)) <|
      walk.items hitems hvalues (ends_cons (by decide) rest)
  | object blank members ih =>
    obtain ⟨hblank, hmembers⟩ := isWellFormed_object_iff.mp hd
    have hvalues : ∀ m ∈ members, ∀ rest, Ends rest → P m.value.text m.value.quotedTexts rest :=
      fun m hm rest hrest => ih m hm (hmembers m hm).value hrest
    rw [JsonDoc.text, ← List.append_assoc]
    exact walk.braces _ _ rest <|
      walk.append _ _ [] _ _ (walk.plain _ _ fun b hb => isPlain_of_isBlank (hblank b hb)) <|
      walk.members hmembers hvalues (ends_cons (by decide) rest)

end Walk

/-! ### Reading a document -/

theorem run_append (state : Mode × List Container) (xs ys : List UInt8) :
    run state (xs ++ ys) = (run state xs).bind fun state' => run state' ys := by
  rw [run, List.foldlM_append]
  rfl

theorem run_cons (mode : Mode) (stack : List Container) (b : UInt8) (xs : List UInt8) :
    run (mode, stack) (b :: xs) = ((mode.move b).apply stack).bind fun state' => run state' xs := by
  rw [run, List.foldlM_cons]
  rfl

/-- A text is read in the same way within more containers. -/
theorem run_within {mode mode' : Mode} {stack stack' : List Container} {xs : List UInt8}
    (h : run (mode, stack) xs = some (mode', stack')) (base : List Container) :
    run (mode, stack ++ base) xs = some (mode', stack' ++ base) := by
  -- The text closes only what it has opened, so the base is never looked at.
  induction xs generalizing mode stack with
  | nil =>
    obtain ⟨rfl, rfl⟩ := Prod.mk.inj (Option.some.inj h)
    rfl
  | cons b xs ih =>
    rw [run_cons] at h ⊢
    obtain ⟨⟨mode₁, stack₁⟩, happly, hrest⟩ := Option.bind_eq_some_iff.mp h
    rw [apply_append happly base, Option.bind_some]
    exact ih hrest

/-- Blanks, where they keep the mode. -/
theorem run_blanks (mode : Mode) (hmode : ∀ b, isBlank b = true → mode.move b = .stay mode)
    (h : ∀ b ∈ blanks, isBlank b = true) (stack : List Container) : run (mode, stack) blanks = some (mode, stack) := by
  induction blanks with
  | nil => rfl
  | cons b blanks ih =>
    rw [List.forall_mem_cons] at h
    rw [run_cons, hmode b h.1]
    exact ih h.2

theorem move_blank (mode : Mode) (h : mode = .value ∨ mode = .item ∨ mode = .firstName ∨ mode = .name ∨ mode = .colon)
    (b : UInt8) (hb : isBlank b = true) : mode.move b = .stay mode := by
  rcases h with rfl | rfl | rfl | rfl | rfl <;> exact if_pos hb

/-- What comes behind a value ends it. -/
theorem move_of_ends {mode : Mode} (h : mode.ends = true) (hb : isBlank b = true ∨ b = 44 ∨ b = 93 ∨ b = 125) :
    mode.move b = ending b := by
  have hdigit : JsonText.isDigit b = false ∧ isExp b = false ∧ b ≠ 46 := by
    rcases hb with hb | rfl | rfl | rfl
    · rcases isBlank_iff.mp hb with rfl | rfl | rfl | rfl <;> decide
    all_goals decide
  obtain ⟨hdigit, hexp, hpoint⟩ := hdigit
  cases mode with
  | after => rfl
  | zero => simp [Mode.move, hpoint, hexp]
  | int => simp [Mode.move, hdigit, hpoint, hexp]
  | frac => simp [Mode.move, hdigit, hexp]
  | expInt => simp [Mode.move, hdigit]
  | _ => cases h

/-- Blanks behind a value. -/
theorem run_blanks_of_ends {mode : Mode} (hmode : mode.ends = true) (h : ∀ b ∈ blanks, isBlank b = true)
    (stack : List Container) : ∃ mode' : Mode, mode'.ends = true ∧ run (mode, stack) blanks = some (mode', stack) := by
  cases blanks with
  | nil => exact ⟨mode, hmode, rfl⟩
  | cons b blanks =>
    rw [List.forall_mem_cons] at h
    refine ⟨.after, rfl, ?_⟩
    have hblank : ending b = .stay .after := if_pos h.1
    rw [run_cons, move_of_ends hmode (.inl h.1), hblank]
    exact run_blanks .after (fun b hb => if_pos hb) h.2 stack

/-- The mode of the machine between the quotation marks. -/
def Inside.mode (isName : Bool) : Inside → Mode
  | .text => .text isName
  | .escape => .escape isName
  | .hex left => .hex isName left

theorem move_inside {m' : Inside} (h : m.read b = some m') (isName : Bool) :
    (m.mode isName).move b = .stay (m'.mode isName) := by
  cases m
  all_goals
    simp only [Inside.read] at h
    simp only [Inside.mode, Mode.move]
    split_ifs at h ⊢ <;> cases h <;> rfl

theorem run_inside {m' : Inside} (h : body.foldlM Inside.read m = some m') (isName : Bool)
    (stack : List Container) : run (m.mode isName, stack) body = some (m'.mode isName, stack) := by
  induction body generalizing m with
  | nil =>
    obtain rfl := Option.some.inj h
    rfl
  | cons b body ih =>
    rw [List.foldlM_cons] at h
    obtain ⟨m₁, hread, hrest⟩ := Option.bind_eq_some_iff.mp h
    rw [run_cons, move_inside hread]
    exact ih hrest

theorem foldlM_of_isBody (h : isBody body = true) : body.foldlM Inside.read .text = some .text := by
  rw [isBody, Bool.and_eq_true, beq_iff_eq] at h
  exact h.2

/-- A string, or the name of a member, and its closing quotation mark. -/
theorem run_body (h : isBody body = true) (isName : Bool) (stack : List Container) (rest : List UInt8) :
    run (.text isName, stack) (body ++ 34 :: rest) = run (if isName then .colon else .after, stack) rest := by
  rw [run_append, show Mode.text isName = Inside.text.mode isName from rfl,
    run_inside (foldlM_of_isBody h), Option.bind_some, run_cons]
  cases isName <;> rfl

/-- The first item of an array is read like any value. -/
theorem run_item_eq (h : d.isWellFormed = true) (stack : List Container) :
    run (.item, stack) d.text = run (.value, stack) d.text := by
  obtain ⟨b, rest, heq, hblank, -, -, hbracket, -⟩ := text_eq_cons h
  have hmove : Mode.item.move b = Mode.value.move b := by
    simp [Mode.move, hblank, hbracket]
  rw [heq, run_cons, run_cons, hmove]

/-- A document is read to the end of a value, in whatever containers. -/
def Readable (d : JsonDoc) : Prop :=
  ∀ stack : List Container, ∃ mode : Mode, mode.ends = true ∧ run (.value, stack) d.text = some (mode, stack)

/-- The items of an array, up to its closing bracket. -/
theorem run_items {items : List (JsonItem JsonDoc)} (hne : items ≠ []) (hitems : ∀ item ∈ items, ItemWellFormed item)
    (hread : ∀ item ∈ items, item.value.Readable) {mode : Mode} (hmode : mode = .item ∨ mode = .value)
    (stack : List Container) : run (mode, .array :: stack) (itemsText items ++ [93]) = some (.after, stack) := by
  induction items generalizing mode with
  | nil => exact absurd rfl hne
  | cons item items ih =>
    rw [List.forall_mem_cons] at hitems hread
    obtain ⟨first, hfirst, hvalue⟩ := hread.1 (.array :: stack)
    obtain ⟨last, hlast, hafter⟩ := run_blanks_of_ends hfirst hitems.1.after (.array :: stack)
    have hstart : run (mode, .array :: stack) item.value.text = some (first, .array :: stack) := by
      rcases hmode with rfl | rfl
      · rw [run_item_eq hitems.1.value, hvalue]
      · exact hvalue
    have hblank := run_blanks mode (move_blank mode (by rcases hmode with rfl | rfl <;> simp)) hitems.1.before
      (.array :: stack)
    simp only [itemsText, List.append_assoc, run_append, hblank, hstart, hafter, Option.bind_some]
    cases items with
    | nil =>
      show run (last, .array :: stack) [93] = _
      rw [run_cons, move_of_ends hlast (.inr (.inr (.inl rfl)))]
      rfl
    | cons item' items =>
      have hcomma : run (last, .array :: stack) [44] = some (.value, .array :: stack) := by
        rw [run_cons, move_of_ends hlast (.inr (.inl rfl))]
        rfl
      rw [comma, hcomma, Option.bind_some, ← run_append]
      exact ih (List.cons_ne_nil _ _) hitems.2 hread.2 (.inr rfl)

/-- The members of an object, up to its closing brace. -/
theorem run_members {members : List (JsonMember JsonDoc)} (hne : members ≠ [])
    (hmembers : ∀ m ∈ members, MemberWellFormed m) (hread : ∀ m ∈ members, m.value.Readable) {mode : Mode}
    (hmode : mode = .firstName ∨ mode = .name) (stack : List Container) :
    run (mode, .object :: stack) (membersText members ++ [125]) = some (.after, stack) := by
  induction members generalizing mode with
  | nil => exact absurd rfl hne
  | cons m members ih =>
    rw [List.forall_mem_cons] at hmembers hread
    obtain ⟨first, hfirst, hvalue⟩ := hread.1 (.object :: stack)
    obtain ⟨last, hlast, hafter⟩ := run_blanks_of_ends hfirst hmembers.1.after (.object :: stack)
    have hblank := run_blanks mode (move_blank mode (by rcases hmode with rfl | rfl <;> simp))
      hmembers.1.before (.object :: stack)
    have hquote : (mode.move 34).apply (.object :: stack) = some (.text true, .object :: stack) := by
      rcases hmode with rfl | rfl <;> rfl
    have hcolon := run_blanks .colon (move_blank .colon (by simp)) hmembers.1.beforeColon (.object :: stack)
    have hcolon' := run_blanks .value (move_blank .value (by simp)) hmembers.1.afterColon (.object :: stack)
    have hcolonByte : (Mode.colon.move 58).apply (.object :: stack) = some (.value, .object :: stack) := rfl
    rw [membersText]
    simp only [List.append_assoc, List.cons_append]
    rw [run_append, hblank, Option.bind_some, run_cons, hquote, Option.bind_some,
      run_body hmembers.1.name, if_pos rfl, run_append, hcolon, Option.bind_some, run_cons, hcolonByte,
      Option.bind_some, run_append, hcolon', Option.bind_some, run_append, hvalue, Option.bind_some,
      run_append, hafter, Option.bind_some]
    cases members with
    | nil =>
      show run (last, .object :: stack) [125] = _
      rw [run_cons, move_of_ends hlast (.inr (.inr (.inr rfl)))]
      rfl
    | cons m' members =>
      have hcomma : run (last, .object :: stack) [44] = some (.name, .object :: stack) := by
        rw [run_cons, move_of_ends hlast (.inr (.inl rfl))]
        rfl
      rw [comma, run_append, hcomma, Option.bind_some]
      exact ih (List.cons_ne_nil _ _) hmembers.2 hread.2 (.inr rfl)

/-- **A well-formed document is read as a value**, in whatever containers. -/
theorem readable_of_isWellFormed (h : d.isWellFormed = true) : d.Readable := by
  induction d using JsonDoc.induction with
  | literal text =>
    intro stack
    rw [isWellFormed, isLiteral, Bool.and_eq_true, accepts] at h
    obtain ⟨⟨mode, inner⟩, hrun, hends⟩ := (Option.any_eq_true _ _).mp h.2
    rw [Bool.and_eq_true, beq_iff_eq] at hends
    obtain ⟨hmode, rfl⟩ := hends
    exact ⟨mode, hmode, run_within hrun stack⟩
  | string body =>
    intro stack
    exact ⟨.after, rfl, run_body h false stack []⟩
  | array blank items ih =>
    intro stack
    obtain ⟨hblank, hitems⟩ := isWellFormed_array_iff.mp h
    have hread : ∀ item ∈ items, item.value.Readable := fun item hitem => ih item hitem (hitems item hitem).value
    have hopen : (Mode.value.move 91).apply stack = some (.item, .array :: stack) := rfl
    have hblank' := run_blanks .item (move_blank .item (by simp)) hblank (.array :: stack)
    refine ⟨.after, rfl, ?_⟩
    rw [text, run_cons, hopen, Option.bind_some, run_append, hblank', Option.bind_some]
    by_cases hne : items = []
    · subst hne
      rfl
    · exact run_items hne hitems hread (.inl rfl) stack
  | object blank members ih =>
    intro stack
    obtain ⟨hblank, hmembers⟩ := isWellFormed_object_iff.mp h
    have hread : ∀ m ∈ members, m.value.Readable := fun m hm => ih m hm (hmembers m hm).value
    have hopen : (Mode.value.move 123).apply stack = some (.firstName, .object :: stack) := rfl
    have hblank' := run_blanks .firstName (move_blank .firstName (by simp)) hblank (.object :: stack)
    refine ⟨.after, rfl, ?_⟩
    rw [text, run_cons, hopen, Option.bind_some, run_append, hblank', Option.bind_some]
    by_cases hne : members = []
    · subst hne
      rfl
    · exact run_members hne hmembers hread (.inl rfl) stack

theorem lt_of_isBlank (h : isBlank b = true) : b < 128 := by
  rcases isBlank_iff.mp h with rfl | rfl | rfl | rfl <;> decide

theorem lt_of_isLiteralByte (h : isLiteralByte b = true) : b < 128 := by
  simp only [isLiteralByte, JsonText.isDigit, Bool.or_eq_true, Bool.and_eq_true, beq_iff_eq, decide_eq_true_eq,
    UInt8.le_iff_toNat_le, UInt8.lt_iff_toNat_lt, ← UInt8.toNat_inj] at h ⊢
  simp only [UInt8.toNat_ofNat] at h ⊢
  omega

/-- A quoted text in front. -/
theorem valid_quoted (h : isBody body = true) (rest : List UInt8) :
    Utf8.valid (34 :: (body ++ 34 :: rest)) = Utf8.valid rest := by
  rw [isBody, Bool.and_eq_true] at h
  rw [Utf8.valid_cons_ascii (by decide), Utf8.valid_append h.1, Utf8.valid_cons_ascii (by decide)]

/-- Bytes between quoted texts in front. -/
theorem valid_plain {part : List UInt8} (h : ∀ b ∈ part, isPlain b = true) (rest : List UInt8) :
    Utf8.valid (part ++ rest) = Utf8.valid rest := by
  refine Utf8.valid_ascii_append (fun b hb => ?_) rest
  have hplain := h b hb
  simp only [isPlain, Bool.or_eq_true, beq_iff_eq] at hplain
  rcases hplain with ((hblank | hliteral) | rfl) | rfl
  · exact lt_of_isBlank hblank
  · exact lt_of_isLiteralByte hliteral
  · decide
  · decide

/-- A document is written in UTF-8. -/
theorem walk_valid : Walk fun part _ rest => Utf8.valid (part ++ rest) = Utf8.valid rest where
  plain part rest h := valid_plain h rest
  quoted body rest hbody _ := by
    rw [List.cons_append, List.append_assoc]
    exact valid_quoted hbody rest
  append u v _ _ rest hu hv := by rw [List.append_assoc, hu, hv]
  brackets inner _ rest h := by
    rw [List.cons_append, List.append_assoc, Utf8.valid_cons_ascii (by decide), List.singleton_append, h,
      Utf8.valid_cons_ascii (by decide)]
  braces inner _ rest h := by
    rw [List.cons_append, List.append_assoc, Utf8.valid_cons_ascii (by decide), List.singleton_append, h,
      Utf8.valid_cons_ascii (by decide)]

/-- **The text of a well-formed document is a JSON text**, with blanks around it. -/
theorem isText_text (h : d.isWellFormed = true) {before after : List UInt8}
    (hbefore : ∀ b ∈ before, isBlank b = true) (hafter : ∀ b ∈ after, isBlank b = true) :
    IsText (before ++ (d.text ++ after)) := by
  constructor
  · have hvalid := valid_plain (fun b hb => isPlain_of_isBlank (hafter b hb)) []
    rw [List.append_nil] at hvalid
    rw [valid_plain fun b hb => isPlain_of_isBlank (hbefore b hb), walk_valid.text h (ends_of_blanks hafter), hvalid]
    rfl
  · obtain ⟨mode, hmode, hrun⟩ := readable_of_isWellFormed h []
    obtain ⟨last, hlast, hend⟩ := run_blanks_of_ends hmode hafter []
    rw [accepts, run_append, run_blanks .value (move_blank .value (by simp)) hbefore, Option.bind_some, run_append,
      hrun, Option.bind_some, hend, Option.any_some, hlast]
    rfl

theorem isText_of_isWellFormed (h : d.isWellFormed = true) : IsText d.text := by
  have htext : IsText ([] ++ (d.text ++ [])) := isText_text h (List.forall_mem_nil _) (List.forall_mem_nil _)
  rwa [List.nil_append, List.append_nil] at htext

/-! ### Numbers -/

theorem isDigit_of_mem_decimalNat {n : ℕ} (h : b ∈ decimalNat n) : JsonText.isDigit b = true := by
  have hrange := toNat_of_mem_decimalNat h
  simp only [JsonText.isDigit, Bool.and_eq_true, decide_eq_true_eq, UInt8.le_iff_toNat_le]
  exact hrange

/-- A number other than zero does not begin with a zero. -/
theorem exists_first_digit {n : ℕ} (hn : 0 < n) : ∃ b rest, decimalNat n = b :: rest ∧ b ∈ ascii "123456789" := by
  induction n using Nat.strong_induction_on with
  | _ n ih =>
    by_cases hlt : n < 10
    · have hdigit : ∀ n < 10, 0 < n → UInt8.ofNat (Nat.digitChar n).toNat ∈ ascii "123456789" := by decide
      refine ⟨UInt8.ofNat (Nat.digitChar n).toNat, [], ?_, hdigit n hlt hn⟩
      rw [decimalNat, Nat.toDigits_of_lt_base hlt]
      rfl
    · obtain ⟨b, rest, heq, hb⟩ := ih (n / 10) (by omega) (by omega)
      refine ⟨b, rest ++ [UInt8.ofNat (Nat.digitChar (n % 10)).toNat], ?_, hb⟩
      rw [decimalNat, Nat.toDigits_of_base_le (by decide) (Nat.le_of_not_lt hlt), List.map_append, ← decimalNat, heq]
      rfl

/-- The digits of an integer. -/
theorem run_digits {digits : List UInt8} (h : ∀ b ∈ digits, JsonText.isDigit b = true) (stack : List Container) :
    run (.int, stack) digits = some (.int, stack) := by
  induction digits with
  | nil => rfl
  | cons b digits ih =>
    rw [List.forall_mem_cons] at h
    have hmove : Mode.int.move b = .stay .int := if_pos h.1
    rw [run_cons, hmove]
    exact ih h.2

/-- A natural number is read to the end of a value, behind a sign or not. -/
theorem run_decimalNat (n : ℕ) {mode : Mode} (hmode : mode = .value ∨ mode = .minus) (stack : List Container) :
    ∃ mode' : Mode, mode'.ends = true ∧ run (mode, stack) (decimalNat n) = some (mode', stack) := by
  rcases Nat.eq_zero_or_pos n with rfl | hpos
  · refine ⟨.zero, rfl, ?_⟩
    rcases hmode with rfl | rfl <;> rfl
  · obtain ⟨b, rest, heq, hb⟩ := exists_first_digit hpos
    have hrest : ∀ c ∈ rest, JsonText.isDigit c = true := fun c hc =>
      isDigit_of_mem_decimalNat (heq ▸ List.mem_cons_of_mem b hc)
    have hfirst : ∀ c ∈ ascii "123456789", Mode.value.move c = .stay .int ∧ Mode.minus.move c = .stay .int :=
      List.all_iff_forall_prop.mp (by decide)
    have hmove : mode.move b = .stay .int := by
      rcases hmode with rfl | rfl
      · exact (hfirst b hb).1
      · exact (hfirst b hb).2
    refine ⟨.int, rfl, ?_⟩
    rw [heq, run_cons, hmove]
    exact run_digits hrest stack

theorem isLiteral_of_run {text : List UInt8} (hbytes : ∀ b ∈ text, isLiteralByte b = true) {mode : Mode}
    (hmode : mode.ends = true) (hrun : run (.value, []) text = some (mode, [])) : isLiteral text = true := by
  rw [isLiteral, Bool.and_eq_true, List.all_eq_true, accepts, hrun, Option.any_some, hmode]
  exact ⟨hbytes, rfl⟩

/-- **Integers are JSON numbers.** -/
theorem isLiteral_decimal (z : ℤ) : isLiteral (decimal z) = true := by
  have hdigit : ∀ (n : ℕ), ∀ b ∈ decimalNat n, isLiteralByte b = true := by
    intro n b hb
    simp [isLiteralByte, isDigit_of_mem_decimalNat hb]
  cases z with
  | ofNat n =>
    obtain ⟨mode, hmode, hrun⟩ := run_decimalNat n (.inl rfl) []
    exact isLiteral_of_run (hdigit n) hmode hrun
  | negSucc n =>
    obtain ⟨mode, hmode, hrun⟩ := run_decimalNat (n + 1) (.inr rfl) []
    have hbytes : ∀ b ∈ 45 :: decimalNat (n + 1), isLiteralByte b = true :=
      List.forall_mem_cons.mpr ⟨rfl, hdigit (n + 1)⟩
    have hliteral : isLiteral (45 :: decimalNat (n + 1)) = true := isLiteral_of_run hbytes hmode hrun
    exact hliteral

/-! ### Strings -/

/-- The value of a hexadecimal digit. -/
def hexValue (b : UInt8) : ℕ :=
  if b.toNat ≤ 57 then b.toNat - 48 else if b.toNat ≤ 70 then b.toNat - 55 else b.toNat - 87

/-- The number that four hexadecimal digits write. -/
def codeUnit (a b c d : UInt8) : ℕ := ((hexValue a * 16 + hexValue b) * 16 + hexValue c) * 16 + hexValue d

/-- A code point in UTF-8. -/
def utf8Bytes (c : ℕ) : List UInt8 :=
  if c < 0x80 then [UInt8.ofNat c]
  else if c < 0x800 then [UInt8.ofNat (0xC0 + c / 64), UInt8.ofNat (0x80 + c % 64)]
  else if c < 0x10000 then
    [UInt8.ofNat (0xE0 + c / 4096), UInt8.ofNat (0x80 + c / 64 % 64), UInt8.ofNat (0x80 + c % 64)]
  else
    [UInt8.ofNat (0xF0 + c / 262144), UInt8.ofNat (0x80 + c / 4096 % 64), UInt8.ofNat (0x80 + c / 64 % 64),
      UInt8.ofNat (0x80 + c % 64)]

/-- The byte that a short escape stands for. -/
def escaped (b : UInt8) : UInt8 :=
  if b = 98 then 8 else if b = 102 then 12 else if b = 110 then 10 else if b = 114 then 13 else if b = 116 then 9
  else b

/-- The first half of a surrogate pair. -/
def isHighSurrogate (u : ℕ) : Bool := 0xD800 ≤ u && u < 0xDC00

/-- A code unit behind the first half of a pair, or behind none: what can be written, and the half that waits. -/
def surrogates (pending : Option ℕ) (u : ℕ) : List UInt8 × Option ℕ :=
  match pending with
  | some high =>
      if 0xDC00 ≤ u ∧ u < 0xE000 then (utf8Bytes (0x10000 + (high - 0xD800) * 1024 + (u - 0xDC00)), none)
      else if isHighSurrogate u then (utf8Bytes high, some u)
      else (utf8Bytes high ++ utf8Bytes u, none)
  | none => if isHighSurrogate u then ([], some u) else (utf8Bytes u, none)

/-- The bytes between quotation marks with their escapes resolved, behind the first half of a pair or behind none. -/
def unescapeFrom : Option ℕ → List UInt8 → List UInt8
  | pending, [] => pending.elim [] utf8Bytes
  | pending, 92 :: 117 :: a :: b :: c :: d :: rest =>
      (surrogates pending (codeUnit a b c d)).1 ++ unescapeFrom (surrogates pending (codeUnit a b c d)).2 rest
  | pending, 92 :: b :: rest => pending.elim [] utf8Bytes ++ escaped b :: unescapeFrom none rest
  | pending, b :: rest => pending.elim [] utf8Bytes ++ b :: unescapeFrom none rest

/-- What a string says. -/
def unescape (body : List UInt8) : List UInt8 := unescapeFrom none body

/-- A string without escapes says what is written. -/
theorem unescape_of_notMem (h : 92 ∉ body) : unescape body = body := by
  induction body with
  | nil => rfl
  | cons b body ih =>
    rw [List.mem_cons, not_or] at h
    rw [unescape] at ih ⊢
    rw [unescapeFrom, ih h.2]
    · rfl
    · rintro _ _ _ _ _ rfl
      exact fun _ => h.1 rfl
    · rintro _ _ rfl
      exact fun _ => h.1 rfl

example : unescape (ascii "\\u00e9\\ud83d\\ude00\\n") = [0xC3, 0xA9, 0xF0, 0x9F, 0x98, 0x80, 10] := by decide

/-! ### Documents that agree outside secret members -/

/-- What a value is. -/
inductive Kind where
  | null
  | bool
  | number
  | string
  | array
  | object
  deriving DecidableEq, Repr

/-- The kind of a document. -/
def kind : JsonDoc → Kind
  | .literal text =>
      if text = ascii "null" then .null
      else if text = ascii "true" ∨ text = ascii "false" then .bool
      else .number
  | .string _ => .string
  | .array _ _ => .array
  | .object _ _ => .object

section Agree

variable (L : List UInt8 → List UInt8 → Prop) (secret : List UInt8 → Bool) (R : JsonDoc → JsonDoc → Prop)

mutual

/-- The documents have the same structure and content, but under secret names, where they are related by `R`. Their
blanks are related by `L`. -/
def Agree : JsonDoc → JsonDoc → Prop
  | .array blank items, .array blank' items' => L blank blank' ∧ AgreeItems items items'
  | .object blank members, .object blank' members' => L blank blank' ∧ AgreeMembers members members'
  | d, e => d = e

/-- `Agree` for the items of an array. -/
def AgreeItems : List (JsonItem JsonDoc) → List (JsonItem JsonDoc) → Prop
  | [], [] => True
  | item :: items, item' :: items' =>
      (L item.before item'.before ∧ Agree item.value item'.value ∧ L item.after item'.after) ∧
        AgreeItems items items'
  | _, _ => False

/-- `Agree` for the members of an object: the names are the same and in the same order. -/
def AgreeMembers : List (JsonMember JsonDoc) → List (JsonMember JsonDoc) → Prop
  | [], [] => True
  | m :: members, m' :: members' =>
      (L m.before m'.before ∧ m.name = m'.name ∧ L m.beforeColon m'.beforeColon ∧ L m.afterColon m'.afterColon ∧
        (if secret m.name then R m.value m'.value else Agree m.value m'.value) ∧ L m.after m'.after) ∧
        AgreeMembers members members'
  | _, _ => False

end

/-- `Agree` for one item. -/
structure AgreeItem (item item' : JsonItem JsonDoc) : Prop where
  before : L item.before item'.before
  value : Agree L secret R item.value item'.value
  after : L item.after item'.after

/-- `Agree` for one member. -/
structure AgreeMember (m m' : JsonMember JsonDoc) : Prop where
  before : L m.before m'.before
  name : m.name = m'.name
  beforeColon : L m.beforeColon m'.beforeColon
  afterColon : L m.afterColon m'.afterColon
  value : if secret m.name then R m.value m'.value else Agree L secret R m.value m'.value
  after : L m.after m'.after

variable {L secret R}

theorem agreeItems_iff {items items' : List (JsonItem JsonDoc)} :
    AgreeItems L secret R items items' ↔ List.Forall₂ (AgreeItem L secret R) items items' := by
  induction items generalizing items' with
  | nil => cases items' <;> simp [AgreeItems]
  | cons item items ih =>
    cases items' with
    | nil => simp [AgreeItems]
    | cons item' items' =>
      rw [AgreeItems, List.forall₂_cons, ih]
      refine and_congr_left fun _ => ⟨fun ⟨hbefore, hvalue, hafter⟩ => ⟨hbefore, hvalue, hafter⟩, ?_⟩
      exact fun hitem => ⟨hitem.before, hitem.value, hitem.after⟩

theorem agreeMembers_iff {members members' : List (JsonMember JsonDoc)} :
    AgreeMembers L secret R members members' ↔ List.Forall₂ (AgreeMember L secret R) members members' := by
  induction members generalizing members' with
  | nil => cases members' <;> simp [AgreeMembers]
  | cons m members ih =>
    cases members' with
    | nil => simp [AgreeMembers]
    | cons m' members' =>
      rw [AgreeMembers, List.forall₂_cons, ih]
      refine and_congr_left fun _ => ⟨?_, ?_⟩
      · rintro ⟨hbefore, hname, hcolon, hcolon', hvalue, hafter⟩
        exact ⟨hbefore, hname, hcolon, hcolon', hvalue, hafter⟩
      · intro hm
        exact ⟨hm.before, hm.name, hm.beforeColon, hm.afterColon, hm.value, hm.after⟩

variable {e : JsonDoc}

theorem agree_array_iff {blank : List UInt8} {items : List (JsonItem JsonDoc)} :
    Agree L secret R (.array blank items) e ↔
      ∃ blank' items', e = .array blank' items' ∧ L blank blank' ∧
        List.Forall₂ (AgreeItem L secret R) items items' := by
  cases e with
  | array blank' items' => simp [Agree, agreeItems_iff]
  | _ => simp [Agree]

theorem agree_object_iff {blank : List UInt8} {members : List (JsonMember JsonDoc)} :
    Agree L secret R (.object blank members) e ↔
      ∃ blank' members', e = .object blank' members' ∧ L blank blank' ∧
        List.Forall₂ (AgreeMember L secret R) members members' := by
  cases e with
  | object blank' members' => simp [Agree, agreeMembers_iff]
  | _ => simp [Agree]

theorem agree_literal_iff {text : List UInt8} : Agree L secret R (.literal text) e ↔ e = .literal text := by
  cases e <;> simp [Agree, eq_comm]

theorem agree_string_iff {body : List UInt8} : Agree L secret R (.string body) e ↔ e = .string body := by
  cases e <;> simp [Agree, eq_comm]

end Agree

end JsonDoc
