import CGateway.Lib.Json
import CGateway.Lib.JsonDoc
import CGateway.Lib.Search

/-! # The members of a JSON document

A parser finds a member by its name: the last one of the name, in the object it is asked for. A search in the text for
a name in quotation marks with a colon behind it finds the first one of the whole document, at whatever depth, if its
colon is where it is expected.

* `value`, `member?` — the value of a document, and of a member by its name;
* `allMembers` — the members of a document at all depths, in the order of the text;
* `behindKey_quoted`, `behind_quoted` — a quoted text is a match where it ends with the name and the colon follows;
* `walk_contains` — a search for a name in quotation marks, with anything behind it;
* `Reads` — what a member must look like to be found, and what is found then;
* `behind_text` — the search finds the first member of the document that looks so. -/

namespace JsonDoc

open Bytes CString JsonText

/-! ### Documents as values -/

section Value

variable (number : List UInt8 → ℤ ⊕ UInt64)

mutual

/-- The value of a document, given what its numbers are. -/
def value : JsonDoc → Json
  | .literal text =>
      if text = ascii "null" then .null
      else if text = ascii "true" then .bool true
      else if text = ascii "false" then .bool false
      else (number text).elim .integer .real
  | .string body => .string (unescape body)
  | .array _ items => .array (itemValues items)
  | .object _ members => .object (memberValues members [])

/-- The values of the items of an array. -/
def itemValues : List (JsonItem JsonDoc) → List Json
  | [] => []
  | item :: items => item.value.value :: itemValues items

/-- The members of an object, set one after the other. -/
def memberValues : List (JsonMember JsonDoc) → Json.Members → Json.Members
  | [], acc => acc
  | m :: members, acc => memberValues members (Json.setMember (unescape m.name) m.value.value acc)

end

/-- The last of the members with this name. -/
def lastMember? (key : List UInt8) (members : List (JsonMember JsonDoc)) : Option (JsonMember JsonDoc) :=
  (members.filter fun m => unescape m.name == key).getLast?

/-- The member of an object with this name. -/
def member? (key : List UInt8) : JsonDoc → Option JsonDoc
  | .object _ members => (lastMember? key members).map (·.value)
  | _ => none

theorem lookup_memberValues (key : List UInt8) (members : List (JsonMember JsonDoc)) (acc : Json.Members) :
    Json.lookup (memberValues number members acc) key
      = ((lastMember? key members).map fun m => m.value.value number).or (Json.lookup acc key) := by
  induction members generalizing acc with
  | nil => rfl
  | cons m members ih =>
    rw [memberValues, ih]
    by_cases hname : unescape m.name = key
    · have hlast : lastMember? key (m :: members) = some ((lastMember? key members).getD m) := by
        rw [lastMember?, List.filter_cons_of_pos (by rwa [beq_iff_eq]), List.getLast?_cons]
        rfl
      rw [hlast, hname, Json.lookup_setMember_self]
      cases lastMember? key members <;> rfl
    · have hlast : lastMember? key (m :: members) = lastMember? key members := by
        rw [lastMember?, List.filter_cons_of_neg (by rwa [beq_iff_eq])]
        rfl
      rw [hlast, Json.lookup_setMember_of_ne (Ne.symm hname)]

/-- **A member of the value** is the value of the member. -/
theorem get?_value (d : JsonDoc) (key : List UInt8) :
    (d.value number).get? key = (d.member? key).map (value number) := by
  cases d with
  | literal text =>
    rw [value]
    split_ifs
    · rfl
    · rfl
    · rfl
    · cases number text <;> rfl
  | string body => rfl
  | array blank items => rfl
  | object blank members =>
    rw [value, Json.get?, lookup_memberValues, member?, Option.map_map]
    exact Option.or_none

end Value

mutual

/-- The members of a document, at all depths, in the order of the text. -/
def allMembers : JsonDoc → List (JsonMember JsonDoc)
  | .literal _ => []
  | .string _ => []
  | .array _ items => itemsMembers items
  | .object _ members => nestedMembers members

/-- The members within the items of an array. -/
def itemsMembers : List (JsonItem JsonDoc) → List (JsonMember JsonDoc)
  | [] => []
  | item :: items => item.value.allMembers ++ itemsMembers items

/-- The members of an object, each with those within its value. -/
def nestedMembers : List (JsonMember JsonDoc) → List (JsonMember JsonDoc)
  | [] => []
  | m :: members => m :: (m.value.allMembers ++ nestedMembers members)

end

/-! ### A quoted text in a search -/

/-- A name to search for. -/
structure IsKey (key : List UInt8) : Prop where
  quote : 34 ∉ key
  escape : 92 ∉ key
  first : ∃ b rest, key = b :: rest ∧ isLiteralByte b = true

/-- The name in quotation marks, the colon, and the first bytes behind it. -/
def namePattern (key tail : List UInt8) : List UInt8 := 34 :: (key ++ 34 :: 58 :: tail)

/-- No name and no colon begins here. -/
def Closes (rest : List UInt8) : Prop := ∀ b ∈ rest.head?, isLiteralByte b = false ∧ b ≠ 58

theorem closes_cons {b : UInt8} (h : isLiteralByte b = false) (hcolon : b ≠ 58) (rest : List UInt8) :
    Closes (b :: rest) := by
  rintro _ ⟨⟩
  exact ⟨h, hcolon⟩

theorem closes_blanks {blanks rest : List UInt8} (h : ∀ b ∈ blanks, isBlank b = true) (hrest : Closes rest) :
    Closes (blanks ++ rest) := by
  cases blanks with
  | nil => exact hrest
  | cons b blanks =>
    have hb := h b List.mem_cons_self
    exact closes_cons (isLiteralByte_of_isBlank hb) (ne_of_isBlank hb).2.2.1 (blanks ++ rest)

/-- What stands behind a part, up to the end of its container. -/
theorem closes_comma {α : Type} (parts : List α) (partsText : List UInt8) (hempty : parts = [] → partsText = [])
    {close : UInt8} (hclose : isLiteralByte close = false) (hcolon : close ≠ 58) (rest : List UInt8) :
    Closes (comma parts ++ (partsText ++ close :: rest)) := by
  cases parts with
  | nil =>
    rw [hempty rfl]
    exact closes_cons hclose hcolon rest
  | cons part parts => exact closes_cons (by decide) (by decide) _

theorem read_text {b : UInt8} {next : Inside} (h : Inside.text.read b = some next) (hb : b ≠ 92) :
    b ≠ 34 ∧ next = .text := by
  simp only [Inside.read] at h
  split_ifs at h with hquote
  exact ⟨hquote, (Option.some.inj h).symm⟩

/-- A text in quotation marks is the name up to a quotation mark only if it is the whole name. -/
theorem key_prefix_iff {key u more rest : List UInt8} (hquote : 34 ∉ key) (hescape : 92 ∉ key)
    (hu : u.foldlM Inside.read .text = some .text) :
    key ++ 34 :: more <+: u ++ 34 :: rest ↔ u = key ∧ more <+: rest := by
  induction key generalizing u with
  | nil =>
    cases u with
    | nil => simp
    | cons c u =>
      -- The next quotation mark within the text is behind a backslash.
      have hc : c ≠ 34 := by
        rintro rfl
        cases hu
      simp [hc.symm]
  | cons k key ih =>
    rw [List.mem_cons, not_or] at hquote hescape
    cases u with
    | nil => simp [Ne.symm hquote.1]
    | cons c u =>
      rw [List.cons_append, List.cons_append, List.cons_prefix_cons, List.cons.injEq]
      by_cases hck : c = k
      · subst hck
        rw [List.foldlM_cons] at hu
        obtain ⟨next, hread, hrest⟩ := Option.bind_eq_some_iff.mp hu
        obtain ⟨-, rfl⟩ := read_text hread (Ne.symm hescape.1)
        rw [ih hquote.2 hescape.2 hrest]
        simp
      · simp [hck, Ne.symm hck]

section Quoted

variable {key more tail : List UInt8}

/-- The name in quotation marks, and more behind it. -/
def quotePattern (key more : List UInt8) : List UInt8 := 34 :: (key ++ 34 :: more)

/-- The text ends with the name behind a quotation mark, and more follows. -/
def EndsWithKey (key more u rest : List UInt8) : Prop := (34 :: key) <:+ u ∧ more <+: rest

instance (u rest : List UInt8) : Decidable (EndsWithKey key more u rest) :=
  inferInstanceAs (Decidable (_ ∧ _))

/-- What a search finds behind the name, or further on. -/
def behindKey (key more u rest : List UInt8) : Option (List UInt8) :=
  if EndsWithKey key more u rest then some (rest.drop more.length) else behind (quotePattern key more) rest

/-- One more quotation mark in front. -/
theorem behindKey_quote (hkey : IsKey key) {u rest : List UInt8} (hu : u.foldlM Inside.read .text = some .text)
    (hgo : behind (quotePattern key more) (u ++ 34 :: rest) = behindKey key more u rest) :
    behind (quotePattern key more) (34 :: (u ++ 34 :: rest)) = behindKey key more (34 :: u) rest := by
  have hmatch : (quotePattern key more).isPrefixOf (34 :: (u ++ 34 :: rest)) = true ↔ u = key ∧ more <+: rest := by
    rw [List.isPrefixOf_iff_prefix, quotePattern, List.cons_prefix_cons, key_prefix_iff hkey.quote hkey.escape hu]
    simp
  -- The search stops at this mark only if all of the text behind it is the name.
  by_cases h : u = key ∧ more <+: rest
  · have hends : EndsWithKey key more (34 :: u) rest := ⟨h.1 ▸ List.suffix_refl _, h.2⟩
    rw [behind, splitFirst, if_pos (hmatch.mpr h), Option.map_some, behindKey, if_pos hends, h.1, quotePattern]
    simp
  · have hends : EndsWithKey key more (34 :: u) rest ↔ EndsWithKey key more u rest := by
      rw [EndsWithKey, EndsWithKey, List.suffix_cons_iff, List.cons.injEq]
      constructor
      · rintro ⟨⟨-, heq⟩ | hsuffix, hmore⟩
        · exact absurd ⟨heq.symm, hmore⟩ h
        · exact ⟨hsuffix, hmore⟩
      · rintro ⟨hsuffix, hmore⟩
        exact ⟨.inr hsuffix, hmore⟩
    rw [behind_cons_of_not (Bool.eq_false_iff.mpr (mt hmatch.mp h)), hgo, behindKey, behindKey, if_congr hends rfl rfl]

/-- The rest of a quoted text: a match begins at one of its quotation marks, which are behind backslashes. -/
theorem behindKey_body (hkey : IsKey key) {inside : Inside} {u rest : List UInt8}
    (hu : u.foldlM Inside.read inside = some .text) (hrest : Ends rest) :
    behind (quotePattern key more) (u ++ 34 :: rest) = behindKey key more u rest := by
  induction u generalizing inside with
  | nil =>
    have hends : ¬EndsWithKey key more [] rest := fun h => by simpa using h.1
    have hnot : (quotePattern key more).isPrefixOf (34 :: rest) = false := by
      obtain ⟨b, name, rfl, hb⟩ := hkey.first
      rw [Bool.eq_false_iff, Ne, List.isPrefixOf_iff_prefix, quotePattern, List.cons_prefix_cons]
      rintro ⟨-, hstart⟩
      cases rest with
      | nil => simp at hstart
      | cons c rest =>
        rw [List.cons_append, List.cons_prefix_cons] at hstart
        exact absurd (hb.symm.trans (hstart.1 ▸ hrest c rfl)) (by decide)
    rw [List.nil_append, behind_cons_of_not hnot, behindKey, if_neg hends]
  | cons b u ih =>
    rw [List.foldlM_cons] at hu
    obtain ⟨next, hread, hnext⟩ := Option.bind_eq_some_iff.mp hu
    by_cases hb : b = 34
    · -- A quotation mark within the text is behind a backslash, and plain text follows.
      subst hb
      obtain rfl := Inside.eq_escape_of_read hread
      obtain rfl := Option.some.inj hread
      exact behindKey_quote hkey hnext (ih hnext)
    · have hnot : (quotePattern key more).isPrefixOf (b :: (u ++ 34 :: rest)) = false := by
        rw [Bool.eq_false_iff, Ne, List.isPrefixOf_iff_prefix, quotePattern, List.cons_prefix_cons]
        exact fun h => hb h.1.symm
      have hends : EndsWithKey key more (b :: u) rest ↔ EndsWithKey key more u rest := by
        rw [EndsWithKey, EndsWithKey, List.suffix_cons_iff, List.cons.injEq]
        simp [Ne.symm hb]
      rw [List.cons_append, behind_cons_of_not hnot, ih hnext, behindKey, behindKey, if_congr hends rfl rfl]

/-- **A quoted text** is a match where it ends with the name and what is searched for follows. -/
theorem behindKey_quoted (hkey : IsKey key) {body rest : List UInt8} (hbody : isBody body = true)
    (hrest : Ends rest) :
    behind (quotePattern key more) (34 :: (body ++ 34 :: rest)) = behindKey key more (34 :: body) rest :=
  behindKey_quote hkey (foldlM_of_isBody hbody) (behindKey_body hkey (foldlM_of_isBody hbody) hrest)

/-- The text ends with the name behind a quotation mark, and the colon follows. -/
def EndsWithName (key tail u rest : List UInt8) : Prop := (34 :: key) <:+ u ∧ (58 :: tail) <+: rest

instance (u rest : List UInt8) : Decidable (EndsWithName key tail u rest) :=
  inferInstanceAs (Decidable (_ ∧ _))

/-- What a search finds behind the name, or further on. -/
def behindName (key tail u rest : List UInt8) : Option (List UInt8) :=
  if EndsWithName key tail u rest then some (rest.drop (tail.length + 1)) else behind (namePattern key tail) rest

/-- A quoted text is a match where it ends with the name and the colon follows. -/
theorem behind_quoted (hkey : IsKey key) {body rest : List UInt8} (hbody : isBody body = true)
    (hrest : ∀ b ∈ rest.head?, isLiteralByte b = false) :
    behind (namePattern key tail) (34 :: (body ++ 34 :: rest)) = behindName key tail (34 :: body) rest :=
  behindKey_quoted hkey hbody hrest

/-- A text without quotation marks. -/
theorem behind_unquoted {s : List UInt8} (h : 34 ∉ s) (rest : List UInt8) :
    behind (namePattern key tail) (s ++ rest) = behind (namePattern key tail) rest :=
  Skips.behind_eq (skips_of_notMem h) rest

end Quoted

/-! ### A quoted name anywhere -/

/-- Some of the texts ends with the name, behind its quotation mark or behind one within it. -/
def quotesName (key : List UInt8) (bodies : List (List UInt8)) : Bool :=
  bodies.any fun body => (34 :: key).isSuffixOf (34 :: body)

/-- A text without quotation marks in a search for a quoted name. -/
theorem contains_unquoted (key : List UInt8) {s : List UInt8} (h : 34 ∉ s) (rest : List UInt8) :
    contains (quotePattern key []) (s ++ rest) = contains (quotePattern key []) rest := by
  rw [contains_eq_isSome, contains_eq_isSome, quotePattern, Skips.behind_eq (skips_of_notMem h)]

/-- A quoted text in a search for a quoted name. -/
theorem contains_quoted {key : List UInt8} (hkey : IsKey key) {body rest : List UInt8} (hbody : isBody body = true)
    (hrest : Ends rest) :
    contains (quotePattern key []) (34 :: (body ++ 34 :: rest))
      = (quotesName key [body] || contains (quotePattern key []) rest) := by
  rw [contains_eq_isSome, contains_eq_isSome, behindKey_quoted hkey hbody hrest, behindKey]
  have hends : EndsWithKey key [] (34 :: body) rest ↔ quotesName key [body] = true := by
    simp [EndsWithKey, quotesName]
  rw [if_congr hends rfl rfl]
  cases quotesName key [body] <;> rfl

/-- **A search for a quoted name** in a document finds the texts that end with the name. -/
theorem walk_contains {key : List UInt8} (hkey : IsKey key) : Walk fun part bodies rest =>
    contains (quotePattern key []) (part ++ rest)
      = (quotesName key bodies || contains (quotePattern key []) rest) where
  plain part rest hpart := by
    refine contains_unquoted key (fun hmem => ?_) rest
    exact absurd (hpart 34 hmem) (by decide)
  quoted body rest hbody hrest := by
    rw [List.cons_append, List.append_assoc]
    exact contains_quoted hkey hbody hrest
  append u v us vs rest hu hv := by
    rw [List.append_assoc, hu, hv, quotesName, quotesName, quotesName, List.any_append, Bool.or_assoc]
  brackets inner bodies rest h := by
    have hopen := contains_unquoted key (s := [91]) (by decide) (inner ++ 93 :: rest)
    have hclose := contains_unquoted key (s := [93]) (by decide) rest
    simp only [List.singleton_append] at hopen hclose
    rw [List.cons_append, List.append_assoc, List.singleton_append, hopen, h, hclose]
  braces inner bodies rest h := by
    have hopen := contains_unquoted key (s := [123]) (by decide) (inner ++ 125 :: rest)
    have hclose := contains_unquoted key (s := [125]) (by decide) rest
    simp only [List.singleton_append] at hopen hclose
    rw [List.cons_append, List.append_assoc, List.singleton_append, hopen, h, hclose]

/-! ### A document in a search -/

/-- The text behind a name, up to the value, and what comes then. -/
def colonText (m : JsonMember JsonDoc) (more : List UInt8) : List UInt8 :=
  m.beforeColon ++ 58 :: (m.afterColon ++ (m.value.text ++ more))

/-- The name is written at the end of the member's name, behind its quotation mark or behind one within it. -/
def writesName (key : List UInt8) (m : JsonMember JsonDoc) : Bool := (34 :: key).isSuffixOf (34 :: m.name)

section Search

variable {β : Type}

/-- How a member must be written to be found (`seen`), and what is then read behind its name (`result`). -/
structure Reads (tail : List UInt8) (found : List UInt8 → β) (seen : JsonMember JsonDoc → Bool)
    (result : JsonMember JsonDoc → β) : Prop where
  seen_iff : ∀ m more, MemberWellFormed m → Closes more → (58 :: tail <+: colonText m more ↔ seen m = true)
  found_eq : ∀ m more, MemberWellFormed m → Closes more → seen m = true →
    found ((colonText m more).drop (tail.length + 1)) = result m

variable {key tail : List UInt8} {found : List UInt8 → β} {seen : JsonMember JsonDoc → Bool}
  {result : JsonMember JsonDoc → β}

/-- What is found in some members. -/
def firstSeen (key : List UInt8) (seen : JsonMember JsonDoc → Bool) (result : JsonMember JsonDoc → β)
    (members : List (JsonMember JsonDoc)) : Option β :=
  (members.find? fun m => writesName key m && seen m).map result

theorem firstSeen_append (members members' : List (JsonMember JsonDoc)) :
    firstSeen key seen result (members ++ members')
      = (firstSeen key seen result members).or (firstSeen key seen result members') := by
  rw [firstSeen, List.find?_append, Option.map_or]
  rfl

/-- A search passes from a part of a document to what is behind it. -/
def Searched (key tail : List UInt8) (found : List UInt8 → β) (seen : JsonMember JsonDoc → Bool)
    (result : JsonMember JsonDoc → β) (part rest : List UInt8) (members : List (JsonMember JsonDoc)) : Prop :=
  (behind (namePattern key tail) (part ++ rest)).map found
    = (firstSeen key seen result members).or ((behind (namePattern key tail) rest).map found)

/-- The name of a member. -/
theorem searched_name (hkey : IsKey key) (hreads : Reads tail found seen result) {m : JsonMember JsonDoc}
    (hm : MemberWellFormed m) {more : List UInt8} (hmore : Closes more) :
    (behind (namePattern key tail) (34 :: (m.name ++ 34 :: colonText m more))).map found
      = (firstSeen key seen result [m]).or
          ((behind (namePattern key tail) (m.value.text ++ more)).map found) := by
  have hhead : ∀ b ∈ (colonText m more).head?, isLiteralByte b = false := by
    intro b hb
    rw [colonText] at hb
    cases hblank : m.beforeColon with
    | nil =>
      rw [hblank] at hb
      obtain rfl := Option.some.inj hb
      rfl
    | cons c blanks =>
      rw [hblank] at hb
      obtain rfl := Option.some.inj hb
      exact isLiteralByte_of_isBlank (hm.beforeColon c (by rw [hblank]; exact List.mem_cons_self))
  have hends : EndsWithName key tail (34 :: m.name) (colonText m more) ↔ (writesName key m && seen m) = true := by
    rw [EndsWithName, hreads.seen_iff m more hm hmore, Bool.and_eq_true, writesName, List.isSuffixOf_iff_suffix]
  rw [behind_quoted hkey hm.name hhead, behindName, if_congr hends rfl rfl]
  cases hseen : writesName key m && seen m with
  | true =>
    rw [Bool.and_eq_true] at hseen
    rw [if_pos rfl, Option.map_some, hreads.found_eq m more hm hmore hseen.2, firstSeen]
    simp [hseen]
  | false =>
    have hgo : behind (namePattern key tail) (colonText m more)
        = behind (namePattern key tail) (m.value.text ++ more) := by
      rw [colonText, behind_unquoted (quote_notMem_blanks hm.beforeColon), ← List.singleton_append,
        behind_unquoted (by decide), behind_unquoted (quote_notMem_blanks hm.afterColon)]
    rw [if_neg Bool.false_ne_true, hgo, firstSeen, List.find?_cons_of_neg (by rw [hseen]; decide)]
    rfl

/-- The items of an array, up to its closing bracket. -/
theorem searched_items {items : List (JsonItem JsonDoc)} (hitems : ∀ item ∈ items, ItemWellFormed item)
    (hvalues : ∀ item ∈ items, ∀ rest, Closes rest →
      Searched key tail found seen result item.value.text rest item.value.allMembers) (rest : List UInt8) :
    Searched key tail found seen result (itemsText items) (93 :: rest) (itemsMembers items) := by
  induction items with
  | nil => rfl
  | cons item items ih =>
    rw [List.forall_mem_cons] at hitems hvalues
    have hgo := ih hitems.2 hvalues.2
    have hcloses : Closes (item.after ++ (comma items ++ (itemsText items ++ 93 :: rest))) := by
      refine closes_blanks hitems.1.after (closes_comma items _ ?_ (by decide) (by decide) rest)
      rintro rfl
      rfl
    have hvalue := hvalues.1 _ hcloses
    rw [Searched] at hgo hvalue ⊢
    simp only [itemsText, List.append_assoc]
    rw [behind_unquoted (quote_notMem_blanks hitems.1.before), hvalue,
      behind_unquoted (quote_notMem_blanks hitems.1.after), behind_unquoted (quote_notMem_comma items), hgo,
      itemsMembers, firstSeen_append, Option.or_assoc]

/-- The members of an object, up to its closing brace. -/
theorem searched_members (hkey : IsKey key) (hreads : Reads tail found seen result)
    {members : List (JsonMember JsonDoc)} (hmembers : ∀ m ∈ members, MemberWellFormed m)
    (hvalues : ∀ m ∈ members, ∀ rest, Closes rest →
      Searched key tail found seen result m.value.text rest m.value.allMembers) (rest : List UInt8) :
    Searched key tail found seen result (membersText members) (125 :: rest) (nestedMembers members) := by
  induction members with
  | nil => rfl
  | cons m members ih =>
    rw [List.forall_mem_cons] at hmembers hvalues
    have hgo := ih hmembers.2 hvalues.2
    have hcloses : Closes (m.after ++ (comma members ++ (membersText members ++ 125 :: rest))) := by
      refine closes_blanks hmembers.1.after (closes_comma members _ ?_ (by decide) (by decide) rest)
      rintro rfl
      rfl
    have hvalue := hvalues.1 _ hcloses
    have hname := searched_name hkey hreads hmembers.1 hcloses
    have htext : membersText (m :: members) ++ 125 :: rest = m.before ++ (34 :: (m.name ++ 34 ::
        colonText m (m.after ++ (comma members ++ (membersText members ++ 125 :: rest))))) := by
      simp [membersText, colonText]
    have hmembers' : nestedMembers (m :: members) = [m] ++ (m.value.allMembers ++ nestedMembers members) := rfl
    -- The member itself, then those within its value, then the others.
    rw [Searched] at hgo hvalue ⊢
    rw [htext, behind_unquoted (quote_notMem_blanks hmembers.1.before), hname, hvalue,
      behind_unquoted (quote_notMem_blanks hmembers.1.after), behind_unquoted (quote_notMem_comma members), hgo,
      hmembers', firstSeen_append, firstSeen_append, Option.or_assoc, Option.or_assoc]

/-- **A document in a search**: what is found is at its first member that looks as expected, or behind it. -/
theorem searched_text (hkey : IsKey key) (hreads : Reads tail found seen result) {d : JsonDoc}
    (hd : d.isWellFormed = true) {rest : List UInt8} (hrest : Closes rest) :
    Searched key tail found seen result d.text rest d.allMembers := by
  induction d using JsonDoc.induction generalizing rest with
  | literal text =>
    have hquote : 34 ∉ text := fun hmem => (ne_of_isLiteralByte (isLiteralByte_of_mem hd hmem)).2.1 rfl
    rw [Searched, JsonDoc.text, behind_unquoted hquote]
    rfl
  | string body =>
    have hhead : ∀ b ∈ rest.head?, isLiteralByte b = false := fun b hb => (hrest b hb).1
    -- A string ends like a name, but no colon is behind it.
    have hends : ¬EndsWithName key tail (34 :: body) rest := by
      rintro ⟨-, ⟨more, rfl⟩⟩
      exact (hrest 58 rfl).2 rfl
    rw [Searched, JsonDoc.text, List.cons_append, List.append_assoc, List.singleton_append,
      behind_quoted hkey hd hhead, behindName, if_neg hends]
    rfl
  | array blank items ih =>
    obtain ⟨hblank, hitems⟩ := isWellFormed_array_iff.mp hd
    have hall := searched_items hitems
      (fun item hitem rest hrest => ih item hitem (hitems item hitem).value hrest) rest
    have htext : text (.array blank items) ++ rest = [91] ++ (blank ++ (itemsText items ++ 93 :: rest)) := by
      simp [text]
    rw [Searched] at hall ⊢
    rw [htext, behind_unquoted (by decide), behind_unquoted (quote_notMem_blanks hblank), hall,
      ← List.singleton_append, behind_unquoted (by decide), allMembers]
  | object blank members ih =>
    obtain ⟨hblank, hmembers⟩ := isWellFormed_object_iff.mp hd
    have hall := searched_members hkey hreads hmembers
      (fun m hm rest hrest => ih m hm (hmembers m hm).value hrest) rest
    have htext : text (.object blank members) ++ rest = [123] ++ (blank ++ (membersText members ++ 125 :: rest)) := by
      simp [text]
    rw [Searched] at hall ⊢
    rw [htext, behind_unquoted (by decide), behind_unquoted (quote_notMem_blanks hblank), hall,
      ← List.singleton_append, behind_unquoted (by decide), allMembers]

/-- **The text of a document in a search**, with blanks around it. -/
theorem behind_text (hkey : IsKey key) (hreads : Reads tail found seen result) {d : JsonDoc}
    (hd : d.isWellFormed = true) {before after : List UInt8} (hbefore : ∀ b ∈ before, isBlank b = true)
    (hafter : ∀ b ∈ after, isBlank b = true) :
    (behind (namePattern key tail) (before ++ (d.text ++ after))).map found
      = firstSeen key seen result d.allMembers := by
  have hcloses : Closes (after ++ []) := closes_blanks hafter fun b hb => by cases hb
  have hne : namePattern key tail ≠ [] := List.cons_ne_nil 34 _
  have hsearch := searched_text hkey hreads hd hcloses
  rw [Searched, behind_unquoted (quote_notMem_blanks hafter), behind_nil hne, List.append_nil] at hsearch
  rw [behind_unquoted (quote_notMem_blanks hbefore), hsearch]
  exact Option.or_none

end Search

end JsonDoc
