import CGateway.Lib.JsonDoc
import CGateway.Log.Scanner

/-! # What the log sanitizer makes of a JSON document

The scanner of `jsonl_sanitize_json` takes every quoted text for a key, ends a string at the next quotation mark and
any other value at the next comma or bracket. On the documents where that comes to the same as the grammar it masks
the values of the sensitive members; on others it lets secrets through, or breaks the text.

* `isScannable` — the documents on which the scanner keeps to the grammar;
* `maskedText`, `scan_text` — what it writes for them;
* `secrets_hidden` — two of them that differ in their secrets only have the same output;
* `masked`, `sanitized_document` — where no value has a sensitive word in it either, the output is the document with
  its secrets replaced. -/

namespace CGateway

open Bytes CString JsonDoc JsonText Sanitizer

/-- The name of a member says a sensitive word. -/
def isSecretName (name : List UInt8) : Bool := jsonlIsSensitiveKey (unescape name)

/-! ### Documents that are scanned by their grammar -/

/-- A quoted text that the scanner reads whole: without a quotation mark in it, and short enough for its key. -/
def isShort (body : List UInt8) : Bool := !body.contains 34 && body.length ≤ 63

/-- A value whose end the scanner finds. -/
def isMaskable : JsonDoc → Bool
  | .literal _ => true
  | .string body => !body.contains 34
  | _ => false

section Scannable

variable (allowed : List UInt8 → Bool)

mutual

/-- The scanner keeps to the grammar: it reads the quoted texts whole, there are blanks only around the colon of a
sensitive member, and it finds the end of its value. Names have no escapes, and the strings among the other values are
`allowed` ones. -/
def isScannable : JsonDoc → Bool
  | .literal _ => true
  | .string body => isShort body && allowed body
  | .array _ items => itemsScannable items
  | .object _ members => membersScannable members

/-- `isScannable` for the items of an array. -/
def itemsScannable : List (JsonItem JsonDoc) → Bool
  | [] => true
  | item :: items => isScannable item.value && itemsScannable items

/-- `isScannable` for the members of an object. -/
def membersScannable : List (JsonMember JsonDoc) → Bool
  | [] => true
  | m :: members =>
      isShort m.name && !m.name.contains 92 &&
        (if jsonlIsSensitiveKey m.name then
          m.beforeColon.all (· == 32) && m.afterColon.all (· == 32) && isMaskable m.value
        else isScannable m.value) && membersScannable members

end

/-- A member of a document that is scanned by its grammar. -/
structure MemberScannable (m : JsonMember JsonDoc) : Prop where
  short : isShort m.name = true
  plain : 92 ∉ m.name
  secret : jsonlIsSensitiveKey m.name = true →
    (∀ b ∈ m.beforeColon, b = 32) ∧ (∀ b ∈ m.afterColon, b = 32) ∧ isMaskable m.value = true
  value : jsonlIsSensitiveKey m.name = false → isScannable allowed m.value = true

variable {allowed}

theorem isScannable_array_iff {blank : List UInt8} {items : List (JsonItem JsonDoc)} :
    isScannable allowed (.array blank items) = true ↔ ∀ item ∈ items, isScannable allowed item.value = true := by
  rw [isScannable]
  induction items with
  | nil => simp [itemsScannable]
  | cons item items ih => rw [itemsScannable, Bool.and_eq_true, ih, List.forall_mem_cons]

theorem isScannable_object_iff {blank : List UInt8} {members : List (JsonMember JsonDoc)} :
    isScannable allowed (.object blank members) = true ↔ ∀ m ∈ members, MemberScannable allowed m := by
  rw [isScannable]
  induction members with
  | nil => simp [membersScannable]
  | cons m members ih =>
    rw [membersScannable, Bool.and_eq_true, ih, List.forall_mem_cons]
    refine and_congr_left fun _ => ?_
    rw [Bool.and_eq_true, Bool.and_eq_true, Bool.not_eq_true', List.contains_eq_mem, decide_eq_false_iff_not]
    cases hsensitive : jsonlIsSensitiveKey m.name with
    | true =>
      simp only [if_true, Bool.and_eq_true, List.all_eq_true, beq_iff_eq]
      constructor
      · rintro ⟨⟨hshort, hplain⟩, ⟨hbefore, hafter⟩, hvalue⟩
        exact ⟨hshort, hplain, fun _ => ⟨hbefore, hafter, hvalue⟩,
          fun h => absurd (hsensitive.symm.trans h) (by decide)⟩
      · intro h
        obtain ⟨hbefore, hafter, hvalue⟩ := h.secret hsensitive
        exact ⟨⟨h.short, h.plain⟩, ⟨hbefore, hafter⟩, hvalue⟩
    | false =>
      simp only [Bool.false_eq_true, if_false]
      constructor
      · rintro ⟨⟨hshort, hplain⟩, hvalue⟩
        exact ⟨hshort, hplain, fun h => absurd (hsensitive.symm.trans h) (by decide), fun _ => hvalue⟩
      · intro h
        exact ⟨⟨h.short, h.plain⟩, h.value hsensitive⟩

theorem of_isShort {body : List UInt8} (h : isShort body = true) : 34 ∉ body ∧ body.length ≤ 63 := by
  rw [isShort, Bool.and_eq_true, Bool.not_eq_true', List.contains_eq_mem, decide_eq_false_iff_not,
    decide_eq_true_eq] at h
  exact h

end Scannable

/-! ### The output -/

/-- What is written for the value of a sensitive member and the blanks behind it: those behind a value that is no
string are skipped with it. -/
def maskedSecret : JsonDoc → List UInt8 → List UInt8
  | .string _, after => valueMask ++ after
  | _, _ => valueMask

mutual

/-- What is written for a value and the blanks behind it. A string with a sensitive word in it is taken for a key: the
mask comes behind its blanks. -/
def maskedText : JsonDoc → List UInt8 → List UInt8
  | .literal text, after => text ++ after
  | .string body, after =>
      34 :: (body ++ (34 :: if jsonlIsSensitiveKey body then after.takeWhile isSeparator ++ valueMask else after))
  | .array blank items, after => 91 :: (blank ++ (maskedItems items ++ (93 :: after)))
  | .object blank members, after => 123 :: (blank ++ (maskedMembers members ++ (125 :: after)))

/-- What is written for the items of an array. -/
def maskedItems : List (JsonItem JsonDoc) → List UInt8
  | [] => []
  | item :: items => item.before ++ (maskedText item.value item.after ++ (comma items ++ maskedItems items))

/-- What is written for the members of an object. -/
def maskedMembers : List (JsonMember JsonDoc) → List UInt8
  | [] => []
  | m :: members =>
      m.before ++ (34 :: (m.name ++ (34 :: (m.beforeColon ++ (58 :: (m.afterColon ++
        ((if jsonlIsSensitiveKey m.name then maskedSecret m.value m.after else maskedText m.value m.after) ++
          (comma members ++ maskedMembers members))))))))

end

/-- The text begins with a delimiter. -/
def Delimited (rest : List UInt8) : Prop := ∃ d tail, rest = d :: tail ∧ isDelimiter d = true

/-- What follows an item of an array. -/
theorem delimited_items (items : List (JsonItem JsonDoc)) (tail : List UInt8) :
    Delimited (comma items ++ (itemsText items ++ 93 :: tail)) := by
  cases items with
  | nil => exact ⟨93, tail, rfl, rfl⟩
  | cons item items => exact ⟨44, _, rfl, rfl⟩

/-- What follows a member of an object. -/
theorem delimited_members (members : List (JsonMember JsonDoc)) (tail : List UInt8) :
    Delimited (comma members ++ (membersText members ++ 125 :: tail)) := by
  cases members with
  | nil => exact ⟨125, tail, rfl, rfl⟩
  | cons m members => exact ⟨44, _, rfl, rfl⟩

/-! ### The scanner on a document -/

/-- A text that ends with no separator is split within its front. -/
theorem takeWhile_dropWhile_append {p : UInt8 → Bool} (front : List UInt8) {d : UInt8} (hd : p d = false)
    (tail : List UInt8) :
    (front ++ d :: tail).takeWhile p = front.takeWhile p ∧
      (front ++ d :: tail).dropWhile p = front.dropWhile p ++ d :: tail := by
  induction front with
  | nil => simp [hd]
  | cons b front ih =>
    rw [List.cons_append, List.takeWhile_cons, List.takeWhile_cons, List.dropWhile_cons, List.dropWhile_cons]
    split
    · exact ⟨by rw [ih.1], ih.2⟩
    · exact ⟨rfl, rfl⟩

theorem isSeparator_of_isDelimiter {d : UInt8} (h : isDelimiter d = true) : isSeparator d = false := by
  rw [isDelimiter] at h
  simp only [Bool.or_eq_true, beq_iff_eq] at h
  rcases h with (rfl | rfl) | rfl <;> rfl

theorem ne_of_isBlank_or_isLiteralByte {b : UInt8} (h : isBlank b = true ∨ isLiteralByte b = true) :
    isDelimiter b = false ∧ b ≠ 34 := by
  have hne : b ≠ 34 ∧ b ≠ 44 ∧ b ≠ 93 ∧ b ≠ 125 := by
    rcases h with h | h
    · obtain ⟨hquote, hcomma, -, hbracket, hbrace⟩ := ne_of_isBlank h
      exact ⟨hquote, hcomma, hbracket, hbrace⟩
    · obtain ⟨-, hquote, hcomma, -, hbracket, hbrace⟩ := ne_of_isLiteralByte h
      exact ⟨hquote, hcomma, hbracket, hbrace⟩
  obtain ⟨hquote, hcomma, hbracket, hbrace⟩ := hne
  exact ⟨by simp [isDelimiter, hcomma, hbracket, hbrace], hquote⟩

variable {after rest : List UInt8} {allowed : List UInt8 → Bool} {d : JsonDoc}

/-- Behind a string that is taken for a key, the mask is written up to the delimiter. -/
theorem scan_taken_for_key {body : List UInt8} (hshort : isShort body = true)
    (hsensitive : jsonlIsSensitiveKey body = true) (hafter : ∀ b ∈ after, isBlank b = true)
    (hrest : Delimited rest) :
    scan (34 :: (body ++ 34 :: (after ++ rest))) =
      34 :: (body ++ 34 :: (after.takeWhile isSeparator ++ (valueMask ++ scan rest))) := by
  obtain ⟨d, tail, rfl, hd⟩ := hrest
  obtain ⟨hquote, hlength⟩ := of_isShort hshort
  obtain ⟨htake, hdrop⟩ := takeWhile_dropWhile_append after (isSeparator_of_isDelimiter hd) tail
  have hvalue : ∀ b ∈ after.dropWhile isSeparator, isDelimiter b = false ∧ b ≠ 34 := fun b hb =>
    ne_of_isBlank_or_isLiteralByte (.inl (hafter b ((List.dropWhile_suffix _).subset hb)))
  rw [scan_secret hquote hlength _ hsensitive, htake, hdrop, scanValue_other hvalue hd]

/-- The separators behind the name of a sensitive member are its colon and the blanks around it. -/
theorem separators_eq {m : JsonMember JsonDoc} (hm : MemberWellFormed m) (hbefore : ∀ b ∈ m.beforeColon, b = 32)
    (hafter : ∀ b ∈ m.afterColon, b = 32) (rest : List UInt8) :
    (m.beforeColon ++ 58 :: (m.afterColon ++ (m.value.text ++ rest))).takeWhile isSeparator =
        m.beforeColon ++ 58 :: m.afterColon ∧
      (m.beforeColon ++ 58 :: (m.afterColon ++ (m.value.text ++ rest))).dropWhile isSeparator =
        m.value.text ++ rest := by
  have hseparators : ∀ b ∈ m.beforeColon ++ 58 :: m.afterColon, isSeparator b = true := by
    intro b hb
    rcases List.mem_append.mp hb with hb | hb
    · rw [hbefore b hb]
      rfl
    · rcases List.mem_cons.mp hb with rfl | hb
      · rfl
      · rw [hafter b hb]
        rfl
  obtain ⟨first, text, htext, hblank, -, hcolon, -, -⟩ := text_eq_cons hm.value
  have hfirst : isSeparator first = false := by
    have hspace : first ≠ 32 := by
      rintro rfl
      cases hblank
    simp [isSeparator, hspace, hcolon]
  constructor
  · rw [htext, ← List.cons_append, ← List.append_assoc, List.takeWhile_append_of_pos hseparators, List.cons_append,
      List.takeWhile_cons_of_neg (by rw [hfirst]; decide), List.append_nil]
  · rw [htext, ← List.cons_append, ← List.append_assoc, List.dropWhile_append_of_pos hseparators, List.cons_append,
      List.dropWhile_cons_of_neg (by rw [hfirst]; decide)]

/-- The value of a sensitive member is masked. -/
theorem scan_member_secret {m : JsonMember JsonDoc} (hm : MemberWellFormed m) (hscan : MemberScannable allowed m)
    (hsensitive : jsonlIsSensitiveKey m.name = true) (hrest : Delimited rest) :
    scan (34 :: (m.name ++ 34 :: (m.beforeColon ++ 58 :: (m.afterColon ++ (m.value.text ++ (m.after ++ rest)))))) =
      34 :: (m.name ++ 34 :: (m.beforeColon ++ 58 ::
        (m.afterColon ++ (maskedSecret m.value m.after ++ scan rest)))) := by
  obtain ⟨hquote, hlength⟩ := of_isShort hscan.short
  obtain ⟨hbefore, hafter, hmaskable⟩ := hscan.secret hsensitive
  obtain ⟨d, tail, rfl, hd⟩ := hrest
  obtain ⟨htake, hdrop⟩ := separators_eq hm hbefore hafter (m.after ++ d :: tail)
  rw [scan_secret hquote hlength _ hsensitive, htake, hdrop]
  cases hvalue : m.value with
  | literal text =>
    have hbytes : ∀ b ∈ text ++ m.after, isDelimiter b = false ∧ b ≠ 34 := by
      have hliteral := hm.value
      rw [hvalue] at hliteral
      intro b hb
      rcases List.mem_append.mp hb with hb | hb
      · exact ne_of_isBlank_or_isLiteralByte (.inr (isLiteralByte_of_mem hliteral hb))
      · exact ne_of_isBlank_or_isLiteralByte (.inl (hm.after b hb))
    rw [JsonDoc.text, ← List.append_assoc text, scanValue_other hbytes hd]
    simp only [maskedSecret, List.append_assoc, List.cons_append]
  | string body =>
    rw [hvalue, isMaskable, Bool.not_eq_true', List.contains_eq_mem, decide_eq_false_iff_not] at hmaskable
    have hstring : (JsonDoc.string body).text ++ (m.after ++ d :: tail) =
        34 :: (body ++ 34 :: (m.after ++ d :: tail)) := by
      simp [JsonDoc.text]
    rw [hstring, scanValue_string hmaskable, scan_append (quote_notMem_blanks hm.after)]
    simp only [maskedSecret, List.append_assoc, List.cons_append]
  | array blank items => rw [hvalue] at hmaskable; cases hmaskable
  | object blank members => rw [hvalue] at hmaskable; cases hmaskable

/-- A mark of the grammar and the blanks behind it are copied. -/
theorem scan_cons_blanks {mark : UInt8} (hmark : mark ≠ 34) {blanks : List UInt8}
    (hblanks : ∀ b ∈ blanks, isBlank b = true) (rest : List UInt8) :
    scan (mark :: (blanks ++ rest)) = mark :: (blanks ++ scan rest) := by
  have hquote : 34 ∉ mark :: blanks := by
    rw [List.mem_cons, not_or]
    exact ⟨hmark.symm, quote_notMem_blanks hblanks⟩
  exact scan_append hquote rest

/-- What the scanner writes for a document and the blanks behind it. -/
def ScansTo (d : JsonDoc) : Prop :=
  ∀ after rest : List UInt8, (∀ b ∈ after, isBlank b = true) → (d.kind = .string → Delimited rest) →
    scan (d.text ++ (after ++ rest)) = maskedText d after ++ scan rest

/-- The items of an array, up to its closing bracket. -/
theorem scan_items {items : List (JsonItem JsonDoc)} (hitems : ∀ item ∈ items, ItemWellFormed item)
    (hvalues : ∀ item ∈ items, ScansTo item.value) (tail : List UInt8) :
    scan (itemsText items ++ 93 :: tail) = maskedItems items ++ scan (93 :: tail) := by
  induction items with
  | nil => rfl
  | cons item items ih =>
    rw [List.forall_mem_cons] at hitems hvalues
    have hvalue := hvalues.1 item.after _ hitems.1.after fun _ => delimited_items items tail
    simp only [itemsText, maskedItems, List.append_assoc]
    rw [scan_append (quote_notMem_blanks hitems.1.before), hvalue, scan_append (quote_notMem_comma items),
      ih hitems.2 hvalues.2]

/-- The members of an object, up to its closing brace. -/
theorem scan_members {members : List (JsonMember JsonDoc)} (hmembers : ∀ m ∈ members, MemberWellFormed m)
    (hscan : ∀ m ∈ members, MemberScannable allowed m)
    (hvalues : ∀ m ∈ members, jsonlIsSensitiveKey m.name = false → ScansTo m.value) (tail : List UInt8) :
    scan (membersText members ++ 125 :: tail) = maskedMembers members ++ scan (125 :: tail) := by
  induction members with
  | nil => rfl
  | cons m members ih =>
    rw [List.forall_mem_cons] at hmembers hscan hvalues
    obtain ⟨hquote, hlength⟩ := of_isShort hscan.1.short
    have hnext := delimited_members members tail
    have hrest : scan (comma members ++ (membersText members ++ 125 :: tail)) =
        comma members ++ (maskedMembers members ++ scan (125 :: tail)) := by
      rw [scan_append (quote_notMem_comma members), ih hmembers.2 hscan.2 hvalues.2]
    simp only [membersText, maskedMembers, List.append_assoc, List.cons_append]
    rw [scan_append (quote_notMem_blanks hmembers.1.before)]
    cases hsensitive : jsonlIsSensitiveKey m.name with
    | true => rw [scan_member_secret hmembers.1 hscan.1 hsensitive hnext, hrest, if_pos rfl]
    | false =>
      have hvalue := hvalues.1 hsensitive m.after _ hmembers.1.after fun _ => hnext
      rw [scan_quoted hquote hlength _ hsensitive, scan_append (quote_notMem_blanks hmembers.1.beforeColon),
        scan_cons_blanks (by decide) hmembers.1.afterColon, hvalue, hrest, if_neg Bool.false_ne_true]

/-- A container: an opening bracket and its blanks, the parts, the closing bracket and the blanks behind it. -/
theorem scan_container {opening closing : UInt8} (hopening : opening ≠ 34) (hclosing : closing ≠ 34)
    {blank parts out : List UInt8} (hblank : ∀ b ∈ blank, isBlank b = true)
    (hafter : ∀ b ∈ after, isBlank b = true)
    (hparts : scan (parts ++ closing :: (after ++ rest)) = out ++ scan (closing :: (after ++ rest))) :
    scan (opening :: (blank ++ (parts ++ closing :: (after ++ rest)))) =
      opening :: (blank ++ (out ++ closing :: (after ++ scan rest))) := by
  rw [scan_cons_blanks hopening hblank, hparts, scan_cons_blanks hclosing hafter]

/-- **The scanner on a document** that it scans by its grammar. -/
theorem scan_text (hd : d.isWellFormed = true) (hscan : isScannable allowed d = true) : ScansTo d := by
  induction d using JsonDoc.induction with
  | literal text =>
    intro after rest hafter _
    have hquote : 34 ∉ text ++ after := by
      rw [List.mem_append, not_or]
      exact ⟨fun hmem => (ne_of_isLiteralByte (isLiteralByte_of_mem hd hmem)).2.1 rfl, quote_notMem_blanks hafter⟩
    rw [JsonDoc.text, ← List.append_assoc, scan_append hquote, maskedText]
  | string body =>
    intro after rest hafter hrest
    rw [isScannable, Bool.and_eq_true] at hscan
    obtain ⟨hquote, hlength⟩ := of_isShort hscan.1
    have htext : (JsonDoc.string body).text ++ (after ++ rest) = 34 :: (body ++ 34 :: (after ++ rest)) := by
      simp [JsonDoc.text]
    rw [htext]
    cases hsensitive : jsonlIsSensitiveKey body with
    | true =>
      rw [scan_taken_for_key hscan.1 hsensitive hafter (hrest rfl)]
      simp [maskedText, hsensitive]
    | false =>
      rw [scan_quoted hquote hlength _ hsensitive, scan_append (quote_notMem_blanks hafter)]
      simp [maskedText, hsensitive]
  | array blank items ih =>
    intro after rest hafter _
    obtain ⟨hblank, hitems⟩ := isWellFormed_array_iff.mp hd
    rw [isScannable_array_iff] at hscan
    have hparts := scan_items hitems (fun item hitem => ih item hitem (hitems item hitem).value (hscan item hitem))
      (after ++ rest)
    have hall := scan_container (show (91 : UInt8) ≠ 34 by decide) (by decide) hblank hafter hparts
    simpa [JsonDoc.text, maskedText] using hall
  | object blank members ih =>
    intro after rest hafter _
    obtain ⟨hblank, hmembers⟩ := isWellFormed_object_iff.mp hd
    rw [isScannable_object_iff] at hscan
    have hparts := scan_members hmembers hscan
      (fun m hm hplain => ih m hm (hmembers m hm).value ((hscan m hm).value hplain)) (after ++ rest)
    have hall := scan_container (show (123 : UInt8) ≠ 34 by decide) (by decide) hblank hafter hparts
    simpa [JsonDoc.text, maskedText] using hall

/-- The sanitizer on a document with enough room for what the scanner makes of it. -/
theorem sanitize_text (hd : d.isWellFormed = true) (hobject : d.kind = .object)
    (hscan : isScannable allowed d = true) {before : List UInt8} (hbefore : ∀ b ∈ before, isBlank b = true)
    (hafter : ∀ b ∈ after, isBlank b = true) {bufSize : UInt64}
    (hroom : (scan (before ++ (d.text ++ after))).length < bufSize.toNat) :
    jsonlSanitizeJson (before ++ (d.text ++ after)) bufSize = some (before ++ maskedText d after ++ [0]) := by
  have hcstr := cstr_of_no_zero (isText_text hd hbefore hafter).zero_notMem
  have hvalue := scan_text hd hscan after [] hafter (by rw [hobject]; intro h; cases h)
  rw [List.append_nil, show scan [] = [] from rfl, List.append_nil] at hvalue
  rw [jsonlSanitizeJson_eq_scan (by rwa [hcstr]), hcstr, scan_append (quote_notMem_blanks hbefore), hvalue]

/-! ### Secrets -/

theorem kind_eq_string_iff : d.kind = .string ↔ ∃ body, d = .string body := by
  cases d with
  | literal text =>
    constructor
    · intro h
      simp only [kind] at h
      split_ifs at h
    · rintro ⟨body, h⟩
      cases h
  | string body => exact ⟨fun _ => ⟨body, rfl⟩, fun _ => rfl⟩
  | array blank items => simp [kind]
  | object blank members => simp [kind]

/-- Of a secret, the mask shows at most whether it is a string. -/
theorem maskedSecret_eq_of_kind {v w : JsonDoc} (h : v.kind = w.kind) (after : List UInt8) :
    maskedSecret v after = maskedSecret w after := by
  by_cases hstring : v.kind = .string
  · obtain ⟨body, rfl⟩ := kind_eq_string_iff.mp hstring
    obtain ⟨body', rfl⟩ := kind_eq_string_iff.mp (h.symm.trans hstring)
    rfl
  · have hmask : ∀ u : JsonDoc, u.kind ≠ .string → maskedSecret u after = valueMask := by
      intro u hu
      cases u with
      | string body => exact absurd rfl hu
      | _ => rfl
    rw [hmask v hstring, hmask w (h ▸ hstring)]

/-- Documents that agree but for their secrets are written alike. -/
theorem maskedText_eq_of_agree {d' : JsonDoc} (hscan : isScannable allowed d = true)
    (hagree : JsonDoc.Agree (· = ·) isSecretName (fun v w => v.kind = w.kind) d d') (after : List UInt8) :
    maskedText d after = maskedText d' after := by
  induction d using JsonDoc.induction generalizing d' after with
  | literal text => rw [agree_literal_iff.mp hagree]
  | string body => rw [agree_string_iff.mp hagree]
  | array blank items ih =>
    obtain ⟨blank', items', rfl, rfl, hitems⟩ := agree_array_iff.mp hagree
    rw [isScannable_array_iff] at hscan
    have hparts : maskedItems items = maskedItems items' := by
      clear hagree
      induction hitems with
      | nil => rfl
      | @cons item item' items items' hitem hitems ihitems =>
        rw [List.forall_mem_cons] at hscan ih
        rw [maskedItems, maskedItems, hitem.before, ih.1 hscan.1 hitem.value, hitem.after, ihitems ih.2 hscan.2]
        cases hitems <;> rfl
    rw [maskedText, maskedText, hparts]
  | object blank members ih =>
    obtain ⟨blank', members', rfl, rfl, hmembers⟩ := agree_object_iff.mp hagree
    rw [isScannable_object_iff] at hscan
    have hparts : maskedMembers members = maskedMembers members' := by
      clear hagree
      induction hmembers with
      | nil => rfl
      | @cons m m' members members' hm hmembers ihmembers =>
        rw [List.forall_mem_cons] at hscan ih
        have hcomma : comma members = comma members' := by cases hmembers <;> rfl
        have hvalue := hm.value
        rw [isSecretName, unescape_of_notMem hscan.1.plain] at hvalue
        rw [maskedMembers, maskedMembers, hm.before, ← hm.name, hm.beforeColon, hm.afterColon, hm.after,
          hcomma, ihmembers ih.2 hscan.2]
        cases hsensitive : jsonlIsSensitiveKey m.name with
        | true =>
          rw [hsensitive, if_pos rfl] at hvalue
          rw [if_pos rfl, if_pos rfl, maskedSecret_eq_of_kind hvalue]
        | false =>
          rw [hsensitive, if_neg Bool.false_ne_true] at hvalue
          rw [if_neg Bool.false_ne_true, if_neg Bool.false_ne_true, ih.1 (hscan.1.value hsensitive) hvalue]
    rw [maskedText, maskedText, hparts]

/-! ### Everything else -/

/-- The value under a sensitive name in the output. -/
def hiddenValue : JsonDoc := .string (ascii "***")

/-- The blanks that are left behind the value of a sensitive member. -/
def keptBlanks : JsonDoc → List UInt8 → List UInt8
  | .string _, after => after
  | _, _ => []

mutual

/-- The document with its secrets replaced. -/
def masked : JsonDoc → JsonDoc
  | .literal text => .literal text
  | .string body => .string body
  | .array blank items => .array blank (maskedItemList items)
  | .object blank members => .object blank (maskedMemberList members)

/-- `masked` for the items of an array. -/
def maskedItemList : List (JsonItem JsonDoc) → List (JsonItem JsonDoc)
  | [] => []
  | item :: items => ⟨item.before, masked item.value, item.after⟩ :: maskedItemList items

/-- `masked` for the members of an object. -/
def maskedMemberList : List (JsonMember JsonDoc) → List (JsonMember JsonDoc)
  | [] => []
  | m :: members =>
      (if jsonlIsSensitiveKey m.name then
        ⟨m.before, m.name, m.beforeColon, m.afterColon, hiddenValue, keptBlanks m.value m.after⟩
      else ⟨m.before, m.name, m.beforeColon, m.afterColon, masked m.value, m.after⟩) :: maskedMemberList members

end

theorem maskedSecret_eq (v : JsonDoc) (after : List UInt8) :
    maskedSecret v after = hiddenValue.text ++ keptBlanks v after := by
  cases v with
  | string body => rfl
  | _ => exact (List.append_nil valueMask).symm

theorem comma_maskedItemList (items : List (JsonItem JsonDoc)) : comma (maskedItemList items) = comma items := by
  cases items <;> rfl

theorem comma_maskedMemberList (members : List (JsonMember JsonDoc)) :
    comma (maskedMemberList members) = comma members := by
  cases members <;> rfl

/-- Where no value is taken for a key, what is written is the masked document. -/
theorem maskedText_eq_text (hscan : isScannable (fun body => !jsonlIsSensitiveKey body) d = true)
    (after : List UInt8) : maskedText d after = (masked d).text ++ after := by
  induction d using JsonDoc.induction generalizing after with
  | literal text => rfl
  | string body =>
    rw [isScannable, Bool.and_eq_true, Bool.not_eq_true'] at hscan
    simp [maskedText, masked, JsonDoc.text, hscan.2]
  | array blank items ih =>
    rw [isScannable_array_iff] at hscan
    have hparts : maskedItems items = itemsText (maskedItemList items) := by
      induction items with
      | nil => rfl
      | cons item items ihitems =>
        rw [List.forall_mem_cons] at hscan ih
        rw [maskedItems, maskedItemList, itemsText, comma_maskedItemList, ih.1 hscan.1, ihitems ih.2 hscan.2,
          List.append_assoc]
    simp [maskedText, masked, JsonDoc.text, hparts]
  | object blank members ih =>
    rw [isScannable_object_iff] at hscan
    have hparts : maskedMembers members = membersText (maskedMemberList members) := by
      induction members with
      | nil => rfl
      | cons m members ihmembers =>
        rw [List.forall_mem_cons] at hscan ih
        rw [maskedMembers, maskedMemberList, membersText, comma_maskedMemberList, ihmembers ih.2 hscan.2]
        cases hsensitive : jsonlIsSensitiveKey m.name with
        | true => simp [maskedSecret_eq]
        | false => simp [ih.1 (hscan.1.value hsensitive)]
    simp [maskedText, masked, JsonDoc.text, hparts]

theorem isWellFormed_hiddenValue : hiddenValue.isWellFormed = true := by
  decide +kernel

theorem isWellFormed_masked (hd : d.isWellFormed = true) : (masked d).isWellFormed = true := by
  induction d using JsonDoc.induction with
  | literal text => exact hd
  | string body => exact hd
  | array blank items ih =>
    obtain ⟨hblank, hitems⟩ := isWellFormed_array_iff.mp hd
    refine isWellFormed_array_iff.mpr ⟨hblank, ?_⟩
    clear hd
    induction items with
    | nil => exact hitems
    | cons item items ihitems =>
      rw [List.forall_mem_cons] at hitems ih
      rw [maskedItemList, List.forall_mem_cons]
      exact ⟨⟨hitems.1.before, ih.1 hitems.1.value, hitems.1.after⟩, ihitems ih.2 hitems.2⟩
  | object blank members ih =>
    obtain ⟨hblank, hmembers⟩ := isWellFormed_object_iff.mp hd
    refine isWellFormed_object_iff.mpr ⟨hblank, ?_⟩
    clear hd
    induction members with
    | nil => exact hmembers
    | cons m members ihmembers =>
      rw [List.forall_mem_cons] at hmembers ih
      rw [maskedMemberList, List.forall_mem_cons]
      refine ⟨?_, ihmembers ih.2 hmembers.2⟩
      obtain ⟨hbefore, hname, hcolon, hcolon', hvalue, hafter⟩ := hmembers.1
      cases jsonlIsSensitiveKey m.name with
      | true =>
        have hkept : ∀ b ∈ keptBlanks m.value m.after, isBlank b = true := by
          cases m.value with
          | string body => exact hafter
          | _ => exact fun b hb => absurd hb List.not_mem_nil
        exact ⟨hbefore, hname, hcolon, hcolon', isWellFormed_hiddenValue, hkept⟩
      | false => exact ⟨hbefore, hname, hcolon, hcolon', ih.1 hvalue, hafter⟩

/-- The masked document has the members of the document, with the same values but under sensitive names. -/
theorem agree_masked (hscan : isScannable allowed d = true) :
    JsonDoc.Agree (fun _ _ => True) isSecretName (fun _ w => w = hiddenValue) d (masked d) := by
  induction d using JsonDoc.induction with
  | literal text => exact agree_literal_iff.mpr rfl
  | string body => exact agree_string_iff.mpr rfl
  | array blank items ih =>
    rw [isScannable_array_iff] at hscan
    refine agree_array_iff.mpr ⟨blank, maskedItemList items, rfl, trivial, ?_⟩
    induction items with
    | nil => exact .nil
    | cons item items ihitems =>
      rw [List.forall_mem_cons] at hscan ih
      exact .cons ⟨trivial, ih.1 hscan.1, trivial⟩ (ihitems ih.2 hscan.2)
  | object blank members ih =>
    rw [isScannable_object_iff] at hscan
    refine agree_object_iff.mpr ⟨blank, maskedMemberList members, rfl, trivial, ?_⟩
    induction members with
    | nil => exact .nil
    | cons m members ihmembers =>
      rw [List.forall_mem_cons] at hscan ih
      refine .cons ?_ (ihmembers ih.2 hscan.2)
      have hsecret : isSecretName m.name = jsonlIsSensitiveKey m.name := by
        rw [isSecretName, unescape_of_notMem hscan.1.plain]
      cases hsensitive : jsonlIsSensitiveKey m.name with
      | true => exact ⟨trivial, rfl, trivial, trivial, by rw [hsecret, hsensitive]; rfl, trivial⟩
      | false =>
        refine ⟨trivial, rfl, trivial, trivial, ?_, trivial⟩
        rw [hsecret, hsensitive, if_neg Bool.false_ne_true]
        exact ih.1 (hscan.1.value hsensitive)

end CGateway
