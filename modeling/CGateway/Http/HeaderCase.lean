import Mathlib.Data.List.Forall2
import CGateway.Http.ParseRequest
import CGateway.Http.Segmentation
import CGateway.Lib.Search

/-! # The letter case of header names

Header names are compared in two ways: the gateway's own with `strncmp`, `traceparent` with `strncasecmp`. Two requests
that differ in the case of their header names are served alike where each of the gateway's own names is spelled as the
gateway spells it in both requests or in neither.

* `Recased`, `SameSpelling` — two header lines that differ in the case of their name, and that the gateway takes for
  the same;
* `readLines`, `readLines_linesText` — the lines and the body that a prefix of a request is read as;
* `header_case` — the two requests have the same outcome. -/

namespace CGateway

open Bytes CString

/-! ### Header lines -/

/-- The lines differ in the letter case of what is before their first colon. -/
def Recased (line line' : List UInt8) : Prop :=
  ∃ name name' rest, line = name ++ rest ∧ line' = name' ++ rest ∧ 58 ∉ name ∧ name.map toLower = name'.map toLower

/-- The names that `handle_client` compares with `strncmp`. -/
def ownHeaders : List String := ["X-Tenant-ID:", "X-Trace-ID:", "Authorization:"]

/-- Each of the gateway's own names is spelled in both lines as the gateway spells it, or in neither. -/
def SameSpelling (line line' : List UInt8) : Prop :=
  ∀ name ∈ ownHeaders, (ascii name).isPrefixOf line = (ascii name).isPrefixOf line'

instance (line line' : List UInt8) : Decidable (SameSpelling line line') :=
  inferInstanceAs (Decidable (∀ name ∈ ownHeaders, _))

section Line

variable {line line' : List UInt8}

theorem Recased.refl (line : List UInt8) : Recased line line := ⟨[], [], line, rfl, rfl, List.not_mem_nil, rfl⟩

theorem Recased.map_toLower (h : Recased line line') : line.map toLower = line'.map toLower := by
  obtain ⟨name, name', rest, rfl, rfl, -, hname⟩ := h
  rw [List.map_append, List.map_append, hname]

theorem Recased.length_eq (h : Recased line line') : line.length = line'.length := by
  have hlength := congrArg List.length h.map_toLower
  rwa [List.length_map, List.length_map] at hlength

theorem Recased.take (h : Recased line line') (n : ℕ) : Recased (line.take n) (line'.take n) := by
  obtain ⟨name, name', rest, rfl, rfl, hcolon, hname⟩ := h
  have hlength : name.length = name'.length := by
    have := congrArg List.length hname
    rwa [List.length_map, List.length_map] at this
  refine ⟨name.take n, name'.take n, rest.take (n - name.length), List.take_append .., ?_,
    fun hmem => hcolon (List.mem_of_mem_take hmem), ?_⟩
  · rw [List.take_append, hlength]
  · rw [List.map_take, List.map_take, hname]

/-- Behind the colon the lines are the same. -/
theorem Recased.drop_eq (h : Recased line line') {n : ℕ} (hcolon : 58 ∈ line.take n) : line.drop n = line'.drop n := by
  obtain ⟨name, name', rest, rfl, rfl, hnone, hname⟩ := h
  have hlength : name.length = name'.length := by
    have := congrArg List.length hname
    rwa [List.length_map, List.length_map] at this
  have hshort : name.length ≤ n := by
    by_contra hlong
    rw [List.take_append_of_le_length (by omega)] at hcolon
    exact hnone (List.mem_of_mem_take hcolon)
  have hshort' : name'.length ≤ n := hlength ▸ hshort
  rw [List.drop_append, List.drop_append, List.drop_eq_nil_of_le hshort, List.drop_eq_nil_of_le hshort', hlength]

theorem SameSpelling.refl (line : List UInt8) : SameSpelling line line := fun _ _ => rfl

theorem SameSpelling.take (h : SameSpelling line line') (n : ℕ) : SameSpelling (line.take n) (line'.take n) := by
  intro name hname
  rw [isPrefixOf_take, isPrefixOf_take, h name hname]

end Line

/-- The lines differ in the case of their name and are taken for the same. -/
structure Respelled (line line' : List UInt8) : Prop where
  recased : Recased line line'
  spelling : SameSpelling line line'

theorem Respelled.take {line line' : List UInt8} (h : Respelled line line') (n : ℕ) :
    Respelled (line.take n) (line'.take n) :=
  ⟨h.recased.take n, h.spelling.take n⟩

/-! ### The header loop -/

/-- `traceparent_value`: the last `traceparent` header decides under which trace the span of the request is opened. -/
def readTraceparent (value : Option (List UInt8)) (line : List UInt8) : Option (List UInt8) :=
  if (ascii "X-Tenant-ID:").isPrefixOf line || (ascii "X-Trace-ID:").isPrefixOf line then value
  else if startsIgnoreCase (ascii "traceparent:") line then some (headerValue "traceparent:" line)
  else value

/-- The `traceparent` header of a request. -/
def traceparentHeader (received : List UInt8) : Option (List UInt8) :=
  (headerLines received).foldl readTraceparent none

section Loop

variable {line line' : List UInt8}

/-- A name that ends with a colon is followed by the same value. -/
theorem Respelled.headerValue_eq (h : Respelled line line') {name : String} (hcolon : 58 ∈ ascii name)
    (hname : (ascii name).isPrefixOf line = true) : headerValue name line = headerValue name line' := by
  obtain ⟨rest, rfl⟩ := List.isPrefixOf_iff_prefix.mp hname
  rw [headerValue, headerValue, h.recased.drop_eq (by rwa [List.take_left])]

theorem toLower_eq_colon {b : UInt8} (h : toLower b = 58) : b = 58 := by
  rw [toLower] at h
  split at h
  · next hletter =>
      have hlow := UInt8.le_iff_toNat_le.mp hletter.1
      have hhigh := UInt8.le_iff_toNat_le.mp hletter.2
      have hsum := congrArg UInt8.toNat h
      rw [UInt8.toNat_add] at hsum
      simp at hlow hhigh hsum
      omega
  · exact h

/-- The same for a name that is compared without regard to case. -/
theorem Respelled.headerValue_eq_of_starts (h : Respelled line line') {name : String} (hcolon : 58 ∈ ascii name)
    (hname : startsIgnoreCase (ascii name) line = true) : headerValue name line = headerValue name line' := by
  have hmem : 58 ∈ line.take (ascii name).length := by
    have hstart := List.isPrefixOf_iff_prefix.mp hname
    have htake := List.prefix_iff_eq_take.mp hstart
    rw [List.length_map, ← List.map_take] at htake
    have hlower : (58 : UInt8) ∈ (ascii name).map toLower := List.mem_map.mpr ⟨58, hcolon, rfl⟩
    rw [htake] at hlower
    obtain ⟨b, hb, hb58⟩ := List.mem_map.mp hlower
    exact toLower_eq_colon hb58 ▸ hb
  rw [headerValue, headerValue, h.recased.drop_eq hmem]

theorem Respelled.startsIgnoreCase_eq (h : Respelled line line') (start : List UInt8) :
    startsIgnoreCase start line = startsIgnoreCase start line' := by
  rw [startsIgnoreCase, startsIgnoreCase, h.recased.map_toLower]

/-- One turn of the header loop takes the same from both lines. -/
theorem readHeader_respelled (h : Respelled line line') (st : HeaderState) :
    readHeader st line = readHeader st line' := by
  have htenant := h.spelling "X-Tenant-ID:" (by decide)
  have htrace := h.spelling "X-Trace-ID:" (by decide)
  have hauth := h.spelling "Authorization:" (by decide)
  unfold readHeader
  rw [← htenant, ← htrace, ← hauth, ← h.startsIgnoreCase_eq]
  split
  · next hname => rw [h.headerValue_eq (by decide) hname]
  · split
    · next hname => rw [h.headerValue_eq (by decide) hname]
    · rfl

theorem readTraceparent_respelled (h : Respelled line line') (value : Option (List UInt8)) :
    readTraceparent value line = readTraceparent value line' := by
  have htenant := h.spelling "X-Tenant-ID:" (by decide)
  have htrace := h.spelling "X-Trace-ID:" (by decide)
  unfold readTraceparent
  rw [← htenant, ← htrace, ← h.startsIgnoreCase_eq]
  split
  · rfl
  · split
    · next hname => rw [h.headerValue_eq_of_starts (by decide) hname]
    · rfl

/-- A loop over lines that takes the same from both in each turn. -/
theorem foldl_respelled {σ : Type} {f : σ → List UInt8 → σ}
    (hf : ∀ {line line'}, Respelled line line' → ∀ st, f st line = f st line') {lines lines' : List (List UInt8)}
    (h : List.Forall₂ Respelled lines lines') (st : σ) : lines.foldl f st = lines'.foldl f st := by
  induction h generalizing st with
  | nil => rfl
  | cons hline _ ih => rw [List.foldl_cons, List.foldl_cons, hf hline, ih]

end Loop

/-! ### The lines of a request -/

/-- The lines and the body that `handle_client` finds in its buffer. -/
def readLines (buffer : List UInt8) : List (List UInt8) × List UInt8 :=
  match splitFirst (ascii "\r\n\r\n") buffer with
  | some parts => (tokens isLineEnd parts.1, parts.2)
  | none => (tokens isLineEnd buffer, [])

/-- The request in these lines and this body. -/
def requestOf : List (List UInt8) → List UInt8 → Option HttpRequest
  | [], _ => none
  | line :: lines, body =>
      match tokens (· == 32) line with
      | method :: path :: _ =>
          let st := lines.foldl readHeader {}
          some ⟨method, path, st.ctx, st.hasTenantHeader, st.hasAuthHeader, body⟩
      | _ => none

theorem splitRequest_eq (received : List UInt8) :
    (tokens isLineEnd (splitRequest received).1, (splitRequest received).2) = readLines (cstr received) := by
  unfold splitRequest readLines
  dsimp only
  cases splitFirst (ascii "\r\n\r\n") (cstr received) <;> rfl

theorem headerLines_eq (received : List UInt8) : headerLines received = (readLines (cstr received)).1.tail := by
  rw [headerLines, ← splitRequest_eq]

theorem parseRequest_eq (received : List UInt8) :
    parseRequest received = requestOf (readLines (cstr received)).1 (readLines (cstr received)).2 := by
  rw [← splitRequest_eq, parseRequest]
  obtain ⟨head, body⟩ := splitRequest received
  dsimp only
  cases tokens isLineEnd head <;> rfl

/-- A line of a request: not empty, and without the bytes that end a line. -/
structure IsLine (line : List UInt8) : Prop where
  ne_nil : line ≠ []
  bytes : ∀ b ∈ line, isLineEnd b = false

section Lines

variable {line rest : List UInt8} {k : ℕ} (hline : IsLine line)
include hline

theorem IsLine.take (hk : 0 < k) : IsLine (line.take k) := by
  refine ⟨?_, fun b hb => hline.bytes b (List.mem_of_mem_take hb)⟩
  rw [Ne, List.take_eq_nil_iff, not_or]
  exact ⟨hk.ne', hline.ne_nil⟩

theorem IsLine.return_notMem : 13 ∉ line := by
  intro hmem
  have := hline.bytes 13 hmem
  cases this

/-- No blank line begins within a line. -/
theorem IsLine.splitFirst_append (rest : List UInt8) :
    splitFirst (ascii "\r\n\r\n") (line ++ rest) =
      (splitFirst (ascii "\r\n\r\n") rest).map fun parts => (line ++ parts.1, parts.2) :=
  CString.splitFirst_append (show (13 : UInt8) ∉ line from hline.return_notMem) rest

/-- A line that the buffer cuts. -/
theorem IsLine.readLines_cut : readLines line = ([line], []) := by
  have hnone := hline.splitFirst_append []
  rw [List.append_nil] at hnone
  rw [readLines, hnone]
  exact Prod.ext (tokens_of_no_delim hline.ne_nil hline.bytes) rfl

/-- The same within the line ends behind it. -/
theorem IsLine.readLines_ends {ends : List UInt8} (hblank : splitFirst (ascii "\r\n\r\n") (13 :: ends) = none)
    (hends : tokens isLineEnd ends = []) : readLines (line ++ 13 :: ends) = ([line], []) := by
  have htokens := tokens_append_delim hline.ne_nil hline.bytes (d := 13) rfl ends
  rw [readLines, hline.splitFirst_append, hblank]
  exact Prod.ext (by rw [← hends]; exact htokens) rfl

/-- A line and another one. -/
theorem IsLine.readLines_next (hrest : rest.head? ≠ some 13) :
    readLines (line ++ 13 :: 10 :: rest) = (line :: (readLines rest).1, (readLines rest).2) := by
  have hends : splitFirst (ascii "\r\n\r\n") (13 :: 10 :: rest) =
      (splitFirst (ascii "\r\n\r\n") rest).map fun parts => (13 :: 10 :: parts.1, parts.2) := by
    have hnot : (ascii "\r\n\r\n").isPrefixOf (13 :: 10 :: rest) = false := by
      cases rest with
      | nil => rfl
      | cons b rest =>
        have hb : (13 == b) = false := by
          rw [beq_eq_false_iff_ne]
          rintro rfl
          exact hrest rfl
        show (13 == 13 && (10 == 10 && (13 == b && _))) = false
        rw [hb]
        rfl
    rw [splitFirst_cons_of_not hnot, splitFirst_cons_of_not rfl, Option.map_map]
    rfl
  have htokens : ∀ text, tokens isLineEnd (line ++ 13 :: 10 :: text) = line :: tokens isLineEnd text := fun text =>
    (tokens_append_delim hline.ne_nil hline.bytes rfl _).trans (congrArg (line :: ·) (tokens_cons_delim rfl text))
  rw [readLines, hline.splitFirst_append, hends, Option.map_map, readLines]
  cases splitFirst (ascii "\r\n\r\n") rest with
  | none => exact Prod.ext (htokens rest) rfl
  | some parts => exact Prod.ext (htokens parts.1) rfl

/-- A line and the blank line. -/
theorem IsLine.readLines_blank (body : List UInt8) :
    readLines (line ++ 13 :: 10 :: 13 :: 10 :: body) = ([line], body) := by
  have hblank : splitFirst (ascii "\r\n\r\n") (13 :: 10 :: 13 :: 10 :: body) = some ([], body) := rfl
  rw [readLines, hline.splitFirst_append, hblank]
  exact Prod.ext (by simpa using tokens_of_no_delim hline.ne_nil hline.bytes) rfl

/-- A line and another one, as far as the buffer goes. -/
theorem IsLine.readLines_take_next (hrest : rest.head? ≠ some 13) (hk : 0 < k) :
    readLines ((line ++ 13 :: 10 :: rest).take k) =
      (line.take k :: (readLines (rest.take (k - (line.length + 2)))).1,
        (readLines (rest.take (k - (line.length + 2)))).2) := by
  rcases Nat.lt_or_ge k (line.length + 2) with hshort | hlong
  · rw [Nat.sub_eq_zero_of_le hshort.le, List.take_zero]
    rcases Nat.lt_or_ge line.length k with hend | hcut
    · obtain rfl : k = line.length + 1 := by omega
      rw [List.take_length_add_append, List.take_of_length_le (Nat.le_add_right line.length 1)]
      exact hline.readLines_ends rfl rfl
    · rw [List.take_append_of_le_length hcut]
      exact (hline.take hk).readLines_cut
  · obtain ⟨n, rfl⟩ := Nat.exists_eq_add_of_le hlong
    have hnext : (rest.take n).head? ≠ some 13 := by
      cases n with
      | zero => simp
      | succ n => rwa [List.head?_take, if_neg (by omega)]
    rw [Nat.add_sub_cancel_left, Nat.add_assoc, List.take_length_add_append,
      List.take_of_length_le (Nat.le_add_right line.length (2 + n)), Nat.add_comm 2 n]
    exact hline.readLines_next hnext

/-- A line and the blank line, as far as the buffer goes. -/
theorem IsLine.readLines_take_blank (body : List UInt8) (hk : 0 < k) :
    readLines ((line ++ 13 :: 10 :: 13 :: 10 :: body).take k) = ([line.take k], body.take (k - (line.length + 4))) := by
  rcases Nat.lt_or_ge line.length k with hend | hcut
  · obtain ⟨n, rfl⟩ : ∃ n, k = line.length + (n + 1) := ⟨k - line.length - 1, by omega⟩
    rw [List.take_length_add_append, List.take_of_length_le (Nat.le_add_right line.length (n + 1)),
      Nat.add_sub_add_left]
    match n with
    | 0 => exact hline.readLines_ends rfl rfl
    | 1 => exact hline.readLines_ends rfl rfl
    | 2 => exact hline.readLines_ends rfl rfl
    | n + 3 => exact hline.readLines_blank (body.take n)
  · rw [List.take_append_of_le_length hcut, Nat.sub_eq_zero_of_le (by omega), List.take_zero]
    exact (hline.take hk).readLines_cut

/-- The text of lines, a blank line and a body. -/
def linesText (lines : List (List UInt8)) (body : List UInt8) : List UInt8 :=
  lines.flatMap (· ++ [13, 10]) ++ 13 :: 10 :: body

omit hline in
theorem linesText_cons (line : List UInt8) (lines : List (List UInt8)) (body : List UInt8) :
    linesText (line :: lines) body = line ++ 13 :: 10 :: linesText lines body := by
  simp [linesText]

theorem IsLine.head?_linesText (lines : List (List UInt8)) (body : List UInt8) :
    (linesText (line :: lines) body).head? ≠ some 13 := by
  rw [linesText_cons]
  cases line with
  | nil => exact absurd rfl hline.ne_nil
  | cons b line =>
    rintro ⟨⟩
    exact hline.return_notMem List.mem_cons_self

end Lines

/-- What is read of two texts of respelled lines, as far as the buffer goes: respelled lines and the same body. -/
theorem readLines_linesText {lines lines' : List (List UInt8)} (h : List.Forall₂ Respelled lines lines')
    (hlines : ∀ line ∈ lines, IsLine line) (hlines' : ∀ line ∈ lines', IsLine line) (body : List UInt8)
    {line line' : List UInt8} (hline : IsLine line) (hline' : IsLine line') (hrespelled : Respelled line line') {k : ℕ}
    (hk : 0 < k) :
    ∃ read read' rest, readLines ((linesText (line :: lines) body).take k) = (line.take k :: read, rest) ∧
      readLines ((linesText (line' :: lines') body).take k) = (line'.take k :: read', rest) ∧
      List.Forall₂ Respelled read read' := by
  have hlength := hrespelled.recased.length_eq
  induction h generalizing line line' k with
  | nil =>
    refine ⟨[], [], body.take (k - (line.length + 4)), ?_, ?_, .nil⟩
    · rw [linesText_cons]
      exact hline.readLines_take_blank body hk
    · rw [linesText_cons, hlength]
      exact hline'.readLines_take_blank body hk
  | @cons next next' lines lines' hnext hrest ih =>
    rw [List.forall_mem_cons] at hlines hlines'
    have hread := hline.readLines_take_next (hlines.1.head?_linesText lines body) hk
    have hread' := hline'.readLines_take_next (hlines'.1.head?_linesText lines' body) hk
    rw [← linesText_cons] at hread hread'
    rw [hread, hread', ← hlength]
    rcases Nat.eq_zero_or_pos (k - (line.length + 2)) with hzero | hpos
    · exact ⟨[], [], [], by rw [hzero]; rfl, by rw [hzero]; rfl, .nil⟩
    · obtain ⟨read, read', rest, hread, hread', hforall⟩ :=
        ih hlines.2 hlines'.2 hlines.1 hlines'.1 hnext hpos hnext.recased.length_eq
      exact ⟨_, _, rest, by rw [hread], by rw [hread'], .cons (hnext.take _) hforall⟩

/-! ### Two requests -/

/-- The requests differ in the letter case of their header names. -/
structure HttpMessage.Recased (m m' : HttpMessage) : Prop where
  method : m.method = m'.method
  target : m.target = m'.target
  version : m.version = m'.version
  headers : List.Forall₂ CGateway.Recased m.headers m'.headers
  body : m.body = m'.body

section Requests

variable {m m' : HttpMessage}

theorem HttpMessage.bytes_eq (m : HttpMessage) : m.bytes = linesText (m.requestLine :: m.headers) m.body := by
  simp only [bytes, linesText, List.flatMap_cons, List.append_assoc]
  rfl

/-- The lines of a request. -/
theorem HttpMessage.WellFormed.lines (hm : m.WellFormed) :
    IsLine m.requestLine ∧ (∀ line ∈ m.headers, IsLine line) ∧ 0 ∉ m.requestLine ∧ ∀ line ∈ m.headers, 0 ∉ line := by
  have hbytes := mem_requestLine hm
  have hheaders : ∀ line ∈ m.headers, line ≠ [] ∧ ∀ b ∈ line, b ≠ 0 ∧ isLineEnd b = false := by
    intro line hline
    have h := List.all_eq_true.mp hm.headers line hline
    simpa [isHeaderLine] using h
  refine ⟨⟨?_, fun b hb => (hbytes b hb).2⟩, ?_, fun hzero => (hbytes 0 hzero).1 rfl, ?_⟩
  · simp [HttpMessage.requestLine]
  · exact fun line hline => ⟨(hheaders line hline).1, fun b hb => ((hheaders line hline).2 b hb).2⟩
  · exact fun line hline hzero => ((hheaders line hline).2 0 hzero).1 rfl

/-- The C string in a buffer with the beginning of a request. -/
theorem HttpMessage.WellFormed.cstr_bytes (hm : m.WellFormed) (k : ℕ) :
    cstr (m.bytes.take k) = (linesText (m.requestLine :: m.headers) (cstr m.body)).take k := by
  obtain ⟨-, -, hrequest, hheaders⟩ := hm.lines
  have hfront : 0 ∉ (m.requestLine :: m.headers).flatMap (· ++ [13, 10]) ++ [13, 10] := by
    simp [hrequest]
    exact hheaders
  have happend := cstr_append hfront m.body
  simp only [List.append_assoc, List.cons_append, List.nil_append] at happend
  rw [cstr_take, m.bytes_eq, linesText, happend, linesText]

/-- What `handle_client` reads of the two requests. -/
theorem HttpMessage.Recased.reads (h : m.Recased m') (hm : m.WellFormed) (hm' : m'.WellFormed)
    (hspelled : List.Forall₂ SameSpelling m.headers m'.headers) {k : ℕ} (hk : 0 < k) :
    ∃ line read read' rest, readLines (cstr (m.bytes.take k)) = (line :: read, rest) ∧
      readLines (cstr (m'.bytes.take k)) = (line :: read', rest) ∧ List.Forall₂ Respelled read read' := by
  have hrespelled : List.Forall₂ Respelled m.headers m'.headers := by
    rw [List.forall₂_iff_zip] at hspelled ⊢
    exact ⟨hspelled.1, fun hmem => ⟨(List.forall₂_iff_zip.mp h.headers).2 hmem, hspelled.2 hmem⟩⟩
  have hrequest : m.requestLine = m'.requestLine := by
    rw [HttpMessage.requestLine, HttpMessage.requestLine, h.method, h.target, h.version]
  obtain ⟨hline, hlines, -⟩ := hm.lines
  obtain ⟨hline', hlines', -⟩ := hm'.lines
  rw [hm.cstr_bytes, hm'.cstr_bytes, ← h.body]
  rw [← hrequest] at hline' ⊢
  obtain ⟨read, read', rest, hread, hread', hforall⟩ := readLines_linesText hrespelled hlines hlines' (cstr m.body)
    hline hline' ⟨.refl _, .refl _⟩ hk
  exact ⟨_, read, read', rest, hread, hread', hforall⟩

/-- What the buffer holds: a beginning of the bytes whose length depends on how they are cut up. -/
theorem IsSplit.firstRead_eq {pieces : List (List UInt8)} {bytes : List UInt8} (h : IsSplit pieces bytes)
    (x : Exchange) : firstRead { x with reads := pieces } =
      bytes.take (min (maxMessageSize - 1) ((pieces.map List.length).headD 0)) := by
  cases pieces with
  | nil =>
    obtain rfl : [] = bytes := h.whole
    rfl
  | cons piece pieces =>
    obtain rfl : piece ++ pieces.flatten = bytes := h.whole
    show piece.take (maxMessageSize - 1) = (piece ++ pieces.flatten).take (min (maxMessageSize - 1) piece.length)
    rw [← List.take_take, List.take_left]

/-- Of the bytes that arrive, a connection depends on the request in them. -/
theorem httpStep_eq_of_parse {h : Host} {g : Gateway} {x : Exchange} {pieces pieces' : List (List UInt8)}
    (hempty : firstRead { x with reads := pieces } = [] ↔ firstRead { x with reads := pieces' } = [])
    (hparse : parseRequest (firstRead { x with reads := pieces }) =
      parseRequest (firstRead { x with reads := pieces' })) :
    httpStep h g { x with reads := pieces } = httpStep h g { x with reads := pieces' } := by
  have hserve : ∀ reads rq w, serve h { x with reads := reads } rq w = serve h x rq w := fun _ _ _ => rfl
  unfold httpStep handleClient serveBytes
  simp only [hempty, hparse, hserve]
  rfl

end Requests

/-- Bytes that arrive in one piece. -/
theorem IsSplit.singleton {bytes : List UInt8} (h : bytes ≠ []) : IsSplit [bytes] bytes :=
  ⟨List.flatten_singleton, by simpa using h⟩

/-- A decide request with these header lines. -/
def headedMessage (headers : List String) : HttpMessage where
  method := ascii "POST"
  target := ascii "/api/v1/routes/decide"
  version := ascii "HTTP/1.1"
  headers := headers.map ascii
  body := sampleBody

end CGateway
