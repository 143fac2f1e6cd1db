import CGateway.Lib.Scanf

/-! # The `traceparent` header

`otel_inject_trace_context` writes the ids of a span as hexadecimal fields between dashes, and
`otel_extract_trace_context` reads such a header in two steps: `sscanf` splits it into fields of any bytes but blanks,
and each pair of bytes of an id is then read with `%2x`. Both steps take more than the grammar of the header allows.

* `otelInjectTraceContext`, `otelExtractTraceContext`, `parentSpan` — the code, with the bytes that a failed
  extraction has already written;
* `sscanf_traceparentFormat_iff` — the four fields;
* `readPairs_snd`, `readPairs_hex` — the bytes of an id;
* `otelExtract_status_iff` — which headers are accepted;
* `traceparent_round_trip` — what was injected is extracted;
* `traceparent_acceptance_iff` — when an accepted header is one of the grammar. -/

namespace CGateway

open Bytes CString Hex Scanf

/-! ### The code -/

/-- `trace_id_t`. -/
abbrev TraceId := Vector UInt8 16

/-- `span_id_t`. -/
abbrev SpanId := Vector UInt8 8

/-- `otel_inject_trace_context`; the result is the length of the text. -/
def otelInjectTraceContext (traceId : TraceId) (spanId : SpanId) : List UInt8 :=
  ascii "00-" ++ traceId.toList.flatMap (fun b => digits 2 b.toNat) ++ ascii "-" ++
    spanId.toList.flatMap (fun b => digits 2 b.toNat) ++ ascii "-01"

/-- The first bytes of an array are written. -/
def overwrite {n : ℕ} (dst : Vector UInt8 n) (bytes : List UInt8) : Vector UInt8 n :=
  .ofFn fun i => bytes.getD i dst[i]

/-- The loop over the bytes of an id: those that were read before the first failure, and whether there was none. -/
def readPairs (bare : Bool) : ℕ → List UInt8 → List UInt8 × Bool
  | 0, _ => ([], true)
  | n + 1, text =>
      match sscanf bare [.hex (some 2)] text with
      | [.hex value] =>
          let later := readPairs bare n (text.drop 2)
          (value.toUInt32.toUInt8 :: later.1, later.2)
      | _ => ([], false)

/-- The result of an extraction, with the arrays it was given. -/
structure Extracted where
  status : ℤ
  traceId : TraceId
  spanId : SpanId

/-- `"%2s-%32s-%16s-%2s"`. -/
def traceparentFormat : List Directive := [.text 2, .byte 45, .text 32, .byte 45, .text 16, .byte 45, .text 2]

/-- `otel_extract_trace_context`. -/
def otelExtractTraceContext (bare : Bool) (traceparent : List UInt8) (traceId : TraceId) (spanId : SpanId) :
    Extracted :=
  if traceparent.length < 55 then ⟨-1, traceId, spanId⟩
  else
    match sscanf bare traceparentFormat traceparent with
    | [.text _, .text tid, .text sid, .text _] =>
        let trace := readPairs bare 16 tid
        -- the pairs before a failure are in the caller's arrays already
        if trace.2 then
          let span := readPairs bare 8 sid
          ⟨if span.2 then 0 else -1, overwrite traceId trace.1, overwrite spanId span.1⟩
        else ⟨-1, overwrite traceId trace.1, spanId⟩
    | _ => ⟨-1, traceId, spanId⟩

/-- The ids under which `handle_client` opens the span of a request; `stack` is what its two variables hold before. -/
def parentSpan (bare : Bool) (traceparent : Option (List UInt8)) (stack : TraceId × SpanId) :
    Option (TraceId × SpanId) :=
  match traceparent with
  | none => none
  | some s =>
      let extracted := otelExtractTraceContext bare s stack.1 stack.2
      if extracted.status = 0 then some (extracted.traceId, extracted.spanId) else none

/-! ### The fields -/

/-- The fields that `sscanf` finds: each may stand behind blanks, and the flags may be a single byte at the end or
before a blank. -/
def ScannedAs (s version tid sid flags : List UInt8) : Prop :=
  ∃ b₀ b₁ b₂ b₃ rest,
    s = b₀ ++ (version ++ 45 :: (b₁ ++ (tid ++ 45 :: (b₂ ++ (sid ++ 45 :: (b₃ ++ (flags ++ rest))))))) ∧
    (∀ b ∈ b₀ ++ b₁ ++ b₂ ++ b₃, isSpace b = true) ∧
    (∀ b ∈ version ++ tid ++ sid ++ flags, isSpace b = false) ∧
    version.length = 2 ∧ tid.length = 32 ∧ sid.length = 16 ∧ flags ≠ [] ∧ flags.length ≤ 2 ∧
    (flags.length = 2 ∨ ∀ b ∈ rest.head?, isSpace b = true)

section Fields

variable {bare : Bool} {s version tid sid flags : List UInt8}

/-- **The four fields.** -/
theorem sscanf_traceparentFormat_iff :
    sscanf bare traceparentFormat s = [.text version, .text tid, .text sid, .text flags] ↔
      ScannedAs s version tid sid flags := by
  have hlast : ∀ t, sscanf bare [.text 2] t = [.text flags] ↔ ∃ rest, scanText 2 t = some (flags, rest) := by
    intro t
    rw [sscanf]
    split
    · next hnone => simp [hnone]
    · next item rest hsome => simp [hsome, sscanf]
  rw [traceparentFormat, sscanf_text_byte_iff (by decide) (by decide) (List.cons_ne_nil _ _)]
  simp only [sscanf_text_byte_iff (show isSpace 45 = false by decide) (show 0 < 32 by decide) (List.cons_ne_nil _ _),
    sscanf_text_byte_iff (show isSpace 45 = false by decide) (show 0 < 16 by decide) (List.cons_ne_nil _ _), hlast,
    scanText_eq_some_iff]
  constructor
  · rintro ⟨b₀, _, rfl, hb₀, hv, hvl, b₁, _, rfl, hb₁, ht, htl, b₂, _, rfl, hb₂, hp, hpl, rest, b₃, rfl, hb₃, hfne, hf,
      hfl, hend⟩
    refine ⟨b₀, b₁, b₂, b₃, rest, rfl, ?_, ?_, hvl, htl, hpl, hfne, hfl, hend⟩
    · simp only [List.forall_mem_append]
      exact ⟨⟨⟨hb₀, hb₁⟩, hb₂⟩, hb₃⟩
    · simp only [List.forall_mem_append]
      exact ⟨⟨⟨hv, ht⟩, hp⟩, hf⟩
  · rintro ⟨b₀, b₁, b₂, b₃, rest, rfl, hblanks, hfields, hvl, htl, hpl, hfne, hfl, hend⟩
    simp only [List.forall_mem_append] at hblanks hfields
    obtain ⟨⟨⟨hb₀, hb₁⟩, hb₂⟩, hb₃⟩ := hblanks
    obtain ⟨⟨⟨hv, ht⟩, hp⟩, hf⟩ := hfields
    exact ⟨b₀, _, rfl, hb₀, hv, hvl, b₁, _, rfl, hb₁, ht, htl, b₂, _, rfl, hb₂, hp, hpl, rest, b₃, rfl, hb₃, hfne, hf,
      hfl, hend⟩

end Fields

/-! ### The bytes of an id -/

/-- A pair of bytes from which `%2x` converts something. -/
def convertible (bare : Bool) (a b : UInt8) : Bool :=
  if a = 45 ∨ a = 43 then isHexDigit b
  else if a = 48 ∧ (b = 120 ∨ b = 88) then bare
  else isHexDigit a

/-- All pairs of a field. -/
def pairsConvertible (bare : Bool) : List UInt8 → Bool
  | a :: b :: text => convertible bare a b && pairsConvertible bare text
  | _ => true

/-- The bytes that pairs of digits write. -/
def pairBytes : List UInt8 → List UInt8
  | a :: b :: text => UInt8.ofNat (digitValue a * 16 + digitValue b) :: pairBytes text
  | _ => []

section Pairs

variable {bare : Bool}

/-- One turn of the loop. -/
theorem readPairs_succ (n : ℕ) (text : List UInt8) : readPairs bare (n + 1) text =
    match scanHex bare (some 2) text with
    | none => ([], false)
    | some (value, _) =>
      (value.toUInt32.toUInt8 :: (readPairs bare n (text.drop 2)).1, (readPairs bare n (text.drop 2)).2) := by
  rw [readPairs, sscanf]
  cases scanHex bare (some 2) text with
  | none => rfl
  | some found => rfl

/-- A loop that did not fail has read every byte. -/
theorem length_readPairs {n : ℕ} {text : List UInt8} (h : (readPairs bare n text).2 = true) :
    (readPairs bare n text).1.length = n := by
  induction n generalizing text with
  | zero => rfl
  | succ n ih =>
    rw [readPairs_succ] at h ⊢
    cases hscan : scanHex bare (some 2) text with
    | none =>
      rw [hscan] at h
      cases h
    | some found =>
      rw [hscan] at h
      exact congrArg (· + 1) (ih h)

/-- A field of pairs, one pair at a time. -/
theorem exists_pair {n : ℕ} {text : List UInt8} (hlength : text.length = 2 * (n + 1)) :
    ∃ a b later, text = a :: b :: later ∧ later.length = 2 * n := by
  cases text with
  | nil => cases hlength
  | cons a text =>
    cases text with
    | nil => exact absurd hlength (by rw [List.length_singleton]; omega)
    | cons b later =>
      rw [List.length_cons, List.length_cons] at hlength
      exact ⟨a, b, later, rfl, by omega⟩

/-- **The loop over a field** without blanks fails at the first pair that cannot be converted. -/
theorem readPairs_snd {n : ℕ} {text : List UInt8} (hlength : text.length = 2 * n)
    (htext : ∀ b ∈ text, isSpace b = false) : (readPairs bare n text).2 = pairsConvertible bare text := by
  induction n generalizing text with
  | zero =>
    rw [List.eq_nil_of_length_eq_zero hlength]
    rfl
  | succ n ih =>
    obtain ⟨a, b, later, rfl, hlater⟩ := exists_pair hlength
    rw [List.forall_mem_cons, List.forall_mem_cons] at htext
    have hsome := @isSome_scanHex_two bare later a htext.1 b
    rw [readPairs_succ, pairsConvertible, convertible, ← hsome]
    cases scanHex bare (some 2) (a :: b :: later) with
    | none => rfl
    | some found =>
      rw [Option.isSome_some, Bool.true_and]
      exact ih hlater htext.2.2

/-- The byte of a converted number. -/
theorem toUInt8_ofNat (n : ℕ) : (UInt64.ofNat n).toUInt32.toUInt8 = UInt8.ofNat n := by
  rw [← UInt8.toNat_inj, UInt32.toNat_toUInt8, UInt64.toNat_toUInt32, UInt64.toNat_ofNat', UInt8.toNat_ofNat']
  omega

/-- **Digits** are read as the bytes they write. -/
theorem readPairs_hex {n : ℕ} {text : List UInt8} (hlength : text.length = 2 * n)
    (htext : ∀ b ∈ text, isHexDigit b = true) : readPairs bare n text = (pairBytes text, true) := by
  induction n generalizing text with
  | zero =>
    rw [List.eq_nil_of_length_eq_zero hlength]
    rfl
  | succ n ih =>
    obtain ⟨a, b, later, rfl, hlater⟩ := exists_pair hlength
    rw [List.forall_mem_cons, List.forall_mem_cons] at htext
    rw [readPairs_succ, scanHex_two htext.1 htext.2.1, pairBytes, ← toUInt8_ofNat]
    show (_ :: (readPairs bare n later).1, (readPairs bare n later).2) = _
    rw [ih hlater htext.2.2]

/-- An array that is written whole holds what was written. -/
theorem overwrite_eq {n : ℕ} {bytes : List UInt8} (h : bytes.length = n) (dst : Vector UInt8 n) :
    (overwrite dst bytes).toList = bytes := by
  refine List.ext_getElem (by simp [h]) ?_
  intro i hi hi'
  simp only [Vector.getElem_toList, overwrite, Vector.getElem_ofFn]
  exact List.getD_eq_getElem _ _ hi'

end Pairs

/-! ### Acceptance -/

section Acceptance

variable {bare : Bool} {s : List UInt8} {traceId : TraceId} {spanId : SpanId}

/-- The result on a header that is split into its fields. -/
theorem otelExtract_of_scan (hlength : 55 ≤ s.length) {version tid sid flags : List UInt8}
    (hscan : ScannedAs s version tid sid flags) : otelExtractTraceContext bare s traceId spanId =
      if (readPairs bare 16 tid).2 then
        ⟨if (readPairs bare 8 sid).2 then 0 else -1, overwrite traceId (readPairs bare 16 tid).1,
          overwrite spanId (readPairs bare 8 sid).1⟩
      else ⟨-1, overwrite traceId (readPairs bare 16 tid).1, spanId⟩ := by
  rw [otelExtractTraceContext, if_neg (by omega), sscanf_traceparentFormat_iff.mpr hscan]

/-- A header that is accepted was split into its fields, and both ids were read to their end. -/
theorem scannedAs_of_status (h : (otelExtractTraceContext bare s traceId spanId).status = 0) :
    55 ≤ s.length ∧ ∃ version tid sid flags, ScannedAs s version tid sid flags ∧
      (readPairs bare 16 tid).2 = true ∧ (readPairs bare 8 sid).2 = true := by
  by_cases hlength : s.length < 55
  · rw [otelExtractTraceContext, if_pos hlength] at h
    cases h
  · refine ⟨by omega, ?_⟩
    rw [otelExtractTraceContext, if_neg hlength] at h
    split at h
    · next version tid sid flags hscan =>
        refine ⟨version, tid, sid, flags, sscanf_traceparentFormat_iff.mp hscan, ?_⟩
        dsimp only at h
        split at h
        · next htrace =>
            refine ⟨htrace, ?_⟩
            by_contra hspan
            rw [if_neg hspan] at h
            cases h
        · cases h
    · cases h

/-- **Which headers are accepted**: those of at least 55 bytes with four fields, each pair of the ids convertible. -/
theorem otelExtract_status_iff : (otelExtractTraceContext bare s traceId spanId).status = 0 ↔
    55 ≤ s.length ∧ ∃ version tid sid flags, ScannedAs s version tid sid flags ∧
      pairsConvertible bare tid = true ∧ pairsConvertible bare sid = true := by
  have hpairs : ∀ {version tid sid flags}, ScannedAs s version tid sid flags →
      (readPairs bare 16 tid).2 = pairsConvertible bare tid ∧ (readPairs bare 8 sid).2 = pairsConvertible bare sid := by
    rintro version tid sid flags ⟨_, _, _, _, _, _, _, hfields, _, htid, hsid, _⟩
    simp only [List.forall_mem_append] at hfields
    exact ⟨readPairs_snd htid hfields.1.1.2, readPairs_snd hsid hfields.1.2⟩
  constructor
  · intro h
    obtain ⟨hlength, version, tid, sid, flags, hscan, htrace, hspan⟩ := scannedAs_of_status h
    obtain ⟨htid, hsid⟩ := hpairs hscan
    exact ⟨hlength, version, tid, sid, flags, hscan, htid ▸ htrace, hsid ▸ hspan⟩
  · rintro ⟨hlength, version, tid, sid, flags, hscan, htrace, hspan⟩
    obtain ⟨htid, hsid⟩ := hpairs hscan
    rw [otelExtract_of_scan hlength hscan, htid, hsid, htrace, hspan]
    rfl

end Acceptance

/-- **The ids of a request** do not depend on what the variables of `handle_client` held before: a refused header
gives none, and an accepted one has written both ids whole. -/
theorem parentSpan_stack (bare : Bool) (s : List UInt8) (stack stack' : TraceId × SpanId) :
    parentSpan bare (some s) stack = parentSpan bare (some s) stack' := by
  have hwhole : ∀ {n : ℕ} {bytes : List UInt8}, bytes.length = n → ∀ dst dst' : Vector UInt8 n,
      overwrite dst bytes = overwrite dst' bytes := by
    intro n bytes hlength dst dst'
    exact Vector.toList_inj.mp ((overwrite_eq hlength dst).trans (overwrite_eq hlength dst').symm)
  -- whether a header is accepted depends on the header alone
  by_cases haccepted : (otelExtractTraceContext bare s stack.1 stack.2).status = 0
  · obtain ⟨hlength, version, tid, sid, flags, hscan, htrace, hspan⟩ := scannedAs_of_status haccepted
    have hsame : otelExtractTraceContext bare s stack.1 stack.2 = otelExtractTraceContext bare s stack'.1 stack'.2 := by
      rw [otelExtract_of_scan hlength hscan, otelExtract_of_scan hlength hscan, htrace, hspan,
        hwhole (length_readPairs htrace) stack.1 stack'.1, hwhole (length_readPairs hspan) stack.2 stack'.2]
      rfl
    simp only [parentSpan, hsame]
  · have hrefused : ¬(otelExtractTraceContext bare s stack'.1 stack'.2).status = 0 :=
      fun h => haccepted (otelExtract_status_iff.mpr (otelExtract_status_iff.mp h))
    exact (if_neg haccepted).trans (if_neg hrefused).symm

/-! ### The grammar -/

/-- A field of so many hexadecimal digits. -/
structure IsHexField (width : ℕ) (text : List UInt8) : Prop where
  length_eq : text.length = width
  digits : ∀ b ∈ text, isHexDigit b = true

/-- A text that begins with two hexadecimal digits, 32 of them, 16 of them and two, with dashes between. -/
def TraceparentParts (s version tid sid flags : List UInt8) : Prop :=
  IsHexField 2 version ∧ IsHexField 32 tid ∧ IsHexField 16 sid ∧ IsHexField 2 flags ∧
    ∃ rest, s = version ++ 45 :: (tid ++ 45 :: (sid ++ 45 :: (flags ++ rest)))

/-- A `traceparent` header by its grammar. -/
def IsTraceparent (s : List UInt8) : Prop := ∃ version tid sid flags, TraceparentParts s version tid sid flags

/-- The first 55 bytes are hexadecimal digits, but for three dashes. -/
def PlainFront (s : List UInt8) : Prop :=
  (∀ b ∈ s.take 55, isHexDigit b = true ∨ b = 45) ∧ (s.take 55).count 45 = 3

instance instDecidablePredPlainFront : DecidablePred PlainFront := fun _ => inferInstanceAs (Decidable (_ ∧ _))

section Grammar

variable {bare : Bool} {s version tid sid flags : List UInt8} {traceId : TraceId} {spanId : SpanId}

/-- The bytes that a field of digits writes. -/
theorem IsHexField.length_pairBytes {n : ℕ} {text : List UInt8} (h : IsHexField (2 * n) text) :
    (pairBytes text).length = n := by
  have hread := @readPairs_hex false n text h.length_eq h.digits
  have hlength := @length_readPairs false n text (by rw [hread])
  rwa [hread] at hlength

/-- A header of the grammar is split into its parts. -/
theorem TraceparentParts.scannedAs (h : TraceparentParts s version tid sid flags) :
    55 ≤ s.length ∧ ScannedAs s version tid sid flags := by
  obtain ⟨hversion, htid, hsid, hflags, rest, rfl⟩ := h
  have hlengths := hversion.length_eq
  have htlength := htid.length_eq
  have hslength := hsid.length_eq
  have hflength := hflags.length_eq
  have hspace : ∀ {width text}, IsHexField width text → ∀ b ∈ text, isSpace b = false :=
    fun hfield b hb => isSpace_eq_false_of_isHexDigit (hfield.digits b hb)
  refine ⟨?_, [], [], [], [], rest, rfl, List.forall_mem_nil _, ?_, hlengths, htlength, hslength, ?_, hflength.le,
    .inl hflength⟩
  · simp only [List.length_append, List.length_cons]
    omega
  · simp only [List.forall_mem_append]
    exact ⟨⟨⟨hspace hversion, hspace htid⟩, hspace hsid⟩, hspace hflags⟩
  · exact List.ne_nil_of_length_pos (by omega)

/-- **A header of the grammar** is accepted, and the ids are the bytes that the pairs of digits write. -/
theorem TraceparentParts.extract (h : TraceparentParts s version tid sid flags) :
    otelExtractTraceContext bare s traceId spanId =
      ⟨0, overwrite traceId (pairBytes tid), overwrite spanId (pairBytes sid)⟩ := by
  obtain ⟨hlength, hscan⟩ := h.scannedAs
  obtain ⟨_, htid, hsid, _⟩ := h
  rw [otelExtract_of_scan hlength hscan, readPairs_hex htid.length_eq htid.digits,
    readPairs_hex hsid.length_eq hsid.digits]
  rfl

/-- What stands at a place of a text is in the front that reaches over it. -/
theorem mem_take_append {n : ℕ} {front : List UInt8} (hfront : front.length < n) (c : UInt8) (rest : List UInt8) :
    c ∈ (front ++ c :: rest).take n := by
  obtain ⟨k, hk⟩ : ∃ k, n - front.length = k + 1 := ⟨n - front.length - 1, by omega⟩
  rw [List.take_append, hk, List.take_succ_cons]
  exact List.mem_append_right _ List.mem_cons_self

/-- A plain front has no blanks, so no blanks stand behind a part of it. -/
theorem PlainFront.blanks_eq_nil {front blanks rest : List UInt8} (h : PlainFront (front ++ (blanks ++ rest)))
    (hfront : front.length < 55) (hblanks : ∀ b ∈ blanks, isSpace b = true) : blanks = [] := by
  cases blanks with
  | nil => rfl
  | cons c blanks =>
    have hspace := hblanks c List.mem_cons_self
    rcases h.1 c (mem_take_append hfront c (blanks ++ rest)) with hdigit | rfl
    · rw [isSpace_eq_false_of_isHexDigit hdigit] at hspace
      cases hspace
    · cases hspace

/-- The first 55 bytes of a header without blanks. -/
theorem take_parts (hversion : version.length = 2) (htid : tid.length = 32) (hsid : sid.length = 16)
    (hflags : flags.length = 2) (rest : List UInt8) :
    (version ++ 45 :: (tid ++ 45 :: (sid ++ 45 :: (flags ++ rest)))).take 55 =
      version ++ 45 :: (tid ++ 45 :: (sid ++ 45 :: flags)) := by
  have hlength : (version ++ 45 :: (tid ++ 45 :: (sid ++ 45 :: flags))).length = 55 := by
    simp only [List.length_append, List.length_cons]
    omega
  have hsplit : version ++ 45 :: (tid ++ 45 :: (sid ++ 45 :: (flags ++ rest))) =
      (version ++ 45 :: (tid ++ 45 :: (sid ++ 45 :: flags))) ++ rest := by
    simp only [List.append_assoc, List.cons_append]
  rw [hsplit, List.take_left' hlength]

/-- The dashes in the first 55 bytes. -/
theorem count_parts : (version ++ 45 :: (tid ++ 45 :: (sid ++ 45 :: flags))).count 45 =
    version.count 45 + tid.count 45 + sid.count 45 + flags.count 45 + 3 := by
  simp only [List.count_append, List.count_cons_self]
  omega

/-- A header of the grammar has a plain front. -/
theorem TraceparentParts.plainFront (h : TraceparentParts s version tid sid flags) : PlainFront s := by
  obtain ⟨hversion, htid, hsid, hflags, rest, rfl⟩ := h
  have hnone : ∀ {width text}, IsHexField width text → text.count 45 = 0 :=
    fun hfield => List.count_eq_zero.mpr fun hmem => absurd (hfield.digits 45 hmem) (by decide)
  rw [PlainFront, take_parts hversion.length_eq htid.length_eq hsid.length_eq hflags.length_eq, count_parts,
    hnone hversion, hnone htid, hnone hsid, hnone hflags]
  refine ⟨?_, rfl⟩
  intro b hb
  simp only [List.mem_append, List.mem_cons] at hb
  rcases hb with hb | rfl | hb | rfl | hb | rfl | hb
  · exact .inl (hversion.digits b hb)
  · exact .inr rfl
  · exact .inl (htid.digits b hb)
  · exact .inr rfl
  · exact .inl (hsid.digits b hb)
  · exact .inr rfl
  · exact .inl (hflags.digits b hb)

/-- A header that is split into fields and has a plain front is one of the grammar: there are no blanks, and the three
dashes are those between the fields. -/
theorem ScannedAs.parts (h : ScannedAs s version tid sid flags) (hlength : 55 ≤ s.length) (hplain : PlainFront s) :
    TraceparentParts s version tid sid flags := by
  obtain ⟨b₀, b₁, b₂, b₃, rest, rfl, hblanks, -, hversion, htid, hsid, hsome, hflags, hend⟩ := h
  simp only [List.forall_mem_append] at hblanks
  obtain ⟨⟨⟨hb₀, hb₁⟩, hb₂⟩, hb₃⟩ := hblanks
  have hpos := List.length_pos_iff.mpr hsome
  -- from front to back: up to each place for blanks fewer than 55 bytes have passed
  obtain rfl := @PlainFront.blanks_eq_nil [] b₀ _ hplain (by decide) hb₀
  obtain rfl := @PlainFront.blanks_eq_nil (version ++ [45]) b₁ _ (by simpa using hplain) (by simp; omega) hb₁
  obtain rfl := @PlainFront.blanks_eq_nil (version ++ 45 :: (tid ++ [45])) b₂ _ (by simpa using hplain)
    (by simp; omega) hb₂
  obtain rfl := @PlainFront.blanks_eq_nil (version ++ 45 :: (tid ++ 45 :: (sid ++ [45]))) b₃ _ (by simpa using hplain)
    (by simp; omega) hb₃
  simp only [List.nil_append] at hplain hlength ⊢
  -- single flags would leave a blank at the last of the 55 places, or nothing
  have hflags : flags.length = 2 := by
    rcases hend with hfull | hblank
    · exact hfull
    · by_contra hne
      cases rest with
      | nil =>
        simp only [List.length_append, List.length_cons, List.length_nil] at hlength
        omega
      | cons c rest =>
        have hblanks : ∀ b ∈ [c], isSpace b = true := List.forall_mem_singleton.mpr (hblank c rfl)
        cases @PlainFront.blanks_eq_nil (version ++ 45 :: (tid ++ 45 :: (sid ++ 45 :: flags))) [c] rest
          (by simpa using hplain) (by simp; omega) hblanks
  obtain ⟨hbytes, hdashes⟩ := hplain
  rw [take_parts hversion htid hsid hflags] at hbytes hdashes
  rw [count_parts] at hdashes
  -- the three dashes are those between the fields, so the fields have none
  have hfield : ∀ {width text}, text.length = width → text.count 45 = 0 →
      (∀ b ∈ text, isHexDigit b = true ∨ b = 45) → IsHexField width text := by
    intro width text hwidth hnone hall
    refine ⟨hwidth, fun b hb => (hall b hb).resolve_right ?_⟩
    rintro rfl
    exact List.count_eq_zero.mp hnone hb
  simp only [List.forall_mem_append, List.forall_mem_cons] at hbytes
  obtain ⟨hv, -, ht, -, hp, -, hf⟩ := hbytes
  exact ⟨hfield hversion (by omega) hv, hfield htid (by omega) ht, hfield hsid (by omega) hp,
    hfield hflags (by omega) hf, rest, rfl⟩

end Grammar

/-! ### What was injected -/

section Injected

/-- The two digits of a byte. -/
theorem digits_two (n : ℕ) : digits 2 n = [digit (n / 16 % 16), digit (n % 16)] := rfl

/-- The pairs of digits of bytes write those bytes. -/
theorem pairBytes_flatMap_digits (bytes : List UInt8) :
    pairBytes (bytes.flatMap fun b => digits 2 b.toNat) = bytes := by
  induction bytes with
  | nil => rfl
  | cons b bytes ih =>
    have hb := b.toNat_lt
    have hvalue : b.toNat / 16 % 16 * 16 + b.toNat % 16 = b.toNat := by omega
    rw [List.flatMap_cons, digits_two, List.cons_append, List.cons_append, List.nil_append, pairBytes, ih,
      digitValue_digit (Nat.mod_lt _ (by decide)), digitValue_digit (Nat.mod_lt _ (by decide)), hvalue,
      UInt8.ofNat_toNat]

/-- The digits of the bytes of an id are a field. -/
theorem isHexField_flatMap_digits {n : ℕ} (bytes : Vector UInt8 n) :
    IsHexField (2 * n) (bytes.toList.flatMap fun b => digits 2 b.toNat) := by
  refine ⟨?_, ?_⟩
  · simp [List.length_flatMap, Nat.mul_comm]
  · intro b hb
    obtain ⟨c, _, hc⟩ := List.mem_flatMap.mp hb
    exact isHexDigit_of_mem_digits hc

/-- The parts of an injected header. -/
theorem traceparentParts_inject (traceId : TraceId) (spanId : SpanId) :
    TraceparentParts (otelInjectTraceContext traceId spanId) (ascii "00")
      (traceId.toList.flatMap fun b => digits 2 b.toNat) (spanId.toList.flatMap fun b => digits 2 b.toNat)
      (ascii "01") := by
  have hends : ascii "00-" = ascii "00" ++ [45] ∧ ascii "-" = [45] ∧ ascii "-01" = 45 :: ascii "01" := by decide
  refine ⟨⟨by decide, List.all_eq_true.mp (by decide)⟩, isHexField_flatMap_digits traceId,
    isHexField_flatMap_digits spanId, ⟨by decide, List.all_eq_true.mp (by decide)⟩, [], ?_⟩
  rw [otelInjectTraceContext, hends.1, hends.2.1, hends.2.2]
  simp only [List.append_assoc, List.cons_append, List.nil_append, List.append_nil]

end Injected

/-- **The round trip of a header.** For all ids the text has 55 bytes, and extracting from it gives the ids back. -/
theorem traceparent_round_trip (bare : Bool) (traceId : TraceId) (spanId : SpanId) (stack : TraceId × SpanId) :
    (otelInjectTraceContext traceId spanId).length = 55 ∧
      otelExtractTraceContext bare (otelInjectTraceContext traceId spanId) stack.1 stack.2 = ⟨0, traceId, spanId⟩ := by
  have hparts := traceparentParts_inject traceId spanId
  have hbytes : ∀ {n : ℕ} (id dst : Vector UInt8 n),
      overwrite dst (pairBytes (id.toList.flatMap fun b => digits 2 b.toNat)) = id := by
    intro n id dst
    rw [pairBytes_flatMap_digits]
    exact Vector.toList_inj.mp (overwrite_eq id.length_toList dst)
  refine ⟨?_, ?_⟩
  · obtain ⟨_, htid, hsid, _⟩ := hparts
    have hends : (ascii "00-").length = 3 ∧ (ascii "-").length = 1 ∧ (ascii "-01").length = 3 := by decide
    rw [otelInjectTraceContext, List.length_append, List.length_append, List.length_append, List.length_append,
      htid.length_eq, hsid.length_eq, hends.1, hends.2.1, hends.2.2]
  · rw [hparts.extract, hbytes, hbytes]

/-- **Acceptance.** An accepted header is one of the grammar just when its first 55 bytes are hexadecimal digits but
for three dashes. Those of the grammar are accepted, each byte of the ids being written by its two digits. The gateway
uses the ids of accepted headers only, and never what its variables held before. -/
theorem traceparent_acceptance_iff (bare : Bool) (s : List UInt8) (stack : TraceId × SpanId) :
    ((otelExtractTraceContext bare s stack.1 stack.2).status = 0 → (IsTraceparent s ↔ PlainFront s)) ∧
    (∀ version tid sid flags, TraceparentParts s version tid sid flags →
      (otelExtractTraceContext bare s stack.1 stack.2).status = 0 ∧
      (otelExtractTraceContext bare s stack.1 stack.2).traceId.toList = pairBytes tid ∧
      (otelExtractTraceContext bare s stack.1 stack.2).spanId.toList = pairBytes sid) ∧
    ((otelExtractTraceContext bare s stack.1 stack.2).status ≠ 0 → parentSpan bare (some s) stack = none) ∧
    ∀ stack', parentSpan bare (some s) stack = parentSpan bare (some s) stack' := by
  refine ⟨?_, ?_, ?_, ?_⟩
  · intro haccepted
    obtain ⟨hlength, version, tid, sid, flags, hscan, _⟩ := otelExtract_status_iff.mp haccepted
    constructor
    · rintro ⟨version, tid, sid, flags, hparts⟩
      exact hparts.plainFront
    · exact fun hplain => ⟨version, tid, sid, flags, hscan.parts hlength hplain⟩
  · intro version tid sid flags hparts
    rw [hparts.extract]
    obtain ⟨_, htid, hsid, _⟩ := hparts
    exact ⟨rfl, overwrite_eq (htid.length_pairBytes) _, overwrite_eq (hsid.length_pairBytes) _⟩
  · exact fun hrefused => if_neg hrefused
  · exact parentSpan_stack bare s stack

/-- A header whose ids are pairs of an `f` and a letter that is no digit, behind a blank and with a version of letters:
it is accepted, with a byte 15 for each pair. -/
theorem traceparent_acceptance_lax :
    let s := ascii " zz-fzfzfzfzfzfzfzfzfzfzfzfzfzfzfzfz-fzfzfzfzfzfzfzfz-!!"
    (∀ bare, (otelExtractTraceContext bare s (.replicate 16 0) (.replicate 8 0)).status = 0 ∧
      parentSpan bare (some s) (.replicate 16 0, .replicate 8 0) = some (.replicate 16 15, .replicate 8 15)) ∧
    ¬IsTraceparent s := by
  intro s
  refine ⟨by decide +kernel, ?_⟩
  rintro ⟨version, tid, sid, flags, hparts⟩
  have hblank : ¬PlainFront s := by decide +kernel
  exact hblank hparts.plainFront

end CGateway
