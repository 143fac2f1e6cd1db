import CGateway.Ipc.Config
import CGateway.Lib.Search

/-! # The printed IPC configuration

`ipc_config_print` hides what it takes for the credentials of the NATS URL: everything between the first
`://` and the first `@`, where the `@` comes behind. So what a URL shows of its user-info depends on where
its first `@` is, and on whether a `://` stands before it. The copy the function searches has no room for the
NUL of a URL of 255 bytes; then the text behind the `@` runs into the stack.

* `ipcConfigPrint` — the text, with what the stack holds behind the copy as a parameter;
* `CredentialUrl` — a URL with user-info: an optional scheme, the user-info, the rest behind the last `@`;
* `CredentialUrl.shown` — what is printed of the user-info;
* `CredentialUrl.printed`, `printedUrl_text` — the printed URL, in these parts;
* `ipc_config_print_iff` — when two configurations that differ in the user-info are printed alike;
* `print_eq_of_scheme` — they are where there is a scheme, no `@` in the user-info, and room for the NUL. -/

namespace CGateway

open Bytes CString

/-! ### The printed text -/

/-- The bytes `strncpy` writes. -/
def strncpy (n : ℕ) (s : List UInt8) : List UInt8 := s.take n ++ List.replicate (n - s.length) 0

/-- The URL as it is printed. `stack` is what the memory holds behind the 255 bytes written to
`sanitized_url`. -/
def printedUrl (stack natsUrl : List UInt8) : List UInt8 :=
  let sanitizedUrl := cstr (strncpy 255 natsUrl ++ stack)
  if 64 ∈ sanitizedUrl then
    match splitFirst (ascii "://") sanitizedUrl with
    | some (scheme, _) =>
        if scheme.length < (sanitizedUrl.takeWhile (· != 64)).length then
          scheme ++ ascii "://***@" ++ (sanitizedUrl.dropWhile (· != 64)).drop 1
        else natsUrl
    | none => natsUrl
  else natsUrl

/-- One line of the output. -/
def configLine (label : String) (value : List UInt8) : List UInt8 := ascii label ++ value ++ ascii "\n"

/-- The lines before the URL. -/
def linesBeforeUrl (config : IpcConfig) : List UInt8 :=
  configLine "[ipc_config] Configuration:" [] ++
    configLine "  ipc_enable:       " (decimal config.ipcEnable) ++
    configLine "  socket_path:      " config.socketPath.bytes ++
    configLine "  max_connections:  " (decimal config.maxConnections) ++
    configLine "  nats_enable:      " (decimal config.natsEnable)

/-- The lines behind the URL. -/
def linesBehindUrl (config : IpcConfig) : List UInt8 :=
  configLine "  router_subject:   " config.routerSubject.bytes ++
    configLine "  timeout_ms:       " (decimal config.timeoutMs) ++
    configLine "  validated:        " (decimal config.validated)

/-- `ipc_config_print`. -/
def ipcConfigPrint (stack : List UInt8) (config : IpcConfig) : List UInt8 :=
  linesBeforeUrl config ++
    (if config.natsUrl.bytes ≠ [] then configLine "  nats_url:         " (printedUrl stack config.natsUrl.bytes)
      else []) ++
    linesBehindUrl config

/-! ### URLs with user-info -/

/-- A letter. -/
def isLetter (b : UInt8) : Bool := (65 ≤ b && b ≤ 90) || (97 ≤ b && b ≤ 122)

/-- A byte of a scheme behind its first. -/
def isSchemeByte (b : UInt8) : Bool := isLetter b || isDigit b || b == 43 || b == 45 || b == 46

/-- A scheme: a letter, and then letters, digits, plus signs, minus signs and full stops. -/
def isScheme : List UInt8 → Bool
  | [] => false
  | b :: s => isLetter b && s.all isSchemeByte

/-- The text begins with a scheme. -/
def hasScheme (text : List UInt8) : Bool := (splitFirst (ascii "://") text).any fun parts => isScheme parts.1

/-- The optional scheme as it is written. -/
def schemeText : Option (List UInt8) → List UInt8
  | none => []
  | some scheme => scheme ++ ascii "://"

/-- A URL with user-info: everything behind the optional scheme and before the last `@` of the authority,
which ends at a slash, a question mark or a number sign. The user-info is any text. -/
structure CredentialUrl where
  scheme : Option (List UInt8)
  userInfo : List UInt8
  rest : List UInt8
  scheme_isScheme : ∀ s ∈ scheme, isScheme s = true
  no_scheme : scheme = none → hasScheme (userInfo ++ 64 :: rest) = false
  last_at : 64 ∉ rest.takeWhile fun b => b != 47 && b != 63 && b != 35

/-- What is printed of the user-info. -/
inductive Shown where
  /-- The text before the first `://`, and what is behind the first `@`. -/
  | masked (front kept : List UInt8)
  /-- All of it. -/
  | whole (userInfo : List UInt8)
  deriving DecidableEq

/-- The text before the first `@`. -/
def beforeAt (s : List UInt8) : List UInt8 := s.takeWhile (· != 64)

/-- The text behind the first `@` of a text that is closed by another one. -/
def behindAt (s : List UInt8) : List UInt8 := ((s ++ [64]).dropWhile (· != 64)).drop 1

namespace CredentialUrl

/-- The bytes of the URL. -/
def text (url : CredentialUrl) : List UInt8 := schemeText url.scheme ++ (url.userInfo ++ 64 :: url.rest)

/-- What is printed of the user-info: all of it where no `://` stands before the first `@`. -/
def shown (url : CredentialUrl) : Shown :=
  match splitFirst (ascii "://") (beforeAt (schemeText url.scheme ++ url.userInfo)) with
  | some (front, _) => .masked front (behindAt url.userInfo)
  | none => .whole url.userInfo

end CredentialUrl

/-! ### The first `@` -/

theorem at_notMem_beforeAt (s : List UInt8) : 64 ∉ beforeAt s := sep_notMem_takeWhile 64 s

/-- A text is divided at its first `@`. -/
theorem append_at_eq (s rest : List UInt8) : s ++ 64 :: rest = beforeAt s ++ 64 :: (behindAt s ++ rest) := by
  -- The first `@` is one of the text, or else the one behind it.
  by_cases hmem : 64 ∈ s
  · have hs := eq_append_sep hmem
    have hbehind : behindAt s = (s.dropWhile (· != 64)).drop 1 ++ [64] := by
      have hclosed : s ++ [64] = s.takeWhile (· != 64) ++ 64 :: ((s.dropWhile (· != 64)).drop 1 ++ [64]) := by
        conv_lhs => rw [hs]
        simp
      rw [behindAt, hclosed, drop_dropWhile_append_sep (sep_notMem_takeWhile 64 s)]
    rw [hbehind, beforeAt]
    conv_lhs => rw [hs]
    simp
  · rw [beforeAt, behindAt, drop_dropWhile_append_sep hmem, List.nil_append,
      List.takeWhile_eq_self_iff.mpr (bne_of_sep_notMem hmem)]

/-- A text without `@` in front of another. -/
theorem behindAt_append {front : List UInt8} (hfront : 64 ∉ front) (s : List UInt8) :
    behindAt (front ++ s) = behindAt s := by
  rw [behindAt, List.append_assoc, List.dropWhile_append_of_pos (bne_of_sep_notMem hfront), behindAt]

theorem behindAt_of_notMem {s : List UInt8} (hs : 64 ∉ s) : behindAt s = [] := drop_dropWhile_append_sep hs

/-- A scheme has no `:` and no `@`. -/
theorem notMem_of_isScheme {scheme : List UInt8} (h : isScheme scheme = true) : 58 ∉ scheme ∧ 64 ∉ scheme := by
  cases scheme with
  | nil => cases h
  | cons b s =>
    rw [isScheme, Bool.and_eq_true, List.all_eq_true] at h
    refine ⟨?_, ?_⟩
    all_goals
      rw [List.mem_cons, not_or]
      refine ⟨fun hb => ?_, fun hmem => ?_⟩
      · rw [← hb] at h
        exact absurd h.1 (by decide)
      · exact absurd (h.2 _ hmem) (by decide)

section Url

variable (url : CredentialUrl)

/-- What is written before the user-info has no `@`. -/
theorem at_notMem_schemeText : 64 ∉ schemeText url.scheme := by
  cases hscheme : url.scheme with
  | none => exact List.not_mem_nil
  | some scheme =>
    rw [schemeText, List.mem_append, not_or]
    exact ⟨(notMem_of_isScheme (url.scheme_isScheme scheme hscheme)).2, by decide⟩

/-- The URL, divided at its first `@`. -/
theorem text_eq : url.text = beforeAt (schemeText url.scheme ++ url.userInfo) ++
    64 :: (behindAt url.userInfo ++ url.rest) := by
  rw [CredentialUrl.text, ← List.append_assoc, append_at_eq, behindAt_append (at_notMem_schemeText url)]

/-- With a scheme, the user-info is hidden up to its first `@`. -/
theorem shown_of_scheme {scheme : List UInt8} (h : url.scheme = some scheme) :
    url.shown = .masked scheme (behindAt url.userInfo) := by
  obtain ⟨hcolon, hat⟩ := notMem_of_isScheme (url.scheme_isScheme scheme h)
  have hword : ascii "://" = 58 :: ascii "//" := by decide
  have hbefore : beforeAt (schemeText url.scheme ++ url.userInfo) =
      scheme ++ (ascii "://" ++ beforeAt url.userInfo) := by
    rw [beforeAt, List.takeWhile_append_of_pos (bne_of_sep_notMem (at_notMem_schemeText url)), h, schemeText,
      List.append_assoc, beforeAt]
  have hskip : Skips (ascii "://") scheme := by
    rw [hword]
    exact skips_of_notMem hcolon
  rw [CredentialUrl.shown, hbefore, hskip.splitFirst_eq (by decide)]

end Url

/-! ### What is printed -/

/-- What the copy of a URL runs into. -/
def overrun (stack natsUrl : List UInt8) : List UInt8 := if natsUrl.length < 255 then [] else cstr stack

theorem overrun_nil (natsUrl : List UInt8) : overrun [] natsUrl = [] := by
  rw [overrun]
  split <;> rfl

/-- A copy that runs into nothing has its NUL. -/
theorem length_lt_of_overrun {natsUrl : List UInt8} (h : overrun [1] natsUrl = []) : natsUrl.length < 255 := by
  by_contra hfull
  rw [overrun, if_neg hfull] at h
  cases h

/-- The copy is the URL, and where the URL has 255 bytes what the stack holds behind it. -/
theorem cstr_strncpy {natsUrl : List UInt8} (hlength : natsUrl.length < 256) (hzero : 0 ∉ natsUrl)
    (stack : List UInt8) : cstr (strncpy 255 natsUrl ++ stack) = natsUrl ++ overrun stack natsUrl := by
  rw [strncpy, List.take_of_length_le (by omega), List.append_assoc, cstr_append hzero, overrun]
  congr 1
  -- The padding ends the copy, unless the URL has filled it.
  split
  · next hshort =>
      obtain ⟨k, hk⟩ : ∃ k, 255 - natsUrl.length = k + 1 := ⟨254 - natsUrl.length, by omega⟩
      rw [hk, List.replicate_succ]
      rfl
  · next hfull =>
      rw [show 255 - natsUrl.length = 0 by omega, List.replicate_zero, List.nil_append]

/-- A copy with a `://` before its first `@` is masked. -/
theorem printedUrl_of_found {stack natsUrl before behind front back : List UInt8}
    (hcopy : cstr (strncpy 255 natsUrl ++ stack) = before ++ 64 :: behind) (hbefore : 64 ∉ before)
    (hfound : splitFirst (ascii "://") before = some (front, back)) :
    printedUrl stack natsUrl = front ++ ascii "://***@" ++ behind := by
  have hsplit := splitFirst_eq_some hfound
  have hwhole : splitFirst (ascii "://") (before ++ 64 :: behind) = some (front, back ++ 64 :: behind) := by
    rw [hsplit, List.append_assoc, List.append_assoc]
    exact splitFirst_front (by decide) hfound _
  have hlength : front.length < before.length := by
    rw [hsplit, List.length_append, List.length_append, show (ascii "://").length = 3 by decide]
    omega
  rw [printedUrl, hcopy, if_pos (by simp), hwhole]
  dsimp only
  rw [takeWhile_append_sep hbefore, if_pos hlength, drop_dropWhile_append_sep hbefore]

/-- A copy without one is not. -/
theorem printedUrl_of_none {stack natsUrl before behind : List UInt8}
    (hcopy : cstr (strncpy 255 natsUrl ++ stack) = before ++ 64 :: behind) (hbefore : 64 ∉ before)
    (hnone : splitFirst (ascii "://") before = none) : printedUrl stack natsUrl = natsUrl := by
  have hskip : Skips (ascii "://") (before ++ [64]) :=
    skips_field (by decide) (by decide) (by rw [contains, hnone]; rfl)
  have hwhole := hskip behind
  rw [List.append_assoc, List.singleton_append] at hwhole
  rw [printedUrl, hcopy, if_pos (by simp), hwhole]
  cases splitFirst (ascii "://") behind with
  | none => rfl
  | some parts =>
    dsimp only [Option.map_some]
    -- A `://` behind the `@` does not come before it.
    rw [takeWhile_append_sep hbefore, if_neg (by simp only [List.length_append]; omega)]

/-- The printed URL, in the parts of the URL. -/
def CredentialUrl.printed (stack : List UInt8) (url : CredentialUrl) : List UInt8 :=
  match url.shown with
  | .masked front kept => front ++ ascii "://***@" ++ (kept ++ url.rest ++ overrun stack url.text)
  | .whole _ => url.text

/-- **What is printed of a URL with user-info.** -/
theorem printedUrl_text (url : CredentialUrl) {natsUrl : TextField 256} (htext : natsUrl.bytes = url.text)
    (stack : List UInt8) : printedUrl stack natsUrl.bytes = url.printed stack := by
  have hlength := natsUrl.fits
  have hzero := natsUrl.terminated
  rw [htext] at hlength hzero ⊢
  have hcopy := cstr_strncpy hlength hzero stack
  have hbefore := at_notMem_beforeAt (schemeText url.scheme ++ url.userInfo)
  have hparts : cstr (strncpy 255 url.text ++ stack) = beforeAt (schemeText url.scheme ++ url.userInfo) ++
      64 :: (behindAt url.userInfo ++ url.rest ++ overrun stack url.text) := by
    rw [hcopy]
    generalize overrun stack url.text = tail
    rw [text_eq url, List.append_assoc, List.cons_append]
  rw [CredentialUrl.printed, CredentialUrl.shown]
  cases hfound : splitFirst (ascii "://") (beforeAt (schemeText url.scheme ++ url.userInfo)) with
  | none => exact printedUrl_of_none hparts hbefore hfound
  | some parts => exact printedUrl_of_found hparts hbefore hfound

/-! ### Two configurations -/

section Shown

variable {url : CredentialUrl} {front kept u : List UInt8}

theorem of_shown_masked (h : url.shown = .masked front kept) :
    ∃ back, splitFirst (ascii "://") (beforeAt (schemeText url.scheme ++ url.userInfo)) = some (front, back) := by
  rw [CredentialUrl.shown] at h
  split at h
  · next front' back hfound =>
      obtain ⟨rfl, -⟩ := Shown.masked.inj h
      exact ⟨back, hfound⟩
  · cases h

theorem of_shown_whole (h : url.shown = .whole u) :
    splitFirst (ascii "://") (beforeAt (schemeText url.scheme ++ url.userInfo)) = none ∧ url.userInfo = u := by
  rw [CredentialUrl.shown] at h
  split at h
  · cases h
  · next hnone => exact ⟨hnone, Shown.whole.inj h⟩

/-- A masked text shows what stands before its mask. -/
theorem splitFirst_masked (h : url.shown = .masked front kept) (rest : List UInt8) :
    splitFirst (ascii "://") (front ++ (ascii "://" ++ rest)) = some (front, rest) := by
  obtain ⟨back, hfound⟩ := of_shown_masked h
  exact splitFirst_front (by decide) hfound rest

theorem masked_inj {url' : CredentialUrl} {front' kept' x x' : List UInt8} (h : url.shown = .masked front kept)
    (h' : url'.shown = .masked front' kept') (heq : front ++ ascii "://***@" ++ x = front' ++ ascii "://***@" ++ x') :
    front = front' ∧ x = x' := by
  have hmask : ascii "://***@" = ascii "://" ++ ascii "***@" := by decide
  simp only [hmask, List.append_assoc] at heq
  -- The first `://` of either text is that of its mask.
  have hparts := congrArg (splitFirst (ascii "://")) heq
  rw [splitFirst_masked h, splitFirst_masked h'] at hparts
  obtain ⟨hfront, hrest⟩ := Prod.mk.inj (Option.some.inj hparts)
  exact ⟨hfront, List.append_cancel_left hrest⟩

/-- A masked URL is none that is printed whole: that one has no `://` before its first `@`. -/
theorem masked_ne_text {url' : CredentialUrl} (h : url.shown = .masked front kept) (h' : url'.shown = .whole u)
    (rest : List UInt8) : front ++ ascii "://***@" ++ rest ≠ url'.text := by
  intro heq
  have hmask : ascii "://***@" = ascii "://" ++ (ascii "***" ++ [64]) := by decide
  obtain ⟨back, hfound⟩ := of_shown_masked h
  have hfront : 64 ∉ front ++ (ascii "://" ++ ascii "***") := by
    have hbefore := at_notMem_beforeAt (schemeText url.scheme ++ url.userInfo)
    rw [splitFirst_eq_some hfound] at hbefore
    simp only [List.mem_append, not_or] at hbefore ⊢
    exact ⟨hbefore.1.1, by decide, by decide⟩
  have hdivided : front ++ (ascii "://" ++ ascii "***") ++ 64 :: rest =
      beforeAt (schemeText url'.scheme ++ url'.userInfo) ++ 64 :: (behindAt url'.userInfo ++ url'.rest) := by
    rw [← text_eq url', ← heq, hmask]
    simp
  obtain ⟨hsame, -⟩ := append_sep_inj hfront (at_notMem_beforeAt _) hdivided
  have hmatch := splitFirst_masked h (ascii "***")
  rw [hsame, (of_shown_whole h').1] at hmatch
  cases hmatch

end Shown

/-- Two configurations that are equal except for the user-info of their URLs. -/
structure DifferInUserInfo (config config' : IpcConfig) (url url' : CredentialUrl) : Prop where
  left : config.natsUrl.bytes = url.text
  right : config'.natsUrl.bytes = url'.text
  others : config' = { config with natsUrl := config'.natsUrl }
  scheme : url.scheme = url'.scheme
  rest : url.rest = url'.rest

/-- The user-info is hidden, or some of it. -/
def Shown.isMasked : Shown → Bool
  | .masked _ _ => true
  | .whole _ => false

theorem text_ne_nil (url : CredentialUrl) : url.text ≠ [] := by
  rw [text_eq]
  simp

section Pair

variable {config config' : IpcConfig} {url url' : CredentialUrl} (hpair : DifferInUserInfo config config' url url')
include hpair

/-- The two are printed alike where their URLs are. -/
theorem print_eq_iff (stack stack' : List UInt8) :
    ipcConfigPrint stack config = ipcConfigPrint stack' config' ↔ url.printed stack = url'.printed stack' := by
  have hbefore : linesBeforeUrl config' = linesBeforeUrl config := by
    rw [hpair.others]
    rfl
  have hbehind : linesBehindUrl config' = linesBehindUrl config := by
    rw [hpair.others]
    rfl
  have hne : config.natsUrl.bytes ≠ [] := hpair.left ▸ text_ne_nil url
  have hne' : config'.natsUrl.bytes ≠ [] := hpair.right ▸ text_ne_nil url'
  rw [ipcConfigPrint, ipcConfigPrint, if_pos hne, if_pos hne', hbefore, hbehind, List.append_left_inj,
    List.append_right_inj, configLine, configLine, List.append_left_inj, List.append_right_inj,
    printedUrl_text url hpair.left, printedUrl_text url' hpair.right]

/-- What shows the same is printed alike, where the copies have room for their NUL. -/
theorem print_eq_of_shown (hshown : url.shown = url'.shown)
    (hroom : url.shown.isMasked = true → url.text.length < 255 ∧ url'.text.length < 255) (stack stack' : List UInt8) :
    ipcConfigPrint stack config = ipcConfigPrint stack' config' := by
  rw [print_eq_iff hpair, CredentialUrl.printed, CredentialUrl.printed, ← hshown, ← hpair.rest]
  cases hcase : url.shown with
  | masked front kept =>
    obtain ⟨hurl, hurl'⟩ := hroom (by rw [hcase]; rfl)
    dsimp only
    rw [overrun, if_pos hurl, overrun, if_pos hurl']
  | whole u =>
    dsimp only
    rw [CredentialUrl.text, CredentialUrl.text, hpair.scheme, hpair.rest, (of_shown_whole hcase).2,
      (of_shown_whole (hshown ▸ hcase)).2]

/-- What is printed alike, whatever the stack holds, shows the same and has room. -/
theorem shown_eq_of_print
    (hsame : ∀ stack stack', ipcConfigPrint stack config = ipcConfigPrint stack' config') :
    url.shown = url'.shown ∧ (url.shown.isMasked = true → url.text.length < 255 ∧ url'.text.length < 255) := by
  have hprinted := fun stack stack' => (print_eq_iff hpair stack stack').mp (hsame stack stack')
  simp only [CredentialUrl.printed, ← hpair.rest] at hprinted
  cases hcase : url.shown with
  | masked front kept =>
    cases hcase' : url'.shown with
    | masked front' kept' =>
      simp only [hcase, hcase'] at hprinted
      have hparts := fun stack stack' => masked_inj hcase hcase' (hprinted stack stack')
      -- With nothing on the stack, the texts are their parts.
      obtain ⟨rfl, hkept⟩ := hparts [] []
      rw [overrun_nil, overrun_nil, List.append_nil, List.append_nil, List.append_left_inj] at hkept
      subst hkept
      -- One byte on the stack would show behind a copy without its NUL.
      refine ⟨rfl, fun _ => ⟨length_lt_of_overrun ?_, length_lt_of_overrun ?_⟩⟩
      · have hright := (hparts [1] []).2
        rwa [overrun_nil, List.append_right_inj] at hright
      · have hleft := (hparts [] [1]).2
        rw [overrun_nil, List.append_right_inj] at hleft
        exact hleft.symm
    | whole u =>
      simp only [hcase, hcase'] at hprinted
      exact absurd (hprinted [] []) (masked_ne_text hcase hcase' _)
  | whole u =>
    cases hcase' : url'.shown with
    | masked front kept =>
      simp only [hcase, hcase'] at hprinted
      exact absurd (hprinted [] []).symm (masked_ne_text hcase' hcase _)
    | whole u' =>
      simp only [hcase, hcase'] at hprinted
      have htext := hprinted [] []
      rw [CredentialUrl.text, CredentialUrl.text, hpair.scheme, hpair.rest, List.append_right_inj,
        List.append_left_inj, (of_shown_whole hcase).2, (of_shown_whole hcase').2] at htext
      exact ⟨by rw [htext], fun hmasked => by cases hmasked⟩

/-- **When the credentials do not show.** Two configurations that differ in the user-info of their URLs are
printed alike, whatever the stack holds, just when the same is shown of their user-info and, where some of it
is masked, each URL leaves room for its NUL in the copy. -/
theorem ipc_config_print_iff :
    (∀ stack stack', ipcConfigPrint stack config = ipcConfigPrint stack' config') ↔
      url.shown = url'.shown ∧
        (url.shown.isMasked = true → url.text.length < 255 ∧ url'.text.length < 255) :=
  ⟨shown_eq_of_print hpair, fun h => print_eq_of_shown hpair h.1 h.2⟩

/-- **The usual URL shows nothing**: with a scheme, without an `@` in the user-info, and of less than 255
bytes. -/
theorem print_eq_of_scheme {scheme : List UInt8} (hscheme : url.scheme = some scheme)
    (hat : 64 ∉ url.userInfo) (hat' : 64 ∉ url'.userInfo)
    (hroom : url.text.length < 255 ∧ url'.text.length < 255) (stack stack' : List UInt8) :
    ipcConfigPrint stack config = ipcConfigPrint stack' config' := by
  refine print_eq_of_shown hpair ?_ (fun _ => hroom) stack stack'
  rw [shown_of_scheme url hscheme, shown_of_scheme url' (hpair.scheme ▸ hscheme), behindAt_of_notMem hat,
    behindAt_of_notMem hat']

end Pair

/-! ### Three URLs -/

/-- A URL with a scheme. -/
def CredentialUrl.ofScheme (scheme userInfo rest : List UInt8) (hscheme : isScheme scheme = true)
    (hrest : 64 ∉ rest.takeWhile fun b => b != 47 && b != 63 && b != 35) : CredentialUrl where
  scheme := some scheme
  userInfo := userInfo
  rest := rest
  scheme_isScheme := fun _ hs => Option.mem_some.mp hs ▸ hscheme
  no_scheme := fun hnone => by cases hnone
  last_at := hrest

/-- The default configuration with another URL. -/
def urlConfig (natsUrl : List UInt8) : IpcConfig where
  ipcEnable := 1
  socketPath := .copy 256 (Nat.succ_pos 255) (ascii "/tmp/beamline-gateway.sock")
  maxConnections := 64
  natsEnable := 0
  natsUrl := .copy 256 (Nat.succ_pos 255) natsUrl
  routerSubject := .copy 128 (Nat.succ_pos 127) (ascii "beamline.router.v1.decide")
  timeoutMs := 30000
  validated := 0

/-- Two passwords that do not show. -/
theorem ipc_config_print_hidden :
    let url := CredentialUrl.ofScheme (ascii "nats") (ascii "u:p") (ascii "h:4222") (by decide) (by decide)
    let url' := CredentialUrl.ofScheme (ascii "nats") (ascii "u:secret") (ascii "h:4222") (by decide) (by decide)
    DifferInUserInfo (urlConfig url.text) (urlConfig url'.text) url url' ∧
      ∀ stack stack', ipcConfigPrint stack (urlConfig url.text) = ipcConfigPrint stack' (urlConfig url'.text) := by
  intro url url'
  have hpair : DifferInUserInfo (urlConfig url.text) (urlConfig url'.text) url url' :=
    ⟨by decide, by decide, rfl, rfl, rfl⟩
  exact ⟨hpair, (ipc_config_print_iff hpair).mpr ⟨by decide, fun _ => by decide⟩⟩

/-- **Credentials that show.** A password with an `@` in it is printed from there on, and a URL without a
scheme is printed with its whole user-info. -/
theorem credentials_printed :
    (let url := CredentialUrl.ofScheme (ascii "nats") (ascii "u:p@ss") (ascii "h") (by decide) (by decide)
      let url' := CredentialUrl.ofScheme (ascii "nats") (ascii "u:p@xx") (ascii "h") (by decide) (by decide)
      DifferInUserInfo (urlConfig url.text) (urlConfig url'.text) url url' ∧
        printedUrl [] url.text = ascii "nats://***@ss@h" ∧
        ipcConfigPrint [] (urlConfig url.text) ≠ ipcConfigPrint [] (urlConfig url'.text)) ∧
      let url : CredentialUrl := ⟨none, ascii "u:p", ascii "h", nofun, fun _ => by decide, by decide⟩
      let url' : CredentialUrl := ⟨none, ascii "u:secret", ascii "h", nofun, fun _ => by decide, by decide⟩
      DifferInUserInfo (urlConfig url.text) (urlConfig url'.text) url url' ∧
        printedUrl [] url.text = ascii "u:p@h" ∧
        ipcConfigPrint [] (urlConfig url.text) ≠ ipcConfigPrint [] (urlConfig url'.text) := by
  refine ⟨?_, ?_⟩
  · intro url url'
    have hpair : DifferInUserInfo (urlConfig url.text) (urlConfig url'.text) url url' :=
      ⟨by decide, by decide, rfl, rfl, rfl⟩
    refine ⟨hpair, by decide, ?_⟩
    rw [Ne, print_eq_iff hpair]
    decide
  · intro url url'
    have hpair : DifferInUserInfo (urlConfig url.text) (urlConfig url'.text) url url' :=
      ⟨by decide, by decide, rfl, rfl, rfl⟩
    refine ⟨hpair, by decide, ?_⟩
    rw [Ne, print_eq_iff hpair]
    decide

end CGateway
