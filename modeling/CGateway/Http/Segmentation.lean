import CGateway.Http.Frame
import CGateway.Http.DecidePath

/-! # One read per connection

`handle_client` calls `read` once and takes what it returns for the whole request, so what it does
depends on how the transport has cut the request up.

* `HttpMessage`, `HttpMessage.Complete` — the requests that a client may send;
* `parseRequest_complete` — a complete request is understood when it arrives in one piece;
* `parseRequest_singleton` — one byte is no request, whichever it is;
* `Ledger.malformed`, `Ends.ne_malformed` — the two leave different gateways behind. -/

namespace CGateway

open Bytes CString

/-! ### Requests -/

/-- A request: the words of its first line, its header lines and its body. -/
structure HttpMessage where
  method : List UInt8
  target : List UInt8
  version : List UInt8
  headers : List (List UInt8)
  body : List UInt8

namespace HttpMessage

/-- The request line. -/
def requestLine (m : HttpMessage) : List UInt8 := m.method ++ 32 :: (m.target ++ 32 :: m.version)

/-- The bytes of a request. -/
def bytes (m : HttpMessage) : List UInt8 :=
  m.requestLine ++ ascii "\r\n" ++ m.headers.flatMap (· ++ ascii "\r\n") ++ ascii "\r\n" ++ m.body

/-- The length that the `Content-Length` header announces, zero without one. -/
def contentLength (m : HttpMessage) : ℕ :=
  match m.headers.find? (startsIgnoreCase (ascii "Content-Length:")) with
  | none => 0
  | some line => leadingNat (headerValue "Content-Length:" line)

end HttpMessage

/-- A word of the request line. -/
def isWord (w : List UInt8) : Bool := w != [] && w.all fun b => b != 0 && b != 32 && !isLineEnd b

/-- A header line. -/
def isHeaderLine (line : List UInt8) : Bool := line != [] && line.all fun b => b != 0 && !isLineEnd b

/-- A complete request of less than 65536 bytes. -/
structure HttpMessage.Complete (m : HttpMessage) : Prop where
  method : isWord m.method = true
  target : isWord m.target = true
  version : isWord m.version = true
  headers : m.headers.all isHeaderLine = true
  body : m.body.length = m.contentLength
  size : m.bytes.length < maxMessageSize

/-- The lines of a request are lines, and its request line has three words. -/
structure HttpMessage.WellFormed (m : HttpMessage) : Prop where
  method : isWord m.method = true
  target : isWord m.target = true
  version : isWord m.version = true
  headers : m.headers.all isHeaderLine = true

theorem HttpMessage.Complete.wellFormed {m : HttpMessage} (hm : m.Complete) : m.WellFormed :=
  ⟨hm.method, hm.target, hm.version, hm.headers⟩

/-- The pieces in which a transport may deliver the bytes. -/
structure IsSplit (pieces : List (List UInt8)) (bytes : List UInt8) : Prop where
  whole : pieces.flatten = bytes
  nonempty : ∀ piece ∈ pieces, piece ≠ []

/-- What the client and the gateway see of a connection that delivers these pieces. -/
def outcome (h : Host) (g : Gateway) (x : Exchange) (pieces : List (List UInt8)) :
    List Response × Gateway :=
  let step := httpStep h g { x with reads := pieces }
  (responses step.2, step.1)

/-! ### A request in one piece -/

section Whole

variable {m : HttpMessage}

/-- The bytes of a word. -/
theorem mem_word {w : List UInt8} (hw : isWord w = true) :
    w ≠ [] ∧ ∀ b ∈ w, b ≠ 0 ∧ (b == 32) = false ∧ isLineEnd b = false := by
  rw [isWord, Bool.and_eq_true, List.all_eq_true] at hw
  refine ⟨by simpa using hw.1, fun b hb => ?_⟩
  have hbyte := hw.2 b hb
  simp only [Bool.and_eq_true, bne_iff_ne, ne_eq, Bool.not_eq_true'] at hbyte
  exact ⟨hbyte.1.1, by simpa using hbyte.1.2, hbyte.2⟩

/-- The request line holds neither a NUL nor the end of a line. -/
theorem mem_requestLine (hm : m.WellFormed) : ∀ b ∈ m.requestLine, b ≠ 0 ∧ isLineEnd b = false := by
  intro b hb
  rw [HttpMessage.requestLine, List.mem_append, List.mem_cons, List.mem_append, List.mem_cons] at hb
  rcases hb with hb | rfl | hb | rfl | hb
  · obtain ⟨hzero, -, hline⟩ := (mem_word hm.method).2 b hb
    exact ⟨hzero, hline⟩
  · exact ⟨by decide, by decide⟩
  · obtain ⟨hzero, -, hline⟩ := (mem_word hm.target).2 b hb
    exact ⟨hzero, hline⟩
  · exact ⟨by decide, by decide⟩
  · obtain ⟨hzero, -, hline⟩ := (mem_word hm.version).2 b hb
    exact ⟨hzero, hline⟩

/-- The words of the request line. -/
theorem tokens_requestLine (hm : m.WellFormed) : tokens (· == 32) m.requestLine = [m.method, m.target, m.version] := by
  obtain ⟨hmethod, hmethodBytes⟩ := mem_word hm.method
  obtain ⟨htarget, htargetBytes⟩ := mem_word hm.target
  obtain ⟨hversion, hversionBytes⟩ := mem_word hm.version
  rw [HttpMessage.requestLine, tokens_append_delim hmethod (fun b hb => (hmethodBytes b hb).2.1) (by decide),
    tokens_append_delim htarget (fun b hb => (htargetBytes b hb).2.1) (by decide),
    tokens_of_no_delim hversion fun b hb => (hversionBytes b hb).2.1]

/-- The first line of a text that goes on behind it, or ends there. -/
theorem tokens_firstLine {line head : List UInt8} (hne : line ≠ []) (hline : ∀ b ∈ line, isLineEnd b = false)
    (hhead : head = line ∨ ∃ rest, head = line ++ 13 :: rest) : ∃ others, tokens isLineEnd head = line :: others := by
  rcases hhead with rfl | ⟨rest, rfl⟩
  · exact ⟨[], tokens_of_no_delim hne hline⟩
  · exact ⟨_, tokens_append_delim hne hline (by decide) rest⟩

/-- The head of a request begins with its request line. -/
theorem splitRequest_requestLine (hm : m.WellFormed) :
    (splitRequest m.bytes).1 = m.requestLine ∨ ∃ rest, (splitRequest m.bytes).1 = m.requestLine ++ 13 :: rest := by
  have hline := mem_requestLine hm
  -- The C string goes on behind the request line.
  obtain ⟨behindLine, hbuffer⟩ : ∃ rest, cstr m.bytes = m.requestLine ++ 13 :: rest := by
    have hbytes : m.bytes = m.requestLine ++ (13 :: 10 :: (m.headers.flatMap (· ++ ascii "\r\n") ++
        ascii "\r\n" ++ m.body)) := by
      simp only [HttpMessage.bytes, List.append_assoc]
      rfl
    rw [hbytes, cstr, List.takeWhile_append_of_pos fun b hb => by simpa using (hline b hb).1]
    exact ⟨_, congrArg (m.requestLine ++ ·) (List.takeWhile_cons_of_pos (by decide))⟩
  rw [splitRequest, hbuffer]
  cases hsplit : splitFirst (ascii "\r\n\r\n") (m.requestLine ++ 13 :: behindLine) with
  | none => exact .inr ⟨behindLine, rfl⟩
  | some parts =>
    obtain ⟨before, behind⟩ := parts
    have hparts := splitFirst_eq_some hsplit
    have hblank : ascii "\r\n\r\n" = [13, 10, 13, 10] := by decide
    rw [List.append_assoc, hblank] at hparts
    -- The blank line does not begin within the request line, which has no line end.
    rcases List.append_eq_append_iff.mp hparts with ⟨mid, hbefore, hmid⟩ | ⟨mid, hrequest, hmid⟩
    · cases mid with
      | nil =>
        rw [List.append_nil] at hbefore
        exact .inl hbefore
      | cons b mid =>
        obtain ⟨rfl, -⟩ := List.cons.inj hmid
        exact .inr ⟨mid, hbefore⟩
    · cases mid with
      | nil =>
        rw [List.append_nil] at hrequest
        exact .inl hrequest.symm
      | cons b mid =>
        exfalso
        obtain ⟨rfl, -⟩ := List.cons.inj hmid
        have hend := (hline 13 (by rw [hrequest]; simp)).2
        exact absurd hend (by decide)

/-- A complete request is understood. -/
theorem parseRequest_complete (hm : m.Complete) : ∃ rq, parseRequest m.bytes = some rq := by
  have hne : m.requestLine ≠ [] := by
    intro hnil
    have := congrArg List.length hnil
    simp [HttpMessage.requestLine] at this
  obtain ⟨others, htokens⟩ := tokens_firstLine hne (fun b hb => (mem_requestLine hm.wellFormed b hb).2)
    (splitRequest_requestLine hm.wellFormed)
  unfold parseRequest
  dsimp only
  rw [htokens]
  dsimp only
  rw [tokens_requestLine hm.wellFormed]
  exact ⟨_, rfl⟩

end Whole

/-! ### One byte -/

/-- The words of a text of at most one byte. -/
theorem tokens_short (isDelim : UInt8 → Bool) {s : List UInt8} (hs : s.length ≤ 1) :
    tokens isDelim s = [] ∨ tokens isDelim s = [s] := by
  match s, hs with
  | [], _ => exact .inl rfl
  | [b], _ =>
    cases hb : isDelim b with
    | true =>
      left
      rw [tokens, List.splitOnP_cons_eq_if_modifyHead, if_pos hb, List.splitOnP_nil]
      rfl
    | false => exact .inr (tokens_of_no_delim (by simp) (by simpa using hb))

/-- One byte is no request. -/
theorem parseRequest_singleton (b : UInt8) : parseRequest [b] = none := by
  have hshort : (splitRequest [b]).1.length ≤ 1 := by
    have hbuffer : (cstr [b]).length ≤ 1 := (List.takeWhile_sublist _).length_le
    unfold splitRequest
    dsimp only
    cases hsplit : splitFirst (ascii "\r\n\r\n") (cstr [b]) with
    | none => exact hbuffer
    | some parts =>
      have hlength := congrArg List.length (splitFirst_eq_some hsplit)
      rw [List.length_append, List.length_append] at hlength
      change parts.1.length ≤ 1
      omega
  unfold parseRequest
  dsimp only
  rcases tokens_short isLineEnd hshort with hlines | hlines
  · rw [hlines]
  · rw [hlines]
    dsimp only
    rcases tokens_short (· == 32) hshort with hwords | hwords
    · rw [hwords]
    · rw [hwords]

/-! ### Two gateways -/

/-- The ledger behind a request that was not understood: counted in Prometheus, without a latency
sample. -/
def Ledger.malformed (l : Ledger) : Ledger :=
  { l with metricHttpRequestsTotal := l.metricHttpRequestsTotal + 1 }

/-- Getting as far as the limiter moves no counter. -/
theorem Ledger.reach_counters (h : Host) (reached : Bool) (l : Ledger) :
    (l.reach h reached).metricHttpRequestsTotal = l.metricHttpRequestsTotal ∧
      (l.reach h reached).latencyIndex = l.latencyIndex := by
  unfold Ledger.reach Ledger.arm
  split_ifs <;> exact ⟨rfl, rfl⟩

/-- No branch counts a request in Prometheus without a latency sample. -/
theorem Ends.ne_malformed {h : Host} {reached : Bool} {l l' : Ledger}
    (hends : Ends (l.reach h reached) l') : l' ≠ l.malformed := by
  obtain ⟨htotal, hindex⟩ := l.reach_counters h reached
  intro heq
  have hcount := congrArg Ledger.metricHttpRequestsTotal heq
  have hsample := congrArg Ledger.latencyIndex heq
  simp only [Ledger.malformed] at hcount hsample
  cases hends with
  | plain => omega
  | latency =>
    simp only [Ledger.sampleLatency] at hcount
    omega
  | request =>
    -- The ring has more than one place.
    simp only [Ledger.sampleRequest, Ledger.sampleLatency] at hsample
    omega

section Step

variable {h : Host} {g : Gateway} {x : Exchange} {rq : HttpRequest}

/-- A request that is not understood is counted in Prometheus. -/
theorem ledger_httpStep_malformed (hread : firstRead x ≠ []) (hparse : parseRequest (firstRead x) = none) :
    (httpStep h g x).1.ledger = g.ledger.malformed := by
  unfold httpStep handleClient serveBytes
  rw [if_neg hread, hparse]
  rfl

/-- A request that is understood is served. -/
theorem ledger_httpStep_parsed (hparse : parseRequest (firstRead x) = some rq) :
    Ends (g.ledger.reach h (reachesLimiter g.authRequired rq)) (httpStep h g x).1.ledger := by
  rw [httpStep_of_parse hparse]
  exact serve_ends h x rq ⟨countRequest g, [.spanStart .http]⟩

end Step

/-- **One read decides.** What a connection does depends on the first piece alone. -/
theorem outcome_cons (h : Host) (g : Gateway) (x : Exchange) (piece : List UInt8)
    (pieces : List (List UInt8)) : outcome h g x (piece :: pieces) = outcome h g x [piece] := rfl

/-- A decide request with its length. -/
def sampleMessage : HttpMessage where
  method := ascii "POST"
  target := ascii "/api/v1/routes/decide"
  version := ascii "HTTP/1.1"
  headers := [ascii "X-Tenant-ID: acme", ascii "Content-Length: 88"]
  body := sampleBody

/-- It is complete. -/
theorem sampleMessage_complete : sampleMessage.Complete :=
  ⟨by decide, by decide, by decide, by decide, by decide, by decide +kernel⟩

/-- The same request in two pieces, cut behind its blank line. -/
def samplePieces : List (List UInt8) :=
  [sampleMessage.bytes.take (sampleMessage.bytes.length - sampleBody.length), sampleBody]

end CGateway
