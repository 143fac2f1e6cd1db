import Mathlib.Algebra.BigOperators.Group.List.Basic
import CGateway.Lib.CString

/-! # Event streams

The text format of server-sent events, byte by byte. A stream consists of lines, which end in CR, LF or both. A
line is a field with a name and a value, and a blank line dispatches the event that the fields before it make
up: its name is the last value of `event`, its data are the values of `data`, with LF between them. Other
fields, and comments, which are lines without a name, make no part of an event.

* `Decoder`, `decode` — a client of a stream;
* `encode` — an event as one `event` line, one `data` line and a blank line;
* `decode_encode_append` — an event with data of one line is decoded as it was, whatever follows it;
* `decode_encode_iff` — data of several lines are not. -/

namespace EventStream

open Bytes CString

/-- An event. -/
structure Event where
  name : List UInt8
  data : List UInt8
  deriving DecidableEq, Repr

/-! ### Decoding -/

/-- What a client has read: the line it is in, the fields of the event it is in, the events before, and
whether the last byte was a CR. -/
structure Decoder where
  line : List UInt8 := []
  name : List UInt8 := []
  data : List UInt8 := []
  events : List Event := []
  afterCr : Bool := false
  deriving DecidableEq, Repr

/-- One blank in front of a value is not part of it. -/
def stripBlank : List UInt8 → List UInt8
  | [] => []
  | b :: rest => if b = 32 then rest else b :: rest

/-- The name and the value of a line. -/
def field (line : List UInt8) : List UInt8 × List UInt8 :=
  (line.takeWhile (· != 58), stripBlank ((line.dropWhile (· != 58)).drop 1))

/-- A blank line: an event without data is dropped. -/
def Decoder.dispatch (d : Decoder) : Decoder :=
  if d.data = [] then { d with name := [] }
  else
    { d with
      name := []
      data := []
      events := d.events ++ [⟨if d.name = [] then ascii "message" else d.name, d.data.dropLast⟩] }

/-- The end of a line. -/
def Decoder.endLine (d : Decoder) : Decoder :=
  if d.line = [] then d.dispatch
  else if (field d.line).1 = ascii "event" then { d with line := [], name := (field d.line).2 }
  else if (field d.line).1 = ascii "data" then
    { d with line := [], data := d.data ++ (field d.line).2 ++ [10] }
  else { d with line := [] }

/-- One byte. An LF that follows a CR is part of the same end. -/
def Decoder.read (d : Decoder) (b : UInt8) : Decoder :=
  if b = 13 then { d.endLine with afterCr := true }
  else if b = 10 then if d.afterCr then { d with afterCr := false } else d.endLine
  else { d with line := d.line ++ [b], afterCr := false }

/-- The events of a stream; one that is not complete is dropped. -/
def decode (bytes : List UInt8) : List Event := (bytes.foldl Decoder.read {}).events

/-- An event in three lines. -/
def encode (e : Event) : List UInt8 :=
  ascii "event: " ++ e.name ++ ascii "\n" ++ ascii "data: " ++ e.data ++ ascii "\n\n"

/-- An event is never empty. -/
theorem encode_ne_nil (e : Event) : encode e ≠ [] := List.append_ne_nil_of_right_ne_nil _ (by decide)

/-- The text has no end of a line. -/
def OneLine (s : List UInt8) : Prop := (10 : UInt8) ∉ s ∧ (13 : UInt8) ∉ s

/-! ### Reading lines -/

section Lines

variable {s name data : List UInt8} {events : List Event}

/-- A text without line ends extends the line. -/
theorem foldl_read_oneLine (hs : OneLine s) (line : List UInt8) :
    s.foldl Decoder.read ⟨line, name, data, events, false⟩ = ⟨line ++ s, name, data, events, false⟩ := by
  induction s generalizing line with
  | nil => rw [List.foldl_nil, List.append_nil]
  | cons b s ih =>
    obtain ⟨hlf, hcr⟩ := hs
    rw [List.mem_cons, not_or] at hlf hcr
    have hread : Decoder.read ⟨line, name, data, events, false⟩ b = ⟨line ++ [b], name, data, events, false⟩ := by
      rw [Decoder.read, if_neg (Ne.symm hcr.1), if_neg (Ne.symm hlf.1)]
    rw [List.foldl_cons, hread, ih ⟨hlf.2, hcr.2⟩, List.append_assoc, List.singleton_append]

/-- An LF ends a line. -/
theorem read_lf (line : List UInt8) :
    Decoder.read ⟨line, name, data, events, false⟩ 10 = Decoder.endLine ⟨line, name, data, events, false⟩ := by
  rw [Decoder.read, if_neg (by decide), if_pos rfl, if_neg Bool.false_ne_true]

/-- A field whose name has no colon. -/
theorem field_append {label : List UInt8} (hlabel : (58 : UInt8) ∉ label) (value : List UInt8) :
    field (label ++ 58 :: 32 :: value) = (label, value) := by
  rw [field, takeWhile_append_sep hlabel, drop_dropWhile_append_sep hlabel]
  rfl

/-- The line of a name. -/
theorem endLine_event (value : List UInt8) (afterCr : Bool) :
    Decoder.endLine ⟨ascii "event: " ++ value, name, data, events, afterCr⟩ = ⟨[], value, data, events, afterCr⟩ := by
  have hfield : field (ascii "event: " ++ value) = (ascii "event", value) :=
    field_append (show 58 ∉ ascii "event" by decide) value
  rw [Decoder.endLine, if_neg (List.append_ne_nil_of_left_ne_nil (by decide) _)]
  dsimp only
  rw [hfield, if_pos rfl]

/-- The line of data. -/
theorem endLine_data (value : List UInt8) (afterCr : Bool) :
    Decoder.endLine ⟨ascii "data: " ++ value, name, data, events, afterCr⟩ =
      ⟨[], name, data ++ value ++ [10], events, afterCr⟩ := by
  have hfield : field (ascii "data: " ++ value) = (ascii "data", value) :=
    field_append (show 58 ∉ ascii "data" by decide) value
  rw [Decoder.endLine, if_neg (List.append_ne_nil_of_left_ne_nil (by decide) _)]
  dsimp only
  have hother : ascii "data" ≠ ascii "event" := by decide
  rw [hfield, if_neg hother, if_pos rfl]

/-- The first line of an encoded event. -/
theorem foldl_read_event (hname : OneLine name) :
    (ascii "event: " ++ name ++ ascii "\n").foldl Decoder.read {} = ⟨[], name, [], [], false⟩ := by
  have hlf : ascii "\n" = [10] := by decide
  have hline : OneLine (ascii "event: " ++ name) := by
    rw [OneLine, List.mem_append, List.mem_append, not_or, not_or]
    exact ⟨⟨by decide, hname.1⟩, by decide, hname.2⟩
  rw [List.foldl_append, foldl_read_oneLine hline, List.nil_append, hlf, List.foldl_cons, List.foldl_nil,
    read_lf, endLine_event]

/-- The data up to the first end of a line. -/
theorem foldl_read_data (hs : OneLine s) :
    (ascii "data: " ++ s).foldl Decoder.read ⟨[], name, [], [], false⟩ =
      ⟨ascii "data: " ++ s, name, [], [], false⟩ := by
  refine foldl_read_oneLine ?_ []
  rw [OneLine, List.mem_append, List.mem_append, not_or, not_or]
  exact ⟨⟨by decide, hs.1⟩, by decide, hs.2⟩

end Lines

/-! ### Events of one line -/

/-- The events before do not matter. -/
theorem foldl_read_events (before : List Event) (s : List UInt8) (d : Decoder) :
    s.foldl Decoder.read { d with events := before ++ d.events } =
      { s.foldl Decoder.read d with events := before ++ (s.foldl Decoder.read d).events } := by
  have hdispatch : ∀ d : Decoder, Decoder.dispatch { d with events := before ++ d.events } =
      { d.dispatch with events := before ++ d.dispatch.events } := by
    intro d
    unfold Decoder.dispatch
    dsimp only
    split
    · rfl
    · rw [List.append_assoc]
  have hend : ∀ d : Decoder, Decoder.endLine { d with events := before ++ d.events } =
      { d.endLine with events := before ++ d.endLine.events } := by
    intro d
    unfold Decoder.endLine
    dsimp only
    rw [hdispatch]
    split_ifs <;> rfl
  have hread : ∀ (d : Decoder) (b : UInt8), Decoder.read { d with events := before ++ d.events } b =
      { d.read b with events := before ++ (d.read b).events } := by
    intro d b
    unfold Decoder.read
    dsimp only
    rw [hend]
    split_ifs <;> rfl
  induction s generalizing d with
  | nil => rfl
  | cons b s ih => rw [List.foldl_cons, List.foldl_cons, hread, ih]

section Encode

variable {e : Event} (hne : e.name ≠ []) (hname : OneLine e.name)
include hne hname

/-- The client is between two events again. -/
theorem foldl_read_encode (hdata : OneLine e.data) : (encode e).foldl Decoder.read {} = { events := [e] } := by
  have hlf : ascii "\n\n" = [10, 10] := by decide
  rw [encode, hlf, List.append_assoc, List.append_assoc, List.foldl_append, foldl_read_event hname,
    ← List.append_assoc, List.foldl_append, foldl_read_data hdata, List.foldl_cons, List.foldl_cons,
    List.foldl_nil, read_lf, endLine_data, read_lf, Decoder.endLine, if_pos rfl, Decoder.dispatch]
  dsimp only
  rw [if_neg (by simp), if_neg hne]
  simp

/-- **An event with data of one line** is decoded as it was, and what follows it is decoded on its own. -/
theorem decode_encode_append (hdata : OneLine e.data) (rest : List UInt8) :
    decode (encode e ++ rest) = e :: decode rest := by
  rw [decode, List.foldl_append, foldl_read_encode hne hname hdata]
  exact congrArg Decoder.events (foldl_read_events [e] rest {})

end Encode

/-! ### Events of several lines -/

/-- The bytes that a client keeps, with one more for each event. -/
def Decoder.weight (d : Decoder) : ℕ :=
  d.line.length + d.data.length + (d.events.map fun e => e.data.length + 1).sum

/-- The value of a field is shorter than the line. -/
theorem length_field_lt {line : List UInt8} (hlabel : (field line).1 ≠ []) :
    (field line).2.length + 1 ≤ line.length := by
  have hsplit := congrArg List.length
    (List.takeWhile_append_dropWhile (p := (· != (58 : UInt8))) (l := line))
  rw [List.length_append] at hsplit
  have hpos : 0 < (line.takeWhile (· != 58)).length := List.length_pos_iff.mpr hlabel
  have hstrip : ∀ v : List UInt8, (stripBlank v).length ≤ v.length := by
    intro v
    cases v with
    | nil => exact le_rfl
    | cons b rest =>
      rw [stripBlank]
      split
      · exact Nat.le_succ _
      · exact le_rfl
  have hvalue := hstrip ((line.dropWhile (· != 58)).drop 1)
  rw [List.length_drop] at hvalue
  show (stripBlank _).length + 1 ≤ _
  omega

/-- The end of a line adds nothing. -/
theorem weight_endLine_le (d : Decoder) : d.endLine.weight ≤ d.weight := by
  unfold Decoder.endLine
  split
  · next hline =>
      unfold Decoder.dispatch
      split
      · exact le_rfl
      · next hdata =>
          have hpos : 0 < d.data.length := List.length_pos_iff.mpr hdata
          simp only [Decoder.weight, hline, List.length_nil, List.map_append, List.map_cons, List.map_nil,
            List.sum_append, List.sum_cons, List.sum_nil, List.length_dropLast]
          omega
  · split
    · simp only [Decoder.weight, List.length_nil]
      omega
    · split
      · next hlabel =>
          have hlength : (field d.line).2.length + 1 ≤ d.line.length := length_field_lt (by rw [hlabel]; decide)
          simp only [Decoder.weight, List.length_nil, List.length_append, List.length_singleton]
          omega
      · simp only [Decoder.weight, List.length_nil]
        omega

/-- What is read adds its bytes at most, and the ends of lines nothing. -/
theorem weight_foldl_le (s : List UInt8) (d : Decoder) :
    (s.foldl Decoder.read d).weight ≤ d.weight + s.countP fun b => b != 10 && b != 13 := by
  induction s generalizing d with
  | nil => exact le_rfl
  | cons b s ih =>
    have hend : d.endLine.weight ≤ d.weight := weight_endLine_le d
    have hread : (d.read b).weight ≤ d.weight + if (b != 10 && b != 13) then 1 else 0 := by
      unfold Decoder.read
      split
      · exact hend.trans (Nat.le_add_right ..)
      · split
        · split
          · exact Nat.le_add_right ..
          · exact hend.trans (Nat.le_add_right ..)
        · next hcr hlf =>
            rw [if_pos (by simp [hcr, hlf])]
            simp only [Decoder.weight, List.length_append, List.length_singleton]
            omega
    rw [List.foldl_cons, List.countP_cons]
    have hrest := ih (d.read b)
    omega

/-- A text of several lines, split at its first end of a line. -/
theorem exists_split_of_not_oneLine {s : List UInt8} (hs : ¬ OneLine s) :
    ∃ first b rest, s = first ++ b :: rest ∧ OneLine first ∧ (b = 10 ∨ b = 13) := by
  induction s with
  | nil => exact absurd ⟨List.not_mem_nil, List.not_mem_nil⟩ hs
  | cons b s ih =>
    by_cases hb : b = 10 ∨ b = 13
    · exact ⟨[], b, s, rfl, ⟨List.not_mem_nil, List.not_mem_nil⟩, hb⟩
    · rw [not_or] at hb
      have hrest : ¬ OneLine s := by
        rintro ⟨hlf, hcr⟩
        exact hs ⟨List.not_mem_cons_of_ne_of_not_mem (Ne.symm hb.1) hlf,
          List.not_mem_cons_of_ne_of_not_mem (Ne.symm hb.2) hcr⟩
      obtain ⟨first, b', rest, rfl, hfirst, hb'⟩ := ih hrest
      exact ⟨b :: first, b', rest, rfl, ⟨List.not_mem_cons_of_ne_of_not_mem (Ne.symm hb.1) hfirst.1,
        List.not_mem_cons_of_ne_of_not_mem (Ne.symm hb.2) hfirst.2⟩, hb'⟩

/-- **An event is decoded as it was** if and only if its data are one line. -/
theorem decode_encode_iff {e : Event} (hne : e.name ≠ []) (hname : OneLine e.name) :
    decode (encode e) = [e] ↔ OneLine e.data := by
  constructor
  · intro hdecode
    by_contra hdata
    obtain ⟨first, b, rest, hsplit, hfirst, hb⟩ := exists_split_of_not_oneLine hdata
    -- behind the first line end the client holds the first line, and it can get no more than the rest
    have hhead : (ascii "event: " ++ e.name ++ ascii "\n" ++ (ascii "data: " ++ first) ++ [b]).foldl
        Decoder.read {} = ⟨[], e.name, first ++ [10], [], b == 13⟩ := by
      rw [List.foldl_append, List.foldl_append, foldl_read_event hname, foldl_read_data hfirst,
        List.foldl_cons, List.foldl_nil]
      rcases hb with rfl | rfl
      · rw [read_lf, endLine_data]
        rfl
      · rw [Decoder.read, if_pos rfl, endLine_data]
        rfl
    have hbytes : encode e = ascii "event: " ++ e.name ++ ascii "\n" ++ (ascii "data: " ++ first) ++ [b] ++
        (rest ++ ascii "\n\n") := by
      rw [encode, hsplit]
      simp only [List.append_assoc, List.cons_append, List.nil_append]
    have hweight := weight_foldl_le (rest ++ ascii "\n\n") ⟨[], e.name, first ++ [10], [], b == 13⟩
    rw [← hhead, ← List.foldl_append, ← hbytes, hhead] at hweight
    have hcount : (rest ++ ascii "\n\n").countP (fun b => b != 10 && b != 13) ≤ rest.length := by
      have hends : (ascii "\n\n").countP (fun b => b != 10 && b != 13) = 0 := by decide
      rw [List.countP_append, hends, Nat.add_zero]
      exact List.countP_le_length
    have hevents : ((encode e).foldl Decoder.read {}).events = [e] := hdecode
    have hlength : e.data.length = first.length + (rest.length + 1) := by
      rw [hsplit, List.length_append, List.length_cons]
    simp only [Decoder.weight, hevents, List.map_cons, List.map_nil, List.sum_cons, List.sum_nil,
      List.length_nil, List.length_append, List.length_singleton] at hweight
    omega
  · intro hdata
    have hwhole := decode_encode_append hne hname hdata []
    rwa [List.append_nil] at hwhole

end EventStream
