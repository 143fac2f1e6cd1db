import CGateway.Lib.Utf8
import CGateway.Lib.Bytes

/-! # JSON values and objects

JSON values as a C library keeps them: strings are bytes, an object is an ordered list of members with
distinct keys, a real is the pattern of a double.

* `get?` — look a member up; nothing in a value that is no object;
* `setMember` — replace a member in its place, or append it;
* `compact` — the text of a value. -/

/-- A JSON value. -/
inductive Json where
  | null
  | bool (b : Bool)
  | integer (n : ℤ)
  | real (bits : UInt64)
  | string (s : List UInt8)
  | array (items : List Json)
  | object (members : List (List UInt8 × Json))

namespace Json

open Bytes

/-- The members of an object. -/
abbrev Members := List (List UInt8 × Json)

/-- The value of a member, in a list of members. -/
def lookup (members : Members) (key : List UInt8) : Option Json :=
  (members.find? (·.1 == key)).map (·.2)

/-- `json_object_get`: nothing is found in a value that is no object. -/
def get? (v : Json) (key : List UInt8) : Option Json :=
  match v with
  | .object members => lookup members key
  | _ => none

/-- `json_object_set`: replace the member in its place, or append it. -/
def setMember (key : List UInt8) (value : Json) : Members → Members
  | [] => [(key, value)]
  | m :: ms => if m.1 == key then (key, value) :: ms else m :: setMember key value ms

/-- The value, if it is an object. -/
def asObject : Option Json → Option Members
  | some (.object members) => some members
  | _ => none

/-- The string value, if it is one. -/
def asString : Option Json → Option (List UInt8)
  | some (.string s) => some s
  | _ => none

/-- `json_string`: nothing for bytes that are not UTF-8. -/
def ofBytes? (s : List UInt8) : Option Json := if Utf8.valid s then some (.string s) else none

/-- The members that are present, in order. -/
def collect (members : List (List UInt8 × Option Json)) : Members :=
  members.filterMap fun m => m.2.map fun v => (m.1, v)

/-! ### Writing -/

/-- A byte within a JSON string: quotes, backslashes and control characters are escaped. -/
def escapeByte (b : UInt8) : List UInt8 :=
  if b = 34 then ascii "\\\""
  else if b = 92 then ascii "\\\\"
  else if b = 8 then ascii "\\b"
  else if b = 9 then ascii "\\t"
  else if b = 10 then ascii "\\n"
  else if b = 12 then ascii "\\f"
  else if b = 13 then ascii "\\r"
  else if b < 32 then ascii "\\u00" ++ [48 + b / 16, if b % 16 < 10 then 48 + b % 16 else 55 + b % 16]
  else [b]

/-- A string in quotes. -/
def quoted (s : List UInt8) : List UInt8 := ascii "\"" ++ s.flatMap escapeByte ++ ascii "\""

section Compact

variable (printReal : UInt64 → List UInt8)

mutual

/-- The text of a value without blanks, given how a double is printed. -/
def compact : Json → List UInt8
  | .null => ascii "null"
  | .bool b => ascii (if b then "true" else "false")
  | .integer n => decimal n
  | .real bits => printReal bits
  | .string s => quoted s
  | .array items => ascii "[" ++ compactItems items ++ ascii "]"
  | .object members => ascii "\x7b" ++ compactMembers members ++ ascii "\x7d"

/-- The items of an array, separated by commas. -/
def compactItems : List Json → List UInt8
  | [] => []
  | v :: rest => compact v ++ (if rest.isEmpty then [] else ascii ",") ++ compactItems rest

/-- The members of an object, separated by commas. -/
def compactMembers : List (List UInt8 × Json) → List UInt8
  | [] => []
  | (key, v) :: rest =>
      quoted key ++ ascii ":" ++ compact v ++ (if rest.isEmpty then [] else ascii ",") ++
        compactMembers rest

end

end Compact

/-! ### Members -/

theorem lookup_cons (m : List UInt8 × Json) (ms : Members) (key : List UInt8) :
    lookup (m :: ms) key = if m.1 = key then some m.2 else lookup ms key := by
  unfold lookup
  by_cases h : m.1 = key
  · rw [List.find?_cons_of_pos (by simpa using h), if_pos h, Option.map_some]
  · rw [List.find?_cons_of_neg (by simpa using h), if_neg h]

/-- A member that was set is found. -/
theorem lookup_setMember_self (key : List UInt8) (value : Json) (ms : Members) :
    lookup (setMember key value ms) key = some value := by
  induction ms with
  | nil => rw [setMember, lookup_cons, if_pos rfl]
  | cons m ms ih =>
    rw [setMember]
    by_cases h : m.1 = key
    · rw [if_pos (by simpa using h), lookup_cons, if_pos rfl]
    · rw [if_neg (by simpa using h), lookup_cons, if_neg h, ih]

/-- Setting a member leaves the others alone. -/
theorem lookup_setMember_of_ne {key other : List UInt8} (hne : other ≠ key) (value : Json)
    (ms : Members) : lookup (setMember key value ms) other = lookup ms other := by
  induction ms with
  | nil => rw [setMember, lookup_cons, if_neg hne.symm]
  | cons m ms ih =>
    rw [setMember]
    by_cases h : m.1 = key
    · rw [if_pos (by simpa using h), lookup_cons, lookup_cons, if_neg hne.symm, if_neg (h ▸ hne.symm)]
    · rw [if_neg (by simpa using h), lookup_cons, lookup_cons, ih]

/-- Setting a member twice is setting it once. -/
theorem setMember_setMember (key : List UInt8) (v v' : Json) (ms : Members) :
    setMember key v (setMember key v' ms) = setMember key v ms := by
  induction ms with
  | nil => simp [setMember]
  | cons m ms ih =>
    rw [setMember]
    by_cases hkey : m.1 = key
    · simp [setMember, hkey]
    · simp [setMember, hkey, ih]

@[simp] theorem collect_cons_some (key : List UInt8) (v : Json) (fields : List (List UInt8 × Option Json)) :
    collect ((key, some v) :: fields) = (key, v) :: collect fields := rfl

@[simp] theorem collect_cons_none (key : List UInt8) (fields : List (List UInt8 × Option Json)) :
    collect ((key, none) :: fields) = collect fields := rfl

/-- A key that is not among the fields is not found. -/
theorem lookup_collect_of_notMem {fields : List (List UInt8 × Option Json)} {key : List UInt8}
    (hkey : key ∉ fields.map (·.1)) : lookup (collect fields) key = none := by
  induction fields with
  | nil => rfl
  | cons field fields ih =>
    rw [List.map_cons, List.mem_cons, not_or] at hkey
    obtain ⟨k, value?⟩ := field
    cases value? with
    | none => exact ih hkey.2
    | some v => rw [collect_cons_some, lookup_cons, if_neg (Ne.symm hkey.1), ih hkey.2]

/-- A field is found as it was put in, present or not. -/
theorem lookup_collect {fields : List (List UInt8 × Option Json)} (hkeys : (fields.map (·.1)).Nodup)
    {key : List UInt8} {value? : Option Json} (hmem : (key, value?) ∈ fields) :
    lookup (collect fields) key = value? := by
  induction fields with
  | nil => cases hmem
  | cons field fields ih =>
    rw [List.map_cons, List.nodup_cons] at hkeys
    rcases List.mem_cons.mp hmem with rfl | htail
    · cases value? with
      | none => rw [collect_cons_none, lookup_collect_of_notMem hkeys.1]
      | some v => rw [collect_cons_some, lookup_cons, if_pos rfl]
    · obtain ⟨k, other⟩ := field
      have hne : k ≠ key := by
        rintro rfl
        exact hkeys.1 (List.mem_map.mpr ⟨_, htail, rfl⟩)
      cases other with
      | none => rw [collect_cons_none, ih hkeys.2 htail]
      | some v => rw [collect_cons_some, lookup_cons, if_neg hne, ih hkeys.2 htail]

end Json
