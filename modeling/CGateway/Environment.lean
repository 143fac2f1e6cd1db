import CGateway.Lib.CString

/-! # Settings from the process environment

Every component of the gateway reads its settings with `getenv`. The environment is a parameter of the
model; the readers below are the ones the sources share or repeat. -/

namespace CGateway

open Bytes CString

/-- What `getenv` answers. -/
abbrev Getenv := String → Option (List UInt8)

/-- A conversion to `unsigned int`. -/
def unsignedInt (n : ℤ) : ℕ := (n % 2 ^ 32).toNat

/-- A flag that is set by `true` or `1` and by nothing else. -/
def envFlag (getenv : Getenv) (name : String) : Bool :=
  match getenv name with
  | none => false
  | some val => val == ascii "true" || val == ascii "1"

/-- A positive number read with `atoi`; anything else leaves the default. -/
def envPositive (getenv : Getenv) (name : String) (default : ℤ) : ℤ :=
  match getenv name with
  | none => default
  | some val => if 0 < atoi val then atoi val else default

/-- With a default in that range, a positive setting is positive and fits an `int`. -/
theorem envPositive_range (getenv : Getenv) (name : String) {default : ℤ} (hpos : 0 < default)
    (hint : default < 2 ^ 31) : 0 < envPositive getenv name default ∧ envPositive getenv name default < 2 ^ 31 := by
  rw [envPositive]
  cases getenv name with
  | none => exact ⟨hpos, hint⟩
  | some val =>
    dsimp only
    split
    · rename_i hval
      exact ⟨hval, atoi_lt val⟩
    · exact ⟨hpos, hint⟩

/-- A number read with `atoi`, whatever it is. -/
def envAtoi (getenv : Getenv) (name : String) (default : ℤ) : ℤ :=
  match getenv name with
  | none => default
  | some val => atoi val

/-- `env_to_int` of the HTTP server: an empty value counts as unset. -/
def envToInt (getenv : Getenv) (name : String) (defVal : ℤ) : ℤ :=
  match getenv name with
  | none => defVal
  | some val => if val = [] then defVal else if atoi val ≤ 0 then defVal else atoi val

/-- `env_to_bool` of the HTTP server. -/
def envToBool (getenv : Getenv) (name : String) (defVal : Bool) : Bool :=
  match getenv name with
  | none => defVal
  | some val =>
      if val = [] then defVal
      else if val == ascii "1" || equalsIgnoreCase val (ascii "true") ||
          equalsIgnoreCase val (ascii "yes") then true
      else if val == ascii "0" || equalsIgnoreCase val (ascii "false") ||
          equalsIgnoreCase val (ascii "no") then false
      else defVal

end CGateway
