import CGateway.Environment
import CGateway.Lib.Strtol
import CGateway.Metrics.Prometheus

/-! # The IPC configuration

`ipc_config.c`: seven settings are read from the environment and then validated. The numbers go through
`strtol` and a conversion to `int` before their range is looked at.

What `getenv` answers is a parameter. A failed load leaves the configuration half filled, and nothing is
said about it.

* `IpcConfig`, `ipcConfigLoad`, `ipcConfigValidate` — the configuration and its two functions;
* `ipcConfigLoad_eq_ok_iff`, `ipcConfigValidate_eq_ok_iff` — when they succeed;
* `parseInt_eq_ok_iff` — which texts are read as an `int`, and as which;
* `ipc_config_numbers_iff` — when a number is stored as it was written. -/

namespace CGateway

open Bytes CString

/-- `ipc_config_t`. -/
structure IpcConfig where
  ipcEnable : ℤ
  socketPath : TextField 256
  maxConnections : ℤ
  natsEnable : ℤ
  natsUrl : TextField 256
  routerSubject : TextField 128
  timeoutMs : ℤ
  validated : ℤ

/-- `ipc_config_error_t`. -/
inductive IpcConfigError where
  | invalidBool
  | invalidInt
  | outOfRange
  | emptyRequired
  | pathTooLong
  deriving DecidableEq, Repr

/-! ### Loading -/

/-- `parse_bool`. -/
def parseBool (str : List UInt8) : Except IpcConfigError ℤ :=
  if str = ascii "1" ∨ equalsIgnoreCase str (ascii "true") ∨ equalsIgnoreCase str (ascii "yes") ∨
      equalsIgnoreCase str (ascii "on") then .ok 1
  else if str = ascii "0" ∨ equalsIgnoreCase str (ascii "false") ∨ equalsIgnoreCase str (ascii "no") ∨
      equalsIgnoreCase str (ascii "off") then .ok 0
  else .error .invalidBool

/-- `parse_int`: the whole text has to be a number, which is cut to an `int`. -/
def parseInt (str : List UInt8) : Except IpcConfigError ℤ :=
  match strtol str with
  | none => .error .invalidInt
  | some (val, endptr) => if endptr ≠ [] then .error .invalidInt else .ok (val.bmod (2 ^ 32))

/-- A setting that is parsed, or its default. -/
def numberSetting (parse : List UInt8 → Except IpcConfigError ℤ) (default : ℤ) :
    Option (List UInt8) → Except IpcConfigError ℤ
  | none => .ok default
  | some str => parse str

/-- A text of at most `last` bytes, or its default; the array behind it was cleared. -/
def textSetting (last : ℕ) (default : String) : Option (List UInt8) → Except IpcConfigError (TextField (last + 1))
  | none => .ok (.copy (last + 1) last.succ_pos (ascii default))
  | some str =>
      if last + 1 ≤ (cstr str).length then .error .pathTooLong else .ok (.copy (last + 1) last.succ_pos str)

/-- `ipc_config_load`. -/
def ipcConfigLoad (getenv : Getenv) : Except IpcConfigError IpcConfig := do
  let ipcEnable ← numberSetting parseBool 1 (getenv "CGW_IPC_ENABLE")
  let socketPath ← textSetting 255 "/tmp/beamline-gateway.sock" (getenv "CGW_IPC_SOCKET_PATH")
  let maxConnections ← numberSetting parseInt 64 (getenv "CGW_IPC_MAX_CONNECTIONS")
  let natsEnable ← numberSetting parseBool 0 (getenv "CGW_IPC_NATS_ENABLE")
  let natsUrl ← textSetting 255 "nats://localhost:4222" (getenv "CGW_IPC_NATS_URL")
  let routerSubject ← textSetting 127 "beamline.router.v1.decide" (getenv "CGW_IPC_ROUTER_SUBJECT")
  let timeoutMs ← numberSetting parseInt 30000 (getenv "CGW_IPC_TIMEOUT_MS")
  return ⟨ipcEnable, socketPath, maxConnections, natsEnable, natsUrl, routerSubject, timeoutMs, 0⟩

/-! ### Validation -/

/-- `MIN_MAX_CONNECTIONS`. -/
def minMaxConnections : ℤ := 1

/-- `MAX_MAX_CONNECTIONS`. -/
def maxMaxConnections : ℤ := 1024

/-- `MIN_TIMEOUT_MS`. -/
def minTimeoutMs : ℤ := 100

/-- `MAX_TIMEOUT_MS`. -/
def maxTimeoutMs : ℤ := 300000

/-- `ipc_config_validate`. -/
def ipcConfigValidate (config : IpcConfig) : Except IpcConfigError Unit :=
  if config.ipcEnable ≠ 0 ∧ config.ipcEnable ≠ 1 then .error .invalidBool
  else if config.natsEnable ≠ 0 ∧ config.natsEnable ≠ 1 then .error .invalidBool
  else if config.socketPath.bytes = [] then .error .emptyRequired
  else if config.maxConnections < minMaxConnections ∨ maxMaxConnections < config.maxConnections then
    .error .outOfRange
  else if config.natsEnable ≠ 0 ∧ config.natsUrl.bytes = [] then .error .emptyRequired
  else if config.routerSubject.bytes = [] then .error .emptyRequired
  else if config.timeoutMs < minTimeoutMs ∨ maxTimeoutMs < config.timeoutMs then .error .outOfRange
  else .ok ()

/-! ### When they succeed -/

/-- Every setting could be read. -/
structure Loaded (getenv : Getenv) (config : IpcConfig) : Prop where
  ipcEnable : numberSetting parseBool 1 (getenv "CGW_IPC_ENABLE") = .ok config.ipcEnable
  socketPath : textSetting 255 "/tmp/beamline-gateway.sock" (getenv "CGW_IPC_SOCKET_PATH") = .ok config.socketPath
  maxConnections : numberSetting parseInt 64 (getenv "CGW_IPC_MAX_CONNECTIONS") = .ok config.maxConnections
  natsEnable : numberSetting parseBool 0 (getenv "CGW_IPC_NATS_ENABLE") = .ok config.natsEnable
  natsUrl : textSetting 255 "nats://localhost:4222" (getenv "CGW_IPC_NATS_URL") = .ok config.natsUrl
  routerSubject :
    textSetting 127 "beamline.router.v1.decide" (getenv "CGW_IPC_ROUTER_SUBJECT") = .ok config.routerSubject
  timeoutMs : numberSetting parseInt 30000 (getenv "CGW_IPC_TIMEOUT_MS") = .ok config.timeoutMs
  validated : config.validated = 0

/-- A step that may fail, before another one. -/
theorem bind_eq_ok_iff {ε α β : Type} {first : Except ε α} {next : α → Except ε β} {b : β} :
    first >>= next = .ok b ↔ ∃ a, first = .ok a ∧ next a = .ok b := by
  cases first with
  | error e => simp [bind, Except.bind]
  | ok a => simp [bind, Except.bind]

/-- **A load succeeds** just when every setting can be read. -/
theorem ipcConfigLoad_eq_ok_iff {getenv : Getenv} {config : IpcConfig} :
    ipcConfigLoad getenv = .ok config ↔ Loaded getenv config := by
  unfold ipcConfigLoad
  simp only [bind_eq_ok_iff]
  constructor
  · rintro ⟨ipcEnable, h₁, socketPath, h₂, maxConnections, h₃, natsEnable, h₄, natsUrl, h₅, routerSubject, h₆,
      timeoutMs, h₇, hconfig⟩
    obtain rfl := Except.ok.inj hconfig
    exact ⟨h₁, h₂, h₃, h₄, h₅, h₆, h₇, rfl⟩
  · rintro ⟨h₁, h₂, h₃, h₄, h₅, h₆, h₇, hvalidated⟩
    refine ⟨_, h₁, _, h₂, _, h₃, _, h₄, _, h₅, _, h₆, _, h₇, ?_⟩
    rw [← hvalidated]
    rfl

/-- What a validated configuration promises. -/
structure IpcConfig.Valid (config : IpcConfig) : Prop where
  ipcEnable : config.ipcEnable = 0 ∨ config.ipcEnable = 1
  natsEnable : config.natsEnable = 0 ∨ config.natsEnable = 1
  socketPath : config.socketPath.bytes ≠ []
  maxConnections : minMaxConnections ≤ config.maxConnections ∧ config.maxConnections ≤ maxMaxConnections
  natsUrl : config.natsEnable ≠ 0 → config.natsUrl.bytes ≠ []
  routerSubject : config.routerSubject.bytes ≠ []
  timeoutMs : minTimeoutMs ≤ config.timeoutMs ∧ config.timeoutMs ≤ maxTimeoutMs

/-- **Validation** checks these promises. -/
theorem ipcConfigValidate_eq_ok_iff {config : IpcConfig} : ipcConfigValidate config = .ok () ↔ config.Valid := by
  unfold ipcConfigValidate
  constructor
  · intro h
    split_ifs at h with h₁ h₂ h₃ h₄ h₅ h₆ h₇
    refine ⟨by omega, by omega, h₃, by omega, fun hne => ?_, h₆, by omega⟩
    exact fun hnil => h₅ ⟨hne, hnil⟩
  · intro hvalid
    have h₁ := hvalid.ipcEnable
    have h₂ := hvalid.natsEnable
    have h₄ := hvalid.maxConnections
    have h₇ := hvalid.timeoutMs
    rw [if_neg (by omega), if_neg (by omega), if_neg hvalid.socketPath, if_neg (by omega),
      if_neg fun h => hvalid.natsUrl h.1 h.2, if_neg hvalid.routerSubject, if_neg (by omega)]

/-- What is loaded from an empty environment passes. -/
example : ((ipcConfigLoad fun _ => none).bind ipcConfigValidate) = .ok () := by decide

/-! ### Numbers -/

/-- **`parse_int`** reads the texts that denote an integer, and stores that integer, at the limits of a
64-bit `long`, modulo 2³². -/
theorem parseInt_eq_ok_iff {str : List UInt8} {value : ℤ} :
    parseInt str = .ok value ↔ ∃ n, Denotes str n ∧ value = (max (-2 ^ 63) (min (2 ^ 63 - 1) n)).bmod (2 ^ 32) := by
  unfold parseInt
  constructor
  · intro h
    split at h
    · cases h
    · next val endptr hread =>
        split at h
        · cases h
        · next hend =>
            rw [not_not.mp hend] at hread
            obtain ⟨n, hn, rfl⟩ := strtol_whole_iff.mp hread
            exact ⟨n, hn, (Except.ok.inj h).symm⟩
  · rintro ⟨n, hn, rfl⟩
    rw [strtol_whole_iff.mpr ⟨n, hn, rfl⟩]
    rfl

/-- An integer that an `int` holds. -/
def FitsInt (n : ℤ) : Prop := -2 ^ 31 ≤ n ∧ n < 2 ^ 31

/-- The integer is in the range, and is the stored value. -/
def StoredWithin (low high n stored : ℤ) : Prop := (low ≤ n ∧ n ≤ high) ∧ stored = n

/-- A setting whose stored value is in a range of `int`s: it is the integer of the text, just when an `int`
holds that integer. -/
theorem storedWithin_iff {str : List UInt8} {low high stored default : ℤ}
    (hload : numberSetting parseInt default (some str) = .ok stored) (hrange : low ≤ stored ∧ stored ≤ high)
    (hlow : -2 ^ 31 ≤ low) (hhigh : high < 2 ^ 31) :
    ∃ n, Denotes str n ∧ (StoredWithin low high n stored ↔ FitsInt n) := by
  obtain ⟨n, hn, hstored⟩ := parseInt_eq_ok_iff.mp hload
  refine ⟨n, hn, ?_, ?_⟩
  · -- The whole range is within `int`.
    rintro ⟨⟨hge, hle⟩, -⟩
    exact ⟨by omega, by omega⟩
  · rintro ⟨hge, hlt⟩
    -- Neither the limits of `long` nor those of `int` change it.
    have hsame : stored = n := by
      rw [hstored, min_eq_right (by omega), max_eq_right (by omega)]
      exact Int.bmod_eq_of_le (by omega) (by omega)
    rw [hsame] at hrange ⊢
    exact ⟨hrange, rfl⟩

/-- **When a number is stored as it was written.** If a configuration is loaded and found valid, each of its
two numbers, where it is set, denotes an integer; this integer is in the allowed range and is the stored
value just when an `int` holds it. -/
theorem ipc_config_numbers_iff {getenv : Getenv} {config : IpcConfig} (hload : ipcConfigLoad getenv = .ok config)
    (hvalid : ipcConfigValidate config = .ok ()) :
    (∀ str, getenv "CGW_IPC_MAX_CONNECTIONS" = some str →
        ∃ n, Denotes str n ∧ (StoredWithin 1 1024 n config.maxConnections ↔ FitsInt n)) ∧
      ∀ str, getenv "CGW_IPC_TIMEOUT_MS" = some str →
        ∃ n, Denotes str n ∧ (StoredWithin 100 300000 n config.timeoutMs ↔ FitsInt n) := by
  have hloaded := ipcConfigLoad_eq_ok_iff.mp hload
  have hranges := ipcConfigValidate_eq_ok_iff.mp hvalid
  constructor
  · intro str hstr
    have hread := hloaded.maxConnections
    rw [hstr] at hread
    exact storedWithin_iff hread hranges.maxConnections (by decide) (by decide)
  · intro str hstr
    have hread := hloaded.timeoutMs
    rw [hstr] at hread
    exact storedWithin_iff hread hranges.timeoutMs (by decide) (by decide)

/-- An environment in which only the number of connections is set. -/
def connectionsOnly (value : String) : Getenv := fun name =>
  if name = "CGW_IPC_MAX_CONNECTIONS" then some (ascii value) else none

/-- 128 connections, with a blank and a sign. -/
theorem ipc_config_numbers_plain : ∃ config,
    ipcConfigLoad (connectionsOnly " +128") = .ok config ∧ ipcConfigValidate config = .ok () ∧
      ∃ n, Denotes (ascii " +128") n ∧ (StoredWithin 1 1024 n config.maxConnections ↔ FitsInt n) := by
  refine ⟨_, rfl, by decide, ?_⟩
  exact (@ipc_config_numbers_iff (connectionsOnly " +128") _ rfl (by decide)).1 (ascii " +128") rfl

/-- **More connections than an `int` can count** are taken for one. -/
theorem connections_distorted : ∃ config,
    ipcConfigLoad (connectionsOnly "4294967297") = .ok config ∧ ipcConfigValidate config = .ok () ∧
      Denotes (ascii "4294967297") 4294967297 ∧ config.maxConnections = 1 ∧
      ∀ n, Denotes (ascii "4294967297") n → ¬ StoredWithin 1 1024 n config.maxConnections := by
  have hdenotes : Denotes (ascii "4294967297") 4294967297 := denotes_iff.mpr (by decide)
  refine ⟨_, rfl, by decide, hdenotes, by decide, fun n hn hstored => ?_⟩
  rw [hn.unique hdenotes] at hstored
  exact absurd hstored.1.2 (by decide)

end CGateway
