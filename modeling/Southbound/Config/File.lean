import Southbound.Config.Environment
import Southbound.Toml.Reader

/-!
# Settings in files

Settings are kept in a file, a TOML document with a table for each group of
settings.  A setting that is not in the file has its default, and what is in
the file but is no setting is passed over.  A table may be given as an array of
its values in order, and a date or a time where a table is wanted is a table
without settings.

`Config.load` takes the settings of a file, lets the environment override them
and refuses the result if it does not make sense.  `Config.save` writes them.
-/

namespace Southbound

/-! ## Settings of a document -/

/-- The value of a field of a table, or of an array of fields in order. -/
def settingOf (t : Toml) (names : List String) (name : String) : Option Toml :=
  match t with
  | .table entries => entries.lookup name
  | .array items => (names.zip items).lookup name
  | .scalar _ => none

/-- Whether a value can stand for a table of settings. -/
def hasSettings : Toml → Bool
  | .table _ => true
  | .array _ => true
  | .scalar (.time _) => true
  | .scalar _ => false

/-- A number that is no less than zero. -/
def wordSetting : Toml → Option UInt64
  | .scalar (.integer n) => if 0 ≤ n ∧ n < UInt64.size then some (UInt64.ofNat n.toNat) else none
  | _ => none

def switchSetting : Toml → Option Bool
  | .scalar (.bool b) => some b
  | _ => none

def textSetting : Toml → Option String
  | .scalar (.text s) => some s
  | _ => none

def settingOr {α : Type} (read : Toml → Option α) (absent : α) : Option Toml → Option α
  | none => some absent
  | some v => read v

def Deadlines.ofToml (t : Toml) : Option Deadlines := do
  guard (hasSettings t)
  let get := settingOf t ["request_timeout_ms", "barrier_timeout_ms", "sweep_interval_ms"]
  return {
    request := ← settingOr wordSetting 10000 (get "request_timeout_ms")
    barrier := ← settingOr wordSetting 30000 (get "barrier_timeout_ms")
    sweep := ← settingOr wordSetting 250 (get "sweep_interval_ms") }

/-- The settings of devices of a document. -/
def DeviceSettings.ofToml (t : Toml) : Option DeviceSettings := do
  guard (hasSettings t)
  let get := settingOf t
    ["group_exists_signal", "group_exists_text_fallback", "outbound_queue_capacity",
      "stale_marking"]
  return {
    signal := ← settingOr textSetting "GROUPEXISTS" (get "group_exists_signal")
    textFallback := ← settingOr switchSetting true (get "group_exists_text_fallback")
    capacity := ← settingOr wordSetting 1024 (get "outbound_queue_capacity")
    staleMarking := ← settingOr switchSetting true (get "stale_marking") }

/-- What tells flows apart, of a document. -/
def FlowKeyPolicy.ofToml (t : Toml) : Option FlowKeyPolicy := do
  guard (hasSettings t)
  let get := settingOf t ["include_flags"]
  return { includeFlags := ← settingOr switchSetting false (get "include_flags") }

def Config.ofToml (t : Toml) : Option Config := do
  guard (hasSettings t)
  let get := settingOf t ["transaction", "device", "flow_hash"]
  return {
    deadlines := ← settingOr Deadlines.ofToml {} (get "transaction")
    device := ← settingOr DeviceSettings.ofToml {} (get "device")
    keys := ← settingOr FlowKeyPolicy.ofToml {} (get "flow_hash") }

/-! ## The document of settings -/

/-- The tables of the document of settings. -/
def Config.sections (c : Config) : List (String × List (String × Toml.Scalar)) :=
  [("transaction",
      [("request_timeout_ms", .integer c.deadlines.request.toNat),
        ("barrier_timeout_ms", .integer c.deadlines.barrier.toNat),
        ("sweep_interval_ms", .integer c.deadlines.sweep.toNat)]),
    ("device",
      [("group_exists_signal", .text c.device.signal),
        ("group_exists_text_fallback", .bool c.device.textFallback),
        ("outbound_queue_capacity", .integer c.device.capacity.toNat),
        ("stale_marking", .bool c.device.staleMarking)]),
    ("flow_hash", [("include_flags", .bool c.keys.includeFlags)])]

/-- Whether every number among the settings fits in a document. -/
def Config.fitsToml (c : Config) : Bool :=
  c.deadlines.request.toNat < Nat.pow 2 63 ∧ c.deadlines.barrier.toNat < Nat.pow 2 63 ∧
    c.deadlines.sweep.toNat < Nat.pow 2 63 ∧ c.device.capacity.toNat < Nat.pow 2 63

/-- The text of the document of settings, if there is one. -/
def Config.toToml? (c : Config) : Option String :=
  if c.fitsToml then some (Toml.display c.sections) else none

/-! ## Files -/

/-- What is found where a file is to be written. -/
inductive FilePlace where
  /-- Nothing yet; the directories around it can be made. -/
  | vacant
  | file (octets : List UInt8)
  | directory
  /-- Nothing, and a file where there should be a directory. -/
  | belowFile
deriving DecidableEq, Repr

def Config.ofFile (octets : List UInt8) : Outcome Config :=
  match String.fromUTF8? ⟨octets.toArray⟩ with
  | none => .error (.configLoadFailed "the file is not a text")
  | some s =>
    match (Toml.read s).bind Config.ofToml with
    | none => .error (.configLoadFailed "the file does not hold settings")
    | some c => .ok c

/-- The settings that are kept at a place. -/
def Config.ofPlace : FilePlace → Outcome Config
  | .vacant => .ok {}
  | .belowFile => .ok {}
  | .directory => .error (.configLoadFailed "a directory cannot be read")
  | .file octets => Config.ofFile octets

/-- The settings that are kept at a place, as the environment overrides
them. -/
def Config.load (place : FilePlace) (env : Environment) : Outcome Config := do
  let c := (← Config.ofPlace place).override env
  c.validate
  return c

/-- The settings that are kept at a place, or the defaults if there is anything
wrong with them. -/
def Config.loadOrDefault (place : FilePlace) (env : Environment) : Config :=
  match Config.load place env with
  | .ok c => c
  | .error _ => {}

/-- Keep settings at a place, and say what stands there then. -/
def Config.save (c : Config) (place : FilePlace) : Outcome Unit × FilePlace :=
  match place with
  | .directory => (.error (.configSaveFailed "a directory is in the way"), place)
  | .belowFile => (.error (.configSaveFailed "a file is in the way"), place)
  | _ =>
    match c.toToml? with
    | none => (.error (.configSaveFailed "a number does not fit"), place)
    | some s => (.ok (), .file s.toByteArray.data.toList)

end Southbound
