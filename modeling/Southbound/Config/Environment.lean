import Southbound.Config.Basic

/-!
# Settings from the environment

Seven variables of the environment each override one setting.  A variable that
is not set, whose value is no text, or whose text is not of the right form
leaves its setting as it is, whatever the other variables are.
-/

namespace Southbound

/-- The variables that take precedence over the settings of a file. -/
inductive Variable where
  | requestTimeout
  | barrierTimeout
  | sweepInterval
  | existsSignal
  | existsTextFallback
  | staleMarking
  | includeFlags
deriving DecidableEq, Repr

def Variable.name : Variable → String
  | .requestTimeout => "OFSB_REQUEST_TIMEOUT_MS"
  | .barrierTimeout => "OFSB_BARRIER_TIMEOUT_MS"
  | .sweepInterval => "OFSB_SWEEP_INTERVAL_MS"
  | .existsSignal => "OFSB_GROUP_EXISTS_SIGNAL"
  | .existsTextFallback => "OFSB_GROUP_EXISTS_TEXT_FALLBACK"
  | .staleMarking => "OFSB_STALE_MARKING"
  | .includeFlags => "OFSB_FLOW_HASH_INCLUDE_FLAGS"

/-- The octets of each variable that is set. -/
abbrev Environment := Variable → Option (List UInt8)

/-- The text of a variable, if it is set to one. -/
def Environment.text? (env : Environment) (v : Variable) : Option String :=
  (env v).bind fun octets => String.fromUTF8? ⟨octets.toArray⟩

/-- A decimal number below `2 ^ 64`, which may have a plus sign. -/
def wordOfText (s : String) : Option UInt64 :=
  let ds :=
    match s.toList with
    | '+' :: ds => ds
    | ds => ds
  if ds ≠ [] ∧ ds.all Char.isDigit then
    let n := Nat.ofDigitChars 10 ds 0
    if n < UInt64.size then some (UInt64.ofNat n) else none
  else none

/-- A yes or no, in letters of either case. -/
def switchOfText (s : String) : Option Bool :=
  let word := String.ofList (s.toList.map Char.toLower)
  if word ∈ ["1", "true", "yes", "on"] then some true
  else if word ∈ ["0", "false", "no", "off"] then some false
  else none

/-- The number a variable is set to. -/
def Environment.word? (env : Environment) (v : Variable) : Option UInt64 :=
  (env.text? v).bind wordOfText

/-- The yes or no a variable is set to. -/
def Environment.switch? (env : Environment) (v : Variable) : Option Bool :=
  (env.text? v).bind switchOfText

/-- The settings with those that the environment overrides. -/
def Config.override (c : Config) (env : Environment) : Config where
  deadlines := {
    request := (env.word? .requestTimeout).getD c.deadlines.request
    barrier := (env.word? .barrierTimeout).getD c.deadlines.barrier
    sweep := (env.word? .sweepInterval).getD c.deadlines.sweep }
  device := {
    signal := (env.text? .existsSignal).getD c.device.signal
    textFallback := (env.switch? .existsTextFallback).getD c.device.textFallback
    capacity := c.device.capacity
    staleMarking := (env.switch? .staleMarking).getD c.device.staleMarking }
  keys := { includeFlags := (env.switch? .includeFlags).getD c.keys.includeFlags }

end Southbound
