import Southbound.Digest.SipHash
import Southbound.Flow.Json

/-!
# Keys of flows

Flows of a device are told apart by what a device tells them apart by: their
priority, cookie and match, and by their flags if the policy says so.  A flow
that is read back from a device has the key of the flow that was configured.

`FlowKey.octets` lays a key out as octets, the lowest octet of a number first.
A value that may be absent starts with a word that says whether it is there, so
the layout can be read back from its start.
-/

namespace Southbound

open Json

/-- Which flows of a device are taken for the same. -/
structure FlowKeyPolicy where
  /-- Whether flows that differ only in their flags are different. -/
  includeFlags : Bool := false
deriving DecidableEq, Repr, Inhabited

instance : Encode FlowKeyPolicy where
  encode p := .object <| member "include_flags" p.includeFlags

instance : Decode FlowKeyPolicy where
  decode p j := do
    let fields ← recordFields ["include_flags"] j
    return { includeFlags := ← fieldOr p fields "include_flags" false }

/-- What a flow is known by on a device. -/
structure FlowKey where
  priority : UInt16
  cookie : UInt64
  fields : Match
  flags : Option FlowFlags
deriving DecidableEq, Repr, Inhabited

def Flow.key (policy : FlowKeyPolicy) (f : Flow) : FlowKey where
  priority := f.priority
  cookie := f.cookie
  fields := f.fields
  flags := if policy.includeFlags then some f.flags else none

/-! ## Layout -/

/-- The given number of octets of a number, the lowest first. -/
def littleEndian : (width : Nat) → Nat → List UInt8
  | 0, _ => []
  | width + 1, n => UInt8.ofNat (n % 256) :: littleEndian width (n / 256)

def optionOctets {α : Type} (f : α → List UInt8) : Option α → List UInt8
  | none => littleEndian 8 0
  | some x => littleEndian 8 1 ++ f x

def octets8 (n : UInt8) : List UInt8 := [n]

def octets16 (n : UInt16) : List UInt8 := littleEndian 2 n.toNat

def octets32 (n : UInt32) : List UInt8 := littleEndian 4 n.toNat

def octets64 (n : UInt64) : List UInt8 := littleEndian 8 n.toNat

/-- A hardware address after the number of its octets. -/
def Mac.layout (m : Mac) : List UInt8 := littleEndian 8 6 ++ m.octets

def Masked.layout {α : Type} (f : α → List UInt8) (m : Masked α) : List UInt8 :=
  f m.value ++ optionOctets f m.mask

/-- An address and the number of bits that are shared. -/
def Ipv4Prefix.layout (r : Ipv4Prefix) : List UInt8 := r.addr.octets ++ [r.length]

/-- The fields of a match in their order. -/
def Match.layout (m : Match) : List UInt8 :=
  optionOctets octets32 m.inPort ++ optionOctets (Masked.layout octets64) m.metadata ++
  optionOctets (Masked.layout Mac.layout) m.ethSrc ++
  optionOctets (Masked.layout Mac.layout) m.ethDst ++
  optionOctets octets16 m.ethType ++ optionOctets octets16 m.vlanVid ++
  optionOctets octets8 m.vlanPcp ++ optionOctets octets8 m.ipProto ++
  optionOctets octets8 m.ipDscp ++ optionOctets Ipv4Prefix.layout m.ipv4Src ++
  optionOctets Ipv4Prefix.layout m.ipv4Dst ++ optionOctets octets16 m.tcpSrc ++
  optionOctets octets16 m.tcpDst ++ optionOctets octets16 m.udpSrc ++
  optionOctets octets16 m.udpDst ++ optionOctets octets64 m.tunnelId

/-- The flags in their order, an octet each. -/
def FlowFlags.layout (f : FlowFlags) : List UInt8 :=
  [f.sendFlowRem, f.checkOverlap, f.resetCounts, f.noPktCounts, f.noBytCounts].map
    fun b => if b then 1 else 0

def FlowKey.octets (k : FlowKey) : List UInt8 :=
  octets16 k.priority ++ octets64 k.cookie ++ k.fields.layout ++
    optionOctets FlowFlags.layout k.flags

/-! ## Digests -/

def FlowKey.digest (k : FlowKey) : UInt64 := SipHash.digest 0 0 k.octets

/-- The sixteen hexadecimal digits of a word. -/
def hexWord (n : UInt64) : String :=
  let ds := Nat.toDigits 16 n.toNat
  String.ofList (List.replicate (16 - ds.length) '0' ++ ds)

def FlowKey.display (k : FlowKey) : String := hexWord k.digest

end Southbound
