import Southbound.Flow.Basic
import Southbound.Json.Codec

/-!
# Flows in documents

Flows as they are configured and as they are sent: a record of the flow with
records of its match and flags, instructions and actions tagged inside by
`type`, and the fields that are set tagged beside by `field` and `value`.

A field of a match that is absent is not written, and likewise an absent mask,
an absent id and absent restrictions of a removal.
-/

namespace Southbound

open Json

/-! ## Identities -/

instance : Encode DeviceId := ⟨fun d => encode d.text⟩
instance : Encode Xid := ⟨fun x => encode x.val⟩
instance : Encode GroupId := ⟨fun g => encode g.val⟩
instance : Encode TableId := ⟨fun t => encode t.val⟩
instance : Encode FlowId := ⟨fun f => encode f.text⟩

instance : Decode DeviceId := ⟨fun p j => (decode p j).map DeviceId.mk⟩
instance : Decode Xid := ⟨fun p j => (decode p j).map Xid.mk⟩
instance : Decode GroupId := ⟨fun p j => (decode p j).map GroupId.mk⟩
instance : Decode TableId := ⟨fun p j => (decode p j).map TableId.mk⟩
instance : Decode FlowId := ⟨fun p j => (decode p j).map FlowId.mk⟩

instance : Encode FlowPath where
  encode path := .object <|
    member "device_id" path.device ++ member "table_id" path.table ++
      member "flow_id" path.flow

instance : Decode FlowPath where
  decode p j := do
    let fields ← recordFields ["device_id", "table_id", "flow_id"] j
    return {
      device := ← requiredField p fields "device_id"
      table := ← requiredField p fields "table_id"
      flow := ← requiredField p fields "flow_id" }

instance : Encode FlowDescriptor where
  encode d := .object <| member "table_id" d.table ++ member "flow_id" d.flow

instance : Decode FlowDescriptor where
  decode p j := do
    let fields ← recordFields ["table_id", "flow_id"] j
    return {
      table := ← requiredField p fields "table_id"
      flow := ← requiredField p fields "flow_id" }

/-! ## Field values -/

instance : Encode Mac := ⟨fun m => encode m.octets⟩

instance : Decode Mac := ⟨fun p j => (decode p j).bind Mac.ofOctets?⟩

/-- An internet address is written as four decimal numbers with points between
them. -/
def Ipv4.display (a : Ipv4) : String :=
  ".".intercalate (a.octets.map fun o => toString o.toNat)

/-- The octet that decimal digits write, without leading zeros. -/
def Ipv4.octet? (ds : List Char) : Option UInt8 :=
  if ds ≠ [] ∧ ds.length ≤ 3 ∧ ds.all Char.isDigit ∧ (ds.length = 1 ∨ ds.head? ≠ some '0') then
    let n := Nat.ofDigitChars 10 ds 0
    if n < 256 then some n.toUInt8 else none
  else none

/-- The internet address that a text writes. -/
def Ipv4.ofText? (s : String) : Option Ipv4 :=
  match s.toList.splitOn '.' with
  | [a, b, c, d] => do
    return ⟨← Ipv4.octet? a, ← Ipv4.octet? b, ← Ipv4.octet? c, ← Ipv4.octet? d⟩
  | _ => none

instance : Encode Ipv4 := ⟨fun a => encode a.display⟩

instance : Decode Ipv4 := ⟨fun p j => (decode p j).bind Ipv4.ofText?⟩

instance {α : Type} [Encode α] : Encode (Masked α) where
  encode m := .object <| member "value" m.value ++ optionalMember "mask" m.mask

instance {α : Type} [Decode α] : Decode (Masked α) where
  decode p j := do
    let fields ← recordFields ["value", "mask"] j
    return {
      value := ← requiredField p fields "value"
      mask := ← fieldOr p fields "mask" none }

instance : Encode Ipv4Prefix where
  encode r := .object <| member "addr" r.addr ++ member "prefix_len" r.length

instance : Decode Ipv4Prefix where
  decode p j := do
    let fields ← recordFields ["addr", "prefix_len"] j
    return {
      addr := ← requiredField p fields "addr"
      length := ← requiredField p fields "prefix_len" }

/-! ## Matches -/

instance : Encode Match where
  encode m := .object <|
    optionalMember "in_port" m.inPort ++ optionalMember "metadata" m.metadata ++
    optionalMember "eth_src" m.ethSrc ++ optionalMember "eth_dst" m.ethDst ++
    optionalMember "eth_type" m.ethType ++ optionalMember "vlan_vid" m.vlanVid ++
    optionalMember "vlan_pcp" m.vlanPcp ++ optionalMember "ip_proto" m.ipProto ++
    optionalMember "ip_dscp" m.ipDscp ++ optionalMember "ipv4_src" m.ipv4Src ++
    optionalMember "ipv4_dst" m.ipv4Dst ++ optionalMember "tcp_src" m.tcpSrc ++
    optionalMember "tcp_dst" m.tcpDst ++ optionalMember "udp_src" m.udpSrc ++
    optionalMember "udp_dst" m.udpDst ++ optionalMember "tunnel_id" m.tunnelId

instance : Decode Match where
  decode p j := do
    let fields ← recordFields
      ["in_port", "metadata", "eth_src", "eth_dst", "eth_type", "vlan_vid", "vlan_pcp",
        "ip_proto", "ip_dscp", "ipv4_src", "ipv4_dst", "tcp_src", "tcp_dst", "udp_src",
        "udp_dst", "tunnel_id"] j
    return {
      inPort := ← fieldOr p fields "in_port" none
      metadata := ← fieldOr p fields "metadata" none
      ethSrc := ← fieldOr p fields "eth_src" none
      ethDst := ← fieldOr p fields "eth_dst" none
      ethType := ← fieldOr p fields "eth_type" none
      vlanVid := ← fieldOr p fields "vlan_vid" none
      vlanPcp := ← fieldOr p fields "vlan_pcp" none
      ipProto := ← fieldOr p fields "ip_proto" none
      ipDscp := ← fieldOr p fields "ip_dscp" none
      ipv4Src := ← fieldOr p fields "ipv4_src" none
      ipv4Dst := ← fieldOr p fields "ipv4_dst" none
      tcpSrc := ← fieldOr p fields "tcp_src" none
      tcpDst := ← fieldOr p fields "tcp_dst" none
      udpSrc := ← fieldOr p fields "udp_src" none
      udpDst := ← fieldOr p fields "udp_dst" none
      tunnelId := ← fieldOr p fields "tunnel_id" none }

/-! ## Actions -/

/-- The name of a field that is set, and the document of its value. -/
def FieldValue.parts : FieldValue → String × Json
  | .metadata v => ("metadata", encode v)
  | .ethSrc v => ("eth_src", encode v)
  | .ethDst v => ("eth_dst", encode v)
  | .vlanVid v => ("vlan_vid", encode v)
  | .vlanPcp v => ("vlan_pcp", encode v)
  | .ipDscp v => ("ip_dscp", encode v)
  | .ipv4Src v => ("ipv4_src", encode v)
  | .ipv4Dst v => ("ipv4_dst", encode v)
  | .tcpSrc v => ("tcp_src", encode v)
  | .tcpDst v => ("tcp_dst", encode v)
  | .udpSrc v => ("udp_src", encode v)
  | .udpDst v => ("udp_dst", encode v)
  | .tunnelId v => ("tunnel_id", encode v)

instance : Encode FieldValue where
  encode f := beside "field" "value" f.parts.1 (some f.parts.2)

instance : Decode FieldValue where
  decode := decodeBeside "field" "value"
    [("metadata", contentVariant FieldValue.metadata),
      ("eth_src", contentVariant FieldValue.ethSrc),
      ("eth_dst", contentVariant FieldValue.ethDst),
      ("vlan_vid", contentVariant FieldValue.vlanVid),
      ("vlan_pcp", contentVariant FieldValue.vlanPcp),
      ("ip_dscp", contentVariant FieldValue.ipDscp),
      ("ipv4_src", contentVariant FieldValue.ipv4Src),
      ("ipv4_dst", contentVariant FieldValue.ipv4Dst),
      ("tcp_src", contentVariant FieldValue.tcpSrc),
      ("tcp_dst", contentVariant FieldValue.tcpDst),
      ("udp_src", contentVariant FieldValue.udpSrc),
      ("udp_dst", contentVariant FieldValue.udpDst),
      ("tunnel_id", contentVariant FieldValue.tunnelId)]

/-- The name of an action and the members beside it. -/
def Action.parts : Action → String × List (String × Json)
  | .output port maxLen => ("output", member "port" port ++ member "max_len" maxLen)
  | .group id => ("group", member "group_id" id)
  | .setField field => ("set_field", member "field" field)
  | .pushVlan ethertype => ("push_vlan", member "ethertype" ethertype)
  | .popVlan => ("pop_vlan", [])
  | .setQueue queue => ("set_queue", member "queue_id" queue)
  | .decNwTtl => ("dec_nw_ttl", [])
  | .setNwTtl ttl => ("set_nw_ttl", member "ttl" ttl)
  | .copyTtlIn => ("copy_ttl_in", [])
  | .copyTtlOut => ("copy_ttl_out", [])
  | .drop => ("drop", [])

instance : Encode Action where
  encode a := .object (("type", .text a.parts.1) :: a.parts.2)

instance : Decode Action where
  decode := decodeTagged "type"
    [("output", twoFieldVariant "port" "max_len" Action.output),
      ("group", fieldVariant "group_id" Action.group),
      ("set_field", fieldVariant "field" Action.setField),
      ("push_vlan", fieldVariant "ethertype" Action.pushVlan),
      ("pop_vlan", emptyVariant Action.popVlan),
      ("set_queue", fieldVariant "queue_id" Action.setQueue),
      ("dec_nw_ttl", emptyVariant Action.decNwTtl),
      ("set_nw_ttl", fieldVariant "ttl" Action.setNwTtl),
      ("copy_ttl_in", emptyVariant Action.copyTtlIn),
      ("copy_ttl_out", emptyVariant Action.copyTtlOut),
      ("drop", emptyVariant Action.drop)]

/-! ## Instructions -/

/-- The name of an instruction and the members beside it. -/
def Instruction.parts : Instruction → String × List (String × Json)
  | .gotoTable table => ("goto_table", member "table_id" table)
  | .writeMetadata metadata mask =>
    ("write_metadata", member "metadata" metadata ++ member "mask" mask)
  | .writeActions actions => ("write_actions", member "actions" actions)
  | .applyActions actions => ("apply_actions", member "actions" actions)
  | .clearActions => ("clear_actions", [])
  | .meter id => ("meter", member "meter_id" id)

instance : Encode Instruction where
  encode i := .object (("type", .text i.parts.1) :: i.parts.2)

instance : Decode Instruction where
  decode := decodeTagged "type"
    [("goto_table", fieldVariant "table_id" Instruction.gotoTable),
      ("write_metadata", twoFieldVariant "metadata" "mask" Instruction.writeMetadata),
      ("write_actions", fieldVariant "actions" Instruction.writeActions),
      ("apply_actions", fieldVariant "actions" Instruction.applyActions),
      ("clear_actions", emptyVariant Instruction.clearActions),
      ("meter", fieldVariant "meter_id" Instruction.meter)]

/-! ## Flows -/

instance : Encode FlowFlags where
  encode f := .object <|
    member "send_flow_rem" f.sendFlowRem ++ member "check_overlap" f.checkOverlap ++
    member "reset_counts" f.resetCounts ++ member "no_pkt_counts" f.noPktCounts ++
    member "no_byt_counts" f.noBytCounts

instance : Decode FlowFlags where
  decode p j := do
    let fields ← recordFields
      ["send_flow_rem", "check_overlap", "reset_counts", "no_pkt_counts", "no_byt_counts"] j
    return {
      sendFlowRem := ← fieldOr p fields "send_flow_rem" false
      checkOverlap := ← fieldOr p fields "check_overlap" false
      resetCounts := ← fieldOr p fields "reset_counts" false
      noPktCounts := ← fieldOr p fields "no_pkt_counts" false
      noBytCounts := ← fieldOr p fields "no_byt_counts" false }

instance : Encode Flow where
  encode f := .object <|
    optionalMember "id" f.id ++ member "table_id" f.table ++ member "priority" f.priority ++
    member "cookie" f.cookie ++ member "cookie_mask" f.cookieMask ++
    member "idle_timeout" f.idleTimeout ++ member "hard_timeout" f.hardTimeout ++
    member "flags" f.flags ++ member "match" f.fields ++ member "instructions" f.instructions ++
    member "strict" f.strict ++ optionalMember "out_port" f.outPort ++
    optionalMember "out_group" f.outGroup ++ member "barrier" f.barrier

instance : Decode Flow where
  decode p j := do
    let fields ← recordFields
      ["id", "table_id", "priority", "cookie", "cookie_mask", "idle_timeout", "hard_timeout",
        "flags", "match", "instructions", "strict", "out_port", "out_group", "barrier"] j
    return {
      id := ← fieldOr p fields "id" none
      table := ← requiredField p fields "table_id"
      priority := ← fieldOr p fields "priority" 32768
      cookie := ← fieldOr p fields "cookie" 0
      cookieMask := ← fieldOr p fields "cookie_mask" 0
      idleTimeout := ← fieldOr p fields "idle_timeout" 0
      hardTimeout := ← fieldOr p fields "hard_timeout" 0
      flags := ← fieldOr p fields "flags" {}
      fields := ← fieldOr p fields "match" {}
      instructions := ← fieldOr p fields "instructions" []
      strict := ← fieldOr p fields "strict" false
      outPort := ← fieldOr p fields "out_port" none
      outGroup := ← fieldOr p fields "out_group" none
      barrier := ← fieldOr p fields "barrier" false }

end Southbound
