import Southbound.Flow.Json
import Southbound.Proofs.Json.Faithful

/-!
# Flows are read as they were written

`Faithful` for everything a flow is made of: identities, addresses, matches,
the fields that are set, actions, instructions and the flow itself.

An internet address is the one value that is written as a text of its own, so
its round trip is about digits and points.  All others are records or choices
of the codec.
-/

namespace Southbound

open Json

/-! ## Identities -/

instance : Faithful DeviceId 0 :=
  .of_view DeviceId.text (some ∘ DeviceId.mk) (fun _ => rfl) (fun _ _ => Option.map_eq_bind)
    fun _ => rfl

instance : Faithful Xid 0 :=
  .of_view Xid.val (some ∘ Xid.mk) (fun _ => rfl) (fun _ _ => Option.map_eq_bind) fun _ => rfl

instance : Faithful GroupId 0 :=
  .of_view GroupId.val (some ∘ GroupId.mk) (fun _ => rfl) (fun _ _ => Option.map_eq_bind)
    fun _ => rfl

instance : Faithful TableId 0 :=
  .of_view TableId.val (some ∘ TableId.mk) (fun _ => rfl) (fun _ _ => Option.map_eq_bind)
    fun _ => rfl

instance : Faithful FlowId 0 :=
  .of_view FlowId.text (some ∘ FlowId.mk) (fun _ => rfl) (fun _ _ => Option.map_eq_bind)
    fun _ => rfl

/-! ## Addresses -/

instance : Faithful Mac 1 :=
  .of_view Mac.octets Mac.ofOctets? (fun _ => rfl) (fun _ _ => rfl) Mac.ofOctets?_octets

/-- The digits of an octet are read as the octet. -/
theorem Ipv4.octet?_digits (o : UInt8) : Ipv4.octet? (Nat.toDigits 10 o.toNat) = some o := by
  have hall : ∀ n < 256, Ipv4.octet? (Nat.toDigits 10 n) = some n.toUInt8 := by decide +kernel
  rw [hall o.toNat o.toNat_lt]
  exact congrArg some o.ofNat_toNat

/-- The text of an address splits at its points into the digits of its
octets. -/
theorem Ipv4.splitOn_display (a : Ipv4) :
    a.display.toList.splitOn '.' = a.octets.map fun o => Nat.toDigits 10 o.toNat := by
  have hpoint (l : List Char) (hl : l ∈ a.octets.map fun o => Nat.toDigits 10 o.toNat) :
      '.' ∉ l := by
    obtain ⟨o, -, rfl⟩ := List.mem_map.1 hl
    exact fun h => absurd (Nat.isDigit_of_mem_toDigits (by omega) (by omega) h) (by decide)
  have htext : a.display.toList =
      ['.'].intercalate (a.octets.map fun o => Nat.toDigits 10 o.toNat) := by
    simp [Ipv4.display, Function.comp_def, Nat.repr_eq_ofList_toDigits]
  rw [htext, List.splitOn_intercalate '.' hpoint (by simp [Ipv4.octets])]

theorem Ipv4.ofText?_display (a : Ipv4) : Ipv4.ofText? a.display = some a := by
  simp [Ipv4.ofText?, Ipv4.splitOn_display, Ipv4.octets, Ipv4.octet?_digits]

instance : Faithful Ipv4 0 :=
  .of_view Ipv4.display Ipv4.ofText? (fun _ => rfl) (fun _ _ => rfl) Ipv4.ofText?_display

instance {α : Type} [Encode α] [Decode α] {levels : Nat} [Faithful α levels] :
    Faithful (Masked α) (levels + 1) where
  encode_ne_null _ := nofun
  decode_encode p m h := by
    unfold instEncodeMasked instDecodeMasked
    simp (disch := first | omega | simp)
      [member_eq_written, optionalMember_eq_written, List.lookup_cons]
  holdable_encode depth m h := by
    have hdepth : depth < maxNesting := by omega
    unfold instEncodeMasked
    simp (disch := omega) [hdepth]

instance : Faithful Ipv4Prefix 1 where
  encode_ne_null _ := nofun
  decode_encode p r h := by
    unfold instEncodeIpv4Prefix instDecodeIpv4Prefix
    simp (disch := first | omega | simp) [member_eq_written, List.lookup_cons]
  holdable_encode depth r h := by
    have hdepth : depth < maxNesting := by omega
    unfold instEncodeIpv4Prefix
    simp (disch := omega) [hdepth]

/-! ## Matches -/

instance : Faithful Match 3 where
  encode_ne_null _ := nofun
  decode_encode p m h := by
    -- proved once: every one of the sixteen fields is looked up under this condition
    have hnames : ["in_port", "metadata", "eth_src", "eth_dst", "eth_type", "vlan_vid", "vlan_pcp",
        "ip_proto", "ip_dscp", "ipv4_src", "ipv4_dst", "tcp_src", "tcp_dst", "udp_src", "udp_dst",
        "tunnel_id"].Nodup := by decide
    unfold instEncodeMatch instDecodeMatch
    simp only [optionalMember_eq_written, written_append, List.cons_append, List.nil_append]
    rw [recordFields_written (by rfl) hnames, Option.bind_eq_bind, Option.bind_some]
    simp (disch := first | omega | simpa only [List.map_cons, List.map_nil] using hnames) only
      [fieldOr_written, List.lookup_cons, BEq.rfl, Option.join_some, Option.map_map,
        optional_inner_encode, String.reduceBEq]
    rfl
  holdable_encode depth m h := by
    have hdepth : depth < maxNesting := by omega
    unfold instEncodeMatch
    simp (disch := omega) [hdepth]

/-! ## Actions -/

instance : Faithful FieldValue 2 where
  encode_ne_null _ := nofun
  decode_encode p f h := by
    have hcontent : p.inner.depth + 1 ≤ maxNesting := by simp only [Place.inner]; omega
    cases f <;>
      exact (decodeBeside_beside (by decide) rfl).trans (contentVariant_encode (by omega))
  holdable_encode depth f h := by
    have hdepth : depth < maxNesting := by omega
    unfold instEncodeFieldValue
    cases f <;> simp (disch := omega) [FieldValue.parts, beside, hdepth, holdable_encode]

theorem Action.holdable_encode {depth : Nat} (a : Action) (h : depth + 3 ≤ maxNesting) :
    (encode a).holdable depth = true := by
  have hdepth : depth < maxNesting := by omega
  unfold instEncodeAction
  cases a <;> simp (disch := omega) [Action.parts, hdepth]

instance : Faithful Action 3 where
  encode_ne_null _ := nofun
  decode_encode p a h := by
    have hold := a.holdable_encode h
    cases a with
    | output port maxLen =>
      exact decodeTagged_twoFields (by rfl) (by decide) hold (by omega) (by omega)
    | group id => exact decodeTagged_field (by rfl) (by decide) hold (by omega)
    | setField field => exact decodeTagged_field (by rfl) (by decide) hold (by omega)
    | pushVlan ethertype => exact decodeTagged_field (by rfl) (by decide) hold (by omega)
    | setQueue queue => exact decodeTagged_field (by rfl) (by decide) hold (by omega)
    | setNwTtl ttl => exact decodeTagged_field (by rfl) (by decide) hold (by omega)
    | popVlan | decNwTtl | copyTtlIn | copyTtlOut | drop =>
      exact decodeTagged_empty (by rfl) hold
  holdable_encode depth a h := a.holdable_encode h

/-! ## Instructions -/

theorem Instruction.holdable_encode {depth : Nat} (i : Instruction)
    (h : depth + 5 ≤ maxNesting) : (encode i).holdable depth = true := by
  have hdepth : depth < maxNesting := by omega
  unfold instEncodeInstruction
  cases i <;> simp (disch := omega) [Instruction.parts, hdepth]

instance : Faithful Instruction 5 where
  encode_ne_null _ := nofun
  decode_encode p i h := by
    have hold := i.holdable_encode h
    cases i with
    | gotoTable table => exact decodeTagged_field (by rfl) (by decide) hold (by omega)
    | writeMetadata metadata mask =>
      exact decodeTagged_twoFields (by rfl) (by decide) hold (by omega) (by omega)
    | writeActions actions => exact decodeTagged_field (by rfl) (by decide) hold (by omega)
    | applyActions actions => exact decodeTagged_field (by rfl) (by decide) hold (by omega)
    | clearActions => exact decodeTagged_empty (by rfl) hold
    | meter id => exact decodeTagged_field (by rfl) (by decide) hold (by omega)
  holdable_encode depth i h := i.holdable_encode h

/-! ## Flows -/

instance : Faithful FlowFlags 1 where
  encode_ne_null _ := nofun
  decode_encode p f h := by
    unfold instEncodeFlowFlags instDecodeFlowFlags
    simp (disch := first | omega | simp) [member_eq_written, List.lookup_cons]
  holdable_encode depth f h := by
    have hdepth : depth < maxNesting := by omega
    unfold instEncodeFlowFlags
    simp (disch := omega) [hdepth]

instance : Faithful Flow 7 where
  encode_ne_null _ := nofun
  decode_encode p f h := by
    have hnames : ["id", "table_id", "priority", "cookie", "cookie_mask", "idle_timeout",
        "hard_timeout", "flags", "match", "instructions", "strict", "out_port", "out_group",
        "barrier"].Nodup := by decide
    unfold instEncodeFlow instDecodeFlow
    simp only [optionalMember_eq_written, member_eq_written, written_append, List.cons_append,
      List.nil_append]
    rw [recordFields_written (by rfl) hnames, Option.bind_eq_bind, Option.bind_some]
    simp (disch := first | omega | simpa only [List.map_cons, List.map_nil] using hnames) only
      [fieldOr_written, requiredField_written, List.lookup_cons, BEq.rfl, Option.join_some,
        Option.bind_some, Option.map_map, optional_inner_encode, decode_inner_encode,
        Option.map_some, Option.getD_some, String.reduceBEq]
    rfl
  holdable_encode depth f h := by
    have hdepth : depth < maxNesting := by omega
    unfold instEncodeFlow
    simp (disch := omega) [hdepth]

end Southbound
