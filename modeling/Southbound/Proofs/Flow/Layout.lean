import Mathlib.Algebra.Group.Nat.Defs
import Mathlib.Data.List.Basic
import Southbound.Flow.Key

/-!
# Layouts that show where they end

A layout is `SelfDelimiting` if a value that is laid out in front of other octets can be told
apart from them: the value and what follows it are determined.  A layout of a fixed width that
differs for different values is of that kind (`selfDelimiting_of_width`), an optional value is if
its layout is, and so is a record whose fields are laid out one after another.  A match of sixteen
optional fields is read back a field at a time.

So a key is determined by its octets, also where more follow, and no key is laid out as the
beginning of another (`FlowKey.octets_unambiguous`).  Keys that share a digest are hashed from
different octets.
-/

namespace Southbound

/-- A layout whose value and whose end can be told from any octets that start with it. -/
def SelfDelimiting {α : Type} (layout : α → List UInt8) : Prop :=
  ∀ a b s t, layout a ++ s = layout b ++ t → a = b ∧ s = t

section Layouts

variable {α : Type} {layout : α → List UInt8}

/-- Layouts of one width are told apart if they differ. -/
theorem selfDelimiting_of_width (width : Nat) (hwidth : ∀ a, (layout a).length = width)
    (hinj : Function.Injective layout) : SelfDelimiting layout := by
  intro a b s t h
  have hlength : (layout a).length = (layout b).length := by rw [hwidth, hwidth]
  obtain ⟨hvalue, hrest⟩ := List.append_inj h hlength
  exact ⟨hinj hvalue, hrest⟩

/-! ## Numbers -/

@[simp] theorem length_littleEndian (width n : Nat) : (littleEndian width n).length = width := by
  induction width generalizing n with
  | zero => rfl
  | succ width ih => rw [littleEndian, List.length_cons, ih]

/-- A number that fits into the width is determined by its octets. -/
theorem littleEndian_inj {width m n : Nat} (hm : m < 256 ^ width) (hn : n < 256 ^ width)
    (h : littleEndian width m = littleEndian width n) : m = n := by
  induction width generalizing m n with
  | zero =>
      rw [Nat.pow_zero] at hm hn
      omega
  | succ width ih =>
      rw [Nat.pow_succ'] at hm hn
      obtain ⟨hlow, hhigh⟩ := List.cons.inj h
      have hrest : m / 256 = n / 256 := ih (Nat.div_lt_of_lt_mul hm) (Nat.div_lt_of_lt_mul hn) hhigh
      have hfirst : m % 256 = n % 256 := by
        have hnat := congrArg UInt8.toNat hlow
        rwa [UInt8.toNat_ofNat_of_lt' (Nat.mod_lt m (by decide)),
          UInt8.toNat_ofNat_of_lt' (Nat.mod_lt n (by decide))] at hnat
      omega

theorem selfDelimiting_octets8 : SelfDelimiting octets8 :=
  selfDelimiting_of_width 1 (fun _ => rfl) fun _ _ h => (List.cons.inj h).1

theorem selfDelimiting_octets16 : SelfDelimiting octets16 := by
  refine selfDelimiting_of_width 2 (fun n => length_littleEndian ..) fun m n h => ?_
  exact UInt16.toNat_inj.mp (littleEndian_inj m.toNat_lt n.toNat_lt h)

theorem selfDelimiting_octets32 : SelfDelimiting octets32 := by
  refine selfDelimiting_of_width 4 (fun n => length_littleEndian ..) fun m n h => ?_
  exact UInt32.toNat_inj.mp (littleEndian_inj m.toNat_lt n.toNat_lt h)

theorem selfDelimiting_octets64 : SelfDelimiting octets64 := by
  refine selfDelimiting_of_width 8 (fun n => length_littleEndian ..) fun m n h => ?_
  exact UInt64.toNat_inj.mp (littleEndian_inj m.toNat_lt n.toNat_lt h)

/-! ## Values with parts -/

/-- The word in front of an optional value tells whether there is a value. -/
theorem SelfDelimiting.option (h : SelfDelimiting layout) :
    SelfDelimiting (optionOctets layout) := by
  -- The two words differ, so what stands behind them does not matter.
  have hword (s t : List UInt8) : littleEndian 8 0 ++ s ≠ littleEndian 8 1 ++ t := by
    intro he
    obtain ⟨hw, -⟩ := List.append_inj he rfl
    cases hw
  intro a b s t he
  cases a with
  | none =>
      cases b with
      | none => exact ⟨rfl, List.append_cancel_left he⟩
      | some b =>
          rw [optionOctets, optionOctets, List.append_assoc] at he
          exact (hword _ _ he).elim
  | some a =>
      cases b with
      | none =>
          rw [optionOctets, optionOctets, List.append_assoc] at he
          exact (hword _ _ he.symm).elim
      | some b =>
          rw [optionOctets, optionOctets, List.append_assoc, List.append_assoc] at he
          obtain ⟨hvalue, hrest⟩ := h a b s t (List.append_cancel_left he)
          exact ⟨congrArg some hvalue, hrest⟩

theorem SelfDelimiting.masked (h : SelfDelimiting layout) :
    SelfDelimiting (Masked.layout layout) := by
  intro a b s t he
  rw [Masked.layout, Masked.layout, List.append_assoc, List.append_assoc] at he
  obtain ⟨hvalue, he⟩ := h _ _ _ _ he
  obtain ⟨hmask, hrest⟩ := h.option _ _ _ _ he
  cases a
  cases b
  cases hvalue
  cases hmask
  exact ⟨rfl, hrest⟩

theorem Mac.selfDelimiting_layout : SelfDelimiting Mac.layout := by
  refine selfDelimiting_of_width 14 (fun _ => rfl) fun a b h => ?_
  have hoctets : a.octets = b.octets := List.append_cancel_left h
  have hread := congrArg Mac.ofOctets? hoctets
  rw [Mac.ofOctets?_octets, Mac.ofOctets?_octets] at hread
  exact Option.some.inj hread

theorem Ipv4Prefix.selfDelimiting_layout : SelfDelimiting Ipv4Prefix.layout := by
  refine selfDelimiting_of_width 5 (fun _ => rfl) fun a b h => ?_
  rcases a with ⟨⟨a0, a1, a2, a3⟩, lengthA⟩
  rcases b with ⟨⟨b0, b1, b2, b3⟩, lengthB⟩
  cases h
  rfl

theorem FlowFlags.selfDelimiting_layout : SelfDelimiting FlowFlags.layout := by
  refine selfDelimiting_of_width 5 (fun _ => rfl) fun a b h => ?_
  have hoctet : Function.Injective fun flag : Bool => if flag then (1 : UInt8) else 0 := by
    intro x y he
    cases x <;> cases y <;> first | rfl | cases he
  have hflags := List.map_injective_iff.mpr hoctet h
  cases a
  cases b
  cases hflags
  rfl

end Layouts

/-! ## Keys -/

/-- The fields of a match are read back one after another. -/
theorem Match.selfDelimiting_layout : SelfDelimiting Match.layout := by
  have h8 := selfDelimiting_octets8.option
  have h16 := selfDelimiting_octets16.option
  have h32 := selfDelimiting_octets32.option
  have h64 := selfDelimiting_octets64.option
  have hmetadata := selfDelimiting_octets64.masked.option
  have hmac := Mac.selfDelimiting_layout.masked.option
  have hipv4 := Ipv4Prefix.selfDelimiting_layout.option
  intro a b s t h
  simp only [Match.layout, List.append_assoc] at h
  obtain ⟨inPort, h⟩ := h32 _ _ _ _ h
  obtain ⟨metadata, h⟩ := hmetadata _ _ _ _ h
  obtain ⟨ethSrc, h⟩ := hmac _ _ _ _ h
  obtain ⟨ethDst, h⟩ := hmac _ _ _ _ h
  obtain ⟨ethType, h⟩ := h16 _ _ _ _ h
  obtain ⟨vlanVid, h⟩ := h16 _ _ _ _ h
  obtain ⟨vlanPcp, h⟩ := h8 _ _ _ _ h
  obtain ⟨ipProto, h⟩ := h8 _ _ _ _ h
  obtain ⟨ipDscp, h⟩ := h8 _ _ _ _ h
  obtain ⟨ipv4Src, h⟩ := hipv4 _ _ _ _ h
  obtain ⟨ipv4Dst, h⟩ := hipv4 _ _ _ _ h
  obtain ⟨tcpSrc, h⟩ := h16 _ _ _ _ h
  obtain ⟨tcpDst, h⟩ := h16 _ _ _ _ h
  obtain ⟨udpSrc, h⟩ := h16 _ _ _ _ h
  obtain ⟨udpDst, h⟩ := h16 _ _ _ _ h
  obtain ⟨tunnelId, h⟩ := h64 _ _ _ _ h
  refine ⟨?_, h⟩
  cases a
  cases b
  rw [mk.injEq]
  exact ⟨inPort, metadata, ethSrc, ethDst, ethType, vlanVid, vlanPcp, ipProto, ipDscp, ipv4Src,
    ipv4Dst, tcpSrc, tcpDst, udpSrc, udpDst, tunnelId⟩

/-- A key is read back from its start, whatever follows. -/
theorem FlowKey.selfDelimiting_octets : SelfDelimiting FlowKey.octets := by
  intro k k' s t h
  simp only [FlowKey.octets, List.append_assoc] at h
  obtain ⟨priority, h⟩ := selfDelimiting_octets16 _ _ _ _ h
  obtain ⟨cookie, h⟩ := selfDelimiting_octets64 _ _ _ _ h
  obtain ⟨fields, h⟩ := Match.selfDelimiting_layout _ _ _ _ h
  obtain ⟨flags, h⟩ := FlowFlags.selfDelimiting_layout.option _ _ _ _ h
  refine ⟨?_, h⟩
  cases k
  cases k'
  rw [mk.injEq]
  exact ⟨priority, cookie, fields, flags⟩

theorem FlowKey.octets_inj {k k' : FlowKey} : k.octets = k'.octets ↔ k = k' := by
  constructor
  · intro h
    exact (FlowKey.selfDelimiting_octets k k' [] [] (congrArg (· ++ []) h)).1
  · exact congrArg FlowKey.octets

/-- Two keys are laid out alike only if they are equal, and neither layout is the beginning of the
other otherwise.  In front of other octets a key is told apart from them too.  Different keys
share a digest only if their different octets do. -/
theorem FlowKey.octets_unambiguous (k k' : FlowKey) :
    (k.octets = k'.octets ↔ k = k') ∧
      (k.octets <+: k'.octets ↔ k = k') ∧
      (∀ s t, k.octets ++ s = k'.octets ++ t ↔ k = k' ∧ s = t) ∧
      (k ≠ k' ∧ k.digest = k'.digest ↔
        k.octets ≠ k'.octets ∧ SipHash.digest 0 0 k.octets = SipHash.digest 0 0 k'.octets) := by
  have hrest (s t : List UInt8) : k.octets ++ s = k'.octets ++ t ↔ k = k' ∧ s = t := by
    constructor
    · exact FlowKey.selfDelimiting_octets k k' s t
    · rintro ⟨rfl, rfl⟩
      rfl
  have hprefix : k.octets <+: k'.octets ↔ k = k' := by
    constructor
    · rintro ⟨s, hs⟩
      exact ((hrest s []).mp (hs.trans (List.append_nil _).symm)).1
    · rintro rfl
      exact List.prefix_refl _
  refine ⟨octets_inj, hprefix, hrest, ?_⟩
  rw [Ne, ← octets_inj]
  rfl

/-- A port that is matched as the source is not laid out as the next field, the destination. -/
example : ({ tcpSrc := some 80 } : Match).layout ≠ ({ tcpDst := some 80 } : Match).layout := by
  decide

end Southbound
