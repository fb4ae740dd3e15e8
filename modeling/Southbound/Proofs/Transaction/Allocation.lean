import Mathlib.Data.List.Nodup
import Mathlib.Data.List.Perm.Subperm
import Southbound.Proofs.Transaction.Calls

/-!
# Free transaction ids

Ids are tried one after another from the cursor on, and the first comes after the last.
`Xid.ahead` is how many places one id is after another.  The search finds the free id that
is nearest to the cursor (`TransactionRegistry.FirstFree`), if there is one among those that
it tries, and otherwise it gives up and moves the cursor by one
(`TransactionRegistry.allocates_first_free`).

There are as many ids as there are attempts, and the attempts are at different ids.  So with
fewer requests than ids an id that no request has is found
(`TransactionRegistry.isPending_allocate`), and otherwise there is none
(`TransactionRegistry.Sound.isPending_of_full`).
-/

namespace Southbound

/-! ## Places of transaction ids -/

/-- The transaction id so many places after another. -/
def Xid.forward (x : Xid) (n : Nat) : Xid := ⟨x.val + UInt32.ofNat n⟩

/-- How many places a transaction id is after another. -/
def Xid.ahead (x y : Xid) : Nat := (y.val - x.val).toNat

theorem Xid.forward_zero (x : Xid) : x.forward 0 = x := by
  rw [forward]
  exact congrArg Xid.mk (UInt32.add_zero x.val)

theorem Xid.forward_next (x : Xid) (n : Nat) : x.next.forward n = x.forward (n + 1) := by
  rw [forward, forward, next, UInt32.ofNat_add, UInt32.add_assoc,
    UInt32.add_comm (UInt32.ofNat n)]
  rfl

/-- Ids at different places are different. -/
theorem Xid.forward_inj (x : Xid) {m n : Nat} (hm : m < UInt32.size) (hn : n < UInt32.size)
    (h : x.forward m = x.forward n) : m = n := by
  have hval : UInt32.ofNat m = UInt32.ofNat n := (UInt32.add_right_inj x.val).mp (Xid.mk.inj h)
  have hnat := congrArg UInt32.toNat hval
  rwa [UInt32.toNat_ofNat_of_lt' hm, UInt32.toNat_ofNat_of_lt' hn] at hnat

theorem Xid.ahead_lt (x y : Xid) : x.ahead y < UInt32.size := UInt32.toNat_lt_size _

/-- Places are counted up to the number of ids. -/
theorem Xid.ahead_forward_le (x : Xid) (n : Nat) : x.ahead (x.forward n) ≤ n := by
  have hplace : x.ahead (x.forward n) = n % 2 ^ 32 := by
    show (x.val + UInt32.ofNat n - x.val).toNat = _
    rw [UInt32.add_comm, UInt32.add_sub_cancel, UInt32.toNat_ofNat']
  rw [hplace]
  exact Nat.mod_le ..

@[simp] theorem Xid.forward_ahead (x y : Xid) : x.forward (x.ahead y) = y := by
  rw [forward, ahead, UInt32.ofNat_toNat, UInt32.add_comm, UInt32.sub_add_cancel]

namespace TransactionRegistry

variable {r : TransactionRegistry} {x y : Xid}

/-! ## The search -/

/-- The first id from the cursor on that no request has. -/
structure FirstFree (r : TransactionRegistry) (x : Xid) : Prop where
  free : r.isPending x = false
  first : ∀ y, r.isPending y = false → r.cursor.ahead x ≤ r.cursor.ahead y

theorem FirstFree.unique (hx : r.FirstFree x) (hy : r.FirstFree y) : x = y := by
  have hplace : r.cursor.ahead x = r.cursor.ahead y :=
    Nat.le_antisymm (hx.first y hy.free) (hy.first x hx.free)
  rw [← r.cursor.forward_ahead x, hplace, Xid.forward_ahead]

/-- The ids before the first free one are taken. -/
theorem FirstFree.taken (h : r.FirstFree x) {i : Nat} (hi : i < r.cursor.ahead x) :
    r.isPending (r.cursor.forward i) = true := by
  by_contra hfree
  have hplace := h.first _ (Bool.not_eq_true _ ▸ hfree)
  exact absurd (Nat.le_trans hplace (r.cursor.ahead_forward_le i)) (Nat.not_le.mpr hi)

/-- The ids that are tried before a free one are taken, or all that are tried are taken. -/
theorem allocateWithin_go_cases (r : TransactionRegistry) (n : Nat) (x : Xid) :
    (∃ k < n, r.isPending (x.forward k) = false ∧ (∀ i < k, r.isPending (x.forward i) = true) ∧
        allocateWithin.go r n x = (x.forward k, { r with cursor := (x.forward k).next })) ∨
      (∀ i < n, r.isPending (x.forward i) = true) ∧
        allocateWithin.go r n x = (r.cursor, { r with cursor := r.cursor.next }) := by
  induction n generalizing x with
  | zero => exact .inr ⟨fun i hi => absurd hi (Nat.not_lt_zero i), rfl⟩
  | succ n ih =>
      rw [allocateWithin.go]
      cases hx : r.isPending x with
      | false =>
          refine .inl ⟨0, Nat.succ_pos n, ?_, fun i hi => absurd hi (Nat.not_lt_zero i), ?_⟩
          · rwa [Xid.forward_zero]
          · rw [Xid.forward_zero]
            rfl
      | true =>
          -- This id is taken, and so the places are counted from the next one.
          have hbefore {k : Nat} (htaken : ∀ i < k, r.isPending (x.next.forward i) = true) :
              ∀ i < k + 1, r.isPending (x.forward i) = true := by
            intro i hi
            cases i with
            | zero => rwa [Xid.forward_zero]
            | succ i =>
                rw [← Xid.forward_next]
                exact htaken i (Nat.lt_of_succ_lt_succ hi)
          rcases ih x.next with ⟨k, hk, hfree, htaken, he⟩ | ⟨htaken, he⟩
          · rw [Xid.forward_next] at hfree he
            exact .inl ⟨k + 1, Nat.succ_lt_succ hk, hfree, hbefore htaken, he⟩
          · exact .inr ⟨hbefore htaken, he⟩

/-- The search finds the first free id, if that is one of those that are tried, and otherwise
it gives up. -/
theorem allocateWithin_cases (r : TransactionRegistry) (n : Nat) :
    (∃ x, r.FirstFree x ∧ r.cursor.ahead x < n ∧
        r.allocateWithin n = (x, { r with cursor := x.next })) ∨
      (∀ x, r.cursor.ahead x < n → r.isPending x = true) ∧
        r.allocateWithin n = (r.cursor, { r with cursor := r.cursor.next }) := by
  rcases r.allocateWithin_go_cases n r.cursor with ⟨k, hk, hfree, htaken, he⟩ | ⟨htaken, he⟩
  · have hplace := r.cursor.ahead_forward_le k
    refine .inl ⟨_, ⟨hfree, fun y hy => Nat.le_trans hplace ?_⟩, Nat.lt_of_le_of_lt hplace hk, he⟩
    by_contra hnearer
    have htaken := htaken _ (Nat.lt_of_not_le hnearer)
    rw [Xid.forward_ahead, hy] at htaken
    cases htaken
  · refine .inr ⟨fun x hx => ?_, he⟩
    have htaken := htaken _ hx
    rwa [Xid.forward_ahead] at htaken

/-! ## Free ids and requests -/

/-- Ids that follow one another and are all taken are those of as many requests. -/
theorem le_pendingCount (x : Xid) {n : Nat} (hn : n ≤ UInt32.size)
    (htaken : ∀ i < n, r.isPending (x.forward i) = true) : n ≤ r.pendingCount := by
  have hids : ((List.range n).map x.forward).Nodup := by
    refine List.Nodup.map_on (fun i hi j hj heq => ?_) List.nodup_range
    have hi := Nat.lt_of_lt_of_le (List.mem_range.mp hi) hn
    have hj := Nat.lt_of_lt_of_le (List.mem_range.mp hj) hn
    exact x.forward_inj hi hj heq
  have hsub : (List.range n).map x.forward ⊆ r.pending.map Pending.xid := by
    intro y hy
    obtain ⟨i, hi, rfl⟩ := List.mem_map.mp hy
    obtain ⟨p, hp⟩ := Option.isSome_iff_exists.mp (htaken i (List.mem_range.mp hi))
    obtain ⟨hmem, hxid⟩ := mem_of_find? hp
    exact List.mem_map.mpr ⟨p, hmem, hxid⟩
  have hle := (hids.subperm hsub).length_le
  rwa [List.length_map, List.length_map, List.length_range] at hle

/-- With fewer requests than there are ids, no request has some id. -/
theorem exists_free (h : r.pending.length < UInt32.size) : ∃ x, r.isPending x = false := by
  by_contra hnone
  have htaken (x : Xid) : r.isPending x = true :=
    Bool.not_eq_false _ ▸ fun hfree => hnone ⟨x, hfree⟩
  have hle := le_pendingCount r.cursor (Nat.le_refl UInt32.size) fun i _ => htaken _
  exact absurd h (Nat.not_lt.mpr hle)

/-- With fewer requests than there are ids, the first free id is allocated. -/
theorem firstFree_allocate (h : r.pending.length < UInt32.size) :
    ∃ x, r.FirstFree x ∧ r.allocate = (x, { r with cursor := x.next }) := by
  obtain ⟨y, hy⟩ := exists_free h
  rcases r.allocateWithin_cases UInt32.size with ⟨x, hx, -, he⟩ | ⟨htaken, -⟩
  · exact ⟨x, hx, he⟩
  · rw [htaken y (Xid.ahead_lt ..)] at hy
    cases hy

theorem isPending_allocate (h : r.pending.length < UInt32.size) :
    r.isPending r.allocate.1 = false := by
  obtain ⟨x, hx, he⟩ := firstFree_allocate h
  rw [he]
  exact hx.free

/-- With as many requests as there are ids, each id is that of one. -/
theorem Sound.isPending_of_full (h : r.Sound)
    (hfull : UInt32.size ≤ r.pending.length) (x : Xid) : r.isPending x = true := by
  refine Bool.not_eq_false _ ▸ fun hfree => ?_
  have hids : ((x :: r.pending.map Pending.xid).map fun y => y.val.toNat).Nodup := by
    refine List.Nodup.map (fun y z heq => ?_) (List.nodup_cons.mpr ⟨isPending_eq_false hfree, h.xids⟩)
    exact congrArg Xid.mk (UInt32.toNat_inj.mp heq)
  have hsub : (x :: r.pending.map Pending.xid).map (fun y => y.val.toNat) ⊆
      List.range UInt32.size := by
    intro n hn
    obtain ⟨y, -, rfl⟩ := List.mem_map.mp hn
    exact List.mem_range.mpr y.val.toNat_lt_size
  have hle := (hids.subperm hsub).length_le
  rw [List.length_map, List.length_cons, List.length_map, List.length_range] at hle
  exact absurd hfull (Nat.not_le.mpr hle)

/-- A request is registered under an id that is free. -/
theorem register_of_free (h : r.isPending x = false) (deadline : Option Instant) :
    r.register x deadline = (.ok r.slots, { r with
      pending := ⟨x, r.slots, deadline, false⟩ :: r.pending
      slots := r.slots + 1 }) := by
  rw [register, h]
  rfl

theorem register_of_taken (h : r.isPending x = true) (deadline : Option Instant) :
    r.register x deadline = (.error (.xidInUse x), r) := by
  rw [register, if_pos h]

/-- With fewer requests than there are ids, the id that is allocated is the first free one from
the cursor on.  The cursor moves behind it and nothing else changes, so a request can be
registered under it.  If all ids are taken, it is the id at the cursor, which moves by one, and
no request can be registered under it.  A search among fewer ids finds the first free one if it
is among them, and gives up in the same way otherwise. -/
theorem allocates_first_free (r : TransactionRegistry) :
    (r.pendingCount < UInt32.size → ∃ x, r.FirstFree x ∧
      r.allocate = (x, { r with cursor := x.next }) ∧
      ∀ deadline, r.allocate.2.register x deadline = (.ok r.slots, { r with
        cursor := x.next
        pending := ⟨x, r.slots, deadline, false⟩ :: r.pending
        slots := r.slots + 1 })) ∧
    ((∀ x, r.isPending x = true) →
      r.allocate = (r.cursor, { r with cursor := r.cursor.next }) ∧
      ∀ deadline, r.allocate.2.register r.cursor deadline =
        (.error (.xidInUse r.cursor), r.allocate.2)) ∧
    (r.Sound → r.pendingCount < UInt32.size ∨ ∀ x, r.isPending x = true) ∧
    ∀ attempts,
      (∃ x, r.FirstFree x ∧ r.cursor.ahead x < attempts ∧
        r.allocateWithin attempts = (x, { r with cursor := x.next })) ∨
      (∀ x, r.cursor.ahead x < attempts → r.isPending x = true) ∧
        r.allocateWithin attempts = (r.cursor, { r with cursor := r.cursor.next }) := by
  refine ⟨fun hfewer => ?_, fun htaken => ?_, fun hsound => ?_, r.allocateWithin_cases⟩
  · obtain ⟨x, hx, he⟩ := firstFree_allocate hfewer
    refine ⟨x, hx, he, fun deadline => ?_⟩
    rw [he]
    exact register_of_free (r := { r with cursor := x.next }) hx.free deadline
  · have he : r.allocate = (r.cursor, { r with cursor := r.cursor.next }) := by
      rcases r.allocateWithin_cases UInt32.size with ⟨x, hx, -, -⟩ | ⟨-, he⟩
      · exact absurd (hx.free.symm.trans (htaken x)) Bool.false_ne_true
      · exact he
    refine ⟨he, fun deadline => ?_⟩
    rw [he]
    exact register_of_taken (r := { r with cursor := r.cursor.next }) (htaken r.cursor) deadline
  · exact (Nat.lt_or_ge r.pendingCount UInt32.size).imp_right hsound.isPending_of_full

/-! ## At the last id -/

namespace LastId

/-- The cursor is at the last id, and this and the first are taken. -/
def wrapping : TransactionRegistry where
  device := ⟨"openflow:1"⟩
  cursor := ⟨4294967295⟩
  pending := [⟨⟨0⟩, 1, none, false⟩, ⟨⟨4294967295⟩, 0, some 10, true⟩]
  slots := 2

/-- A request for each id. -/
def requests : List Pending :=
  (List.range UInt32.size).map fun n => ⟨⟨.ofNat n⟩, n, none, false⟩

/-- The cursor is at the last id, and all are taken. -/
def full : TransactionRegistry where
  device := ⟨"openflow:1"⟩
  cursor := ⟨4294967295⟩
  pending := requests
  slots := UInt32.size

theorem mem_requests (x : Xid) : ⟨x, x.val.toNat, none, false⟩ ∈ requests := by
  refine List.mem_map.mpr ⟨x.val.toNat, List.mem_range.mpr x.val.toNat_lt_size, ?_⟩
  rw [UInt32.ofNat_toNat]

theorem isPending_full (x : Xid) : full.isPending x = true := by
  simp only [isPending, find?, full, List.find?_isSome]
  exact ⟨_, mem_requests x, beq_self_eq_true x⟩

end LastId

/-- The search goes on behind the last id, and the cursor too when it gives up there. -/
theorem allocates_first_free_of_last :
    LastId.wrapping.pendingCount < UInt32.size ∧
      LastId.wrapping.allocate = (⟨1⟩, { LastId.wrapping with cursor := ⟨2⟩ }) ∧
      (∀ x, LastId.full.isPending x = true) ∧
      LastId.full.allocate = (⟨4294967295⟩, { LastId.full with cursor := ⟨0⟩ }) := by
  have hfewer : LastId.wrapping.pendingCount < UInt32.size := by
    have htwo : LastId.wrapping.pendingCount = 2 := rfl
    rw [htwo, UInt32.size]
    omega
  obtain ⟨x, hx, he, -⟩ := (allocates_first_free LastId.wrapping).1 hfewer
  have hfull := (allocates_first_free LastId.full).2.1 LastId.isPending_full
  refine ⟨hfewer, ?_, LastId.isPending_full, hfull.1⟩
  have hone : LastId.wrapping.FirstFree ⟨1⟩ := by
    refine ⟨by decide, fun y hy => ?_⟩
    by_contra hnearer
    rw [← LastId.wrapping.cursor.forward_ahead y] at hy
    have hplace : LastId.wrapping.cursor.ahead y = 0 ∨ LastId.wrapping.cursor.ahead y = 1 := by
      have htwo : LastId.wrapping.cursor.ahead ⟨1⟩ = 2 := by decide
      omega
    rcases hplace with hplace | hplace
    · rw [hplace] at hy
      exact absurd hy (by decide)
    · rw [hplace] at hy
      exact absurd hy (by decide)
  rw [he, hx.unique hone]
  rfl

end TransactionRegistry

end Southbound
