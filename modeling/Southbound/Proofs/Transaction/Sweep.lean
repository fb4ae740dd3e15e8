import Southbound.Proofs.Transaction.Pending
import Southbound.Proofs.Transaction.Settlement

/-!
# Requests that have waited long enough

A sweep settles exactly the requests whose deadline is at or before its time, each as timed
out under its own transaction id, and leaves all others as they are
(`TransactionRegistry.Sound.swept`).  None of those that wait after it has waited long enough
(`TransactionRegistry.Sound.not_due_of_mem_sweep`).
-/

namespace Southbound

/-- Whether a request has waited long enough. -/
def Pending.isDue (p : Pending) (now : Instant) : Bool := p.deadline.any (· ≤ now)

namespace TransactionRegistry

variable {r : TransactionRegistry} {p : Pending} {now : Instant}

theorem mem_insertXid {x y : Xid} {xs : List Xid} : y ∈ insertXid x xs ↔ y = x ∨ y ∈ xs := by
  induction xs with
  | nil => simp [insertXid]
  | cons z zs ih =>
      rw [insertXid]
      split
      · rw [List.mem_cons]
      · rw [List.mem_cons, ih, List.mem_cons]
        exact or_left_comm

theorem mem_overdue {x : Xid} :
    x ∈ r.overdue now ↔ ∃ p ∈ r.pending, p.isDue now = true ∧ p.xid = x := by
  have hfold (xs : List Xid) : x ∈ xs.foldr insertXid [] ↔ x ∈ xs := by
    induction xs with
    | nil => rfl
    | cons y ys ih => rw [List.foldr_cons, mem_insertXid, List.mem_cons, ih]
  rw [overdue, hfold, List.mem_map]
  simp [Pending.isDue, and_assoc]

/-- A request is found under its transaction id. -/
theorem Sound.find?_of_mem (h : r.Sound) (hp : p ∈ r.pending) : r.find? p.xid = some p := by
  have hxids := h.xids
  rw [find?]
  generalize r.pending = ps at hp hxids ⊢
  induction ps with
  | nil => cases hp
  | cons q qs ih =>
      rw [List.map_cons, List.nodup_cons] at hxids
      cases List.mem_cons.mp hp with
      | inl he => rw [he, List.find?_cons_of_pos (by simp)]
      | inr hm =>
          have hne : q.xid ≠ p.xid := fun he => hxids.1 (he ▸ List.mem_map_of_mem hm)
          rw [List.find?_cons_of_neg (by simpa using hne)]
          exact ih hm hxids.2

/-- Among the requests that are listed for a sweep are no others under the same ids. -/
theorem Sound.mem_overdue_iff (h : r.Sound) (hp : p ∈ r.pending) :
    p.xid ∈ r.overdue now ↔ p.isDue now = true := by
  rw [mem_overdue]
  constructor
  · rintro ⟨q, hq, hdue, hx⟩
    have hsame := h.find?_of_mem hq
    rw [hx, h.find?_of_mem hp] at hsame
    rwa [Option.some.inj hsame]
  · exact fun hdue => ⟨p, hp, hdue, rfl⟩

theorem Sound.notMem_overdue (h : r.Sound) (hp : p ∈ r.pending) (hnot : p.isDue now = false) :
    p.xid ∉ r.overdue now := by
  rw [h.mem_overdue_iff hp, hnot]
  exact Bool.false_ne_true

/-- Of some requests that are settled as timed out, one is or is not. -/
theorem fate_map_expire (x : Xid) (dispatched : Bool) (xs : List Xid) :
    fate x dispatched (xs.map .expire) = if x ∈ xs then some (.error (.timeout x)) else none := by
  induction xs with
  | nil => rfl
  | cons y ys ih =>
      by_cases hy : y = x
      · simp [fate, Call.verdict?, hy]
      · simpa [fate, Call.verdict?, Call.dispatches, hy, Ne.symm hy] using ih

/-- A sweep gives a request that has waited long enough its result, and no other. -/
theorem Sound.result?_sweep (h : r.Sound) (hp : p ∈ r.pending) :
    (r.sweep now).result? p.slot =
      if p.isDue now then some (.error (.timeout p.xid)) else none := by
  rw [sweep_eq_after, (h.result?_after_of_find? (h.find?_of_mem hp) _).1, fate_map_expire]
  simp only [h.mem_overdue_iff hp]

/-- No request that waits after a sweep has waited long enough. -/
theorem Sound.not_due_of_mem_sweep (h : r.Sound) (hp : p ∈ (r.sweep now).pending) :
    p.isDue now = false := by
  have hsound : (r.sweep now).Sound := by
    rw [sweep_eq_after]
    exact h.after _
  have hnone := hsound.result?_of_pending hp
  rw [sweep_eq_after] at hp
  rcases mem_pending_after hp with ⟨q, hq, hbecomes⟩ | hcall
  · rw [hbecomes.slot, h.result?_sweep hq] at hnone
    cases hdue : q.isDue now with
    | true =>
        rw [hdue] at hnone
        cases hnone
    | false => rwa [Pending.isDue, hbecomes.deadline]
  · simp at hcall

/-! ## The registry as a whole -/

theorem pending_settle (r : TransactionRegistry) (x : Xid) (o : Outcome Message) :
    (r.settle x o).2.pending = r.pending.filter (·.xid ≠ x) := by
  rw [settle]
  cases hx : r.find? x with
  | some p => rfl
  | none =>
      symm
      apply List.filter_eq_self.mpr
      rw [find?, List.find?_eq_none] at hx
      simpa using hx

theorem pending_sweep (r : TransactionRegistry) (now : Instant) :
    (r.sweep now).pending = r.pending.filter (·.xid ∉ r.overdue now) := by
  have hfold (xs : List Xid) : (xs.foldl (fun r x => (r.expire x).2) r).pending =
      r.pending.filter (·.xid ∉ xs) := by
    induction xs generalizing r with
    | nil => simp [List.filter_eq_self.mpr]
    | cons x xs ih =>
        rw [List.foldl_cons, ih, expire, fail, pending_settle, List.filter_filter]
        apply List.filter_congr
        intro p _
        simp [Bool.and_comm]
  exact hfold (r.overdue now)

/-- Settling requests opens no slot and allocates no transaction id. -/
theorem counts_sweep (r : TransactionRegistry) (now : Instant) :
    (r.sweep now).slots = r.slots ∧ (r.sweep now).cursor = r.cursor := by
  have hsettle (r : TransactionRegistry) (x : Xid) (o : Outcome Message) :
      (r.settle x o).2.slots = r.slots ∧ (r.settle x o).2.cursor = r.cursor := by
    rw [settle]
    split <;> exact ⟨rfl, rfl⟩
  rw [sweep]
  induction r.overdue now generalizing r with
  | nil => exact ⟨rfl, rfl⟩
  | cons x xs ih =>
      obtain ⟨hslots, hcursor⟩ := ih (r.expire x).2
      obtain ⟨hslots', hcursor'⟩ := hsettle r x (.error (.timeout x))
      exact ⟨hslots.trans hslots', hcursor.trans hcursor'⟩

/-- What a sweep does to a registry. -/
structure Swept (r : TransactionRegistry) (now : Instant) (r' : TransactionRegistry) : Prop where
  /-- A request that has waited long enough is settled under its own transaction id. -/
  timedOut : ∀ p ∈ r.pending, p.isDue now = true →
    r'.result? p.slot = some (.error (.timeout p.xid))
  /-- The others wait as they did. -/
  waiting : r'.pending = r.pending.filter (!·.isDue now)
  /-- No other slot is given a result or another one. -/
  others : ∀ slot, (∀ p ∈ r.pending, p.slot = slot → p.isDue now = false) →
    r'.result? slot = r.result? slot
  cursor : r'.cursor = r.cursor
  /-- Nothing is left for another sweep. -/
  overdue : r'.overdue now = []

/-- A slot that was opened and has no result is that of a request. -/
theorem Sound.exists_pending (h : r.Sound) {slot : Slot} (hslot : slot < r.slots)
    (hnone : r.result? slot = none) : ∃ p ∈ r.pending, p.slot = slot := by
  have hused : slot ∈ r.usedSlots := h.slots.mem_iff.mpr (List.mem_range.mpr hslot)
  cases List.mem_append.mp hused with
  | inl hpending => exact List.mem_map.mp hpending
  | inr hsettled =>
      obtain ⟨⟨_, o⟩, ho, rfl⟩ := List.mem_map.mp hsettled
      cases hnone.symm.trans (h.result?_eq_some_iff.mpr ho)

/-- A sweep settles the requests that have waited long enough, and nothing else. -/
theorem Sound.swept (h : r.Sound) (now : Instant) : r.Swept now (r.sweep now) := by
  have hsound : (r.sweep now).Sound := by
    rw [sweep_eq_after]
    exact h.after _
  constructor
  · intro p hp hdue
    rw [h.result?_sweep hp, if_pos hdue]
  · rw [pending_sweep]
    apply List.filter_congr
    intro p hp
    cases hdue : p.isDue now with
    | true => simpa using (h.mem_overdue_iff hp).mpr hdue
    | false => simpa using h.notMem_overdue hp hdue
  · intro slot hnot
    cases hresult : r.result? slot with
    | some o =>
        rw [sweep_eq_after]
        exact h.result?_after hresult _
    | none =>
        by_cases hslot : slot < r.slots
        · obtain ⟨p, hp, rfl⟩ := h.exists_pending hslot hresult
          rw [h.result?_sweep hp, hnot p hp rfl]
          rfl
        · cases hafter : (r.sweep now).result? slot with
          | none => rfl
          | some o =>
              have hopened := hsound.slot_lt_of_result? hafter
              rw [(counts_sweep r now).1] at hopened
              exact absurd hopened hslot
  · exact (counts_sweep r now).2
  · apply List.eq_nil_iff_forall_not_mem.mpr
    intro x hx
    obtain ⟨p, hp, hdue, -⟩ := mem_overdue.mp hx
    rw [h.not_due_of_mem_sweep hp] at hdue
    cases hdue

end TransactionRegistry

end Southbound
