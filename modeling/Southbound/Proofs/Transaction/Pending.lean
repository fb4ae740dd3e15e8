import Southbound.Proofs.Transaction.Calls

/-!
# Where requests come from

A request that waits was registered under its transaction id, by a call and not
otherwise, and until it is settled no call changes more of it than that it is
dispatched (`TransactionRegistry.mem_pending_after`).

So what is known of a request when it is registered, such as that it has a deadline,
is known of it as long as it waits.
-/

namespace Southbound

/-- A request and what has become of it while it waits. -/
structure Pending.Becomes (p q : Pending) : Prop where
  xid : q.xid = p.xid
  slot : q.slot = p.slot
  deadline : q.deadline = p.deadline
  /-- What was handed to the wire is not taken back. -/
  dispatched : p.dispatched = true → q.dispatched = true

theorem Pending.Becomes.refl (p : Pending) : p.Becomes p := ⟨rfl, rfl, rfl, id⟩

theorem Pending.Becomes.trans {p q o : Pending} (h : p.Becomes q) (h' : q.Becomes o) :
    p.Becomes o :=
  ⟨h'.xid.trans h.xid, h'.slot.trans h.slot, h'.deadline.trans h.deadline,
    h'.dispatched ∘ h.dispatched⟩

namespace TransactionRegistry

variable {r : TransactionRegistry} {x : Xid} {q : Pending}

/-- Whatever waits after a request was settled, waited before. -/
theorem mem_pending_settle {result : Outcome Message} (h : q ∈ (r.settle x result).2.pending) :
    q ∈ r.pending := by
  rw [settle] at h
  split at h
  · exact h
  · exact (List.mem_filter.mp h).1

/-- A request that is settled does not wait any more. -/
theorem xid_ne_of_mem_settle {result : Outcome Message} (h : q ∈ (r.settle x result).2.pending) :
    q.xid ≠ x := by
  rw [settle] at h
  split at h
  · next hnone =>
      rw [find?] at hnone
      simpa using List.find?_eq_none.mp hnone q h
  · simpa using (List.mem_filter.mp h).2

theorem mem_pending_cancel (h : q ∈ (r.cancel x).2.pending) : q ∈ r.pending := by
  rw [cancel] at h
  split at h
  · exact h
  · split at h
    · exact h
    · exact mem_pending_settle h

theorem mem_pending_markDispatched (h : q ∈ (r.markDispatched x).2.pending) :
    ∃ p ∈ r.pending, p.Becomes q := by
  rw [markDispatched] at h
  split at h
  · obtain ⟨p, hp, rfl⟩ := List.mem_map.mp h
    refine ⟨p, hp, ?_⟩
    split
    · exact ⟨rfl, rfl, rfl, fun _ => rfl⟩
    · exact .refl p
  · exact ⟨q, h, .refl q⟩

/-- After it was noted that a request is dispatched, it is. -/
theorem dispatched_of_mem_markDispatched (h : q ∈ (r.markDispatched x).2.pending)
    (hx : q.xid = x) : q.dispatched = true := by
  rw [markDispatched] at h
  split at h
  · obtain ⟨p, -, rfl⟩ := List.mem_map.mp h
    by_cases hp : p.xid = x
    · rw [if_pos hp]
    · rw [if_neg hp] at hx
      exact absurd hx hp
  · next hnone =>
      have hnot := isPending_eq_false (Bool.not_eq_true _ ▸ hnone)
      exact absurd (List.mem_map.mpr ⟨q, h, hx⟩) hnot

/-- Whatever waits after a call, waited before or was registered by it. -/
theorem mem_pending_perform {call : Call} (h : q ∈ (r.perform call).2.pending) :
    (∃ p ∈ r.pending, p.Becomes q) ∨ call = .register q.xid q.deadline := by
  have hold (h : q ∈ r.pending) :
      (∃ p ∈ r.pending, p.Becomes q) ∨ call = .register q.xid q.deadline :=
    .inl ⟨q, h, .refl q⟩
  cases call with
  | allocate =>
      obtain ⟨cursor, he⟩ := allocate_snd r
      rw [perform, he] at h
      exact hold h
  | register x deadline =>
      rw [perform, register] at h
      split at h
      · exact hold h
      · cases List.mem_cons.mp h with
        | inl hnew =>
            subst hnew
            exact .inr rfl
        | inr hmem => exact hold hmem
  | resolve x reply => exact hold (mem_pending_settle h)
  | fail x cause => exact hold (mem_pending_settle h)
  | expire x => exact hold (mem_pending_settle h)
  | cancel x => exact hold (mem_pending_cancel h)
  | markDispatched x => exact .inl (mem_pending_markDispatched h)
  | overdue now => exact hold h
  | failAll cause => cases h
  | drop slot => exact hold h

/-- Whatever waits after some calls, waited before or was registered by one of
them. -/
theorem mem_pending_after {calls : List Call} (h : q ∈ (r.after calls).pending) :
    (∃ p ∈ r.pending, p.Becomes q) ∨ .register q.xid q.deadline ∈ calls := by
  induction calls generalizing r with
  | nil => exact .inl ⟨q, h, .refl q⟩
  | cons call calls ih =>
      cases ih h with
      | inr hmem => exact .inr (.tail _ hmem)
      | inl hp =>
          obtain ⟨p, hp, hpq⟩ := hp
          cases mem_pending_perform hp with
          | inr hcall =>
              rw [hpq.xid, hpq.deadline, hcall]
              exact .inr (.head _)
          | inl hp₀ =>
              obtain ⟨p₀, hp₀, hbecomes⟩ := hp₀
              exact .inl ⟨p₀, hp₀, hbecomes.trans hpq⟩

/-- A sweep is a call for every request that has waited long enough. -/
theorem sweep_eq_after (r : TransactionRegistry) (now : Instant) :
    r.sweep now = r.after ((r.overdue now).map .expire) := by
  rw [sweep, after, List.foldl_map]
  rfl

end TransactionRegistry

end Southbound
