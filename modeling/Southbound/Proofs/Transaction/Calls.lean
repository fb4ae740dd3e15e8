import Southbound.Transaction.Registry

/-!
# Calls of the registry

Everything that can be asked of a `TransactionRegistry` is a `Call`, and
`perform` says what is reported and what the registry is after it.  Whoever waits
for a result may give up (`Call.drop`).  The registry knows nothing of that.

A registry is `Sound` if its transaction ids are used once and its slots are those
that were opened, each in one place: with a request or with a result.  A new
registry is sound, every call keeps it so (`Sound.perform`), and so does every
sequence of calls (`sound_after`).
-/

namespace Southbound.TransactionRegistry

/-! ## Calls -/

/-- What can be asked of the registry. -/
inductive Call where
  | allocate
  | register (xid : Xid) (deadline : Option Instant)
  /-- Settle a request with the reply of the device. -/
  | resolve (xid : Xid) (reply : Message)
  /-- Settle a request with a failure. -/
  | fail (xid : Xid) (cause : Failure)
  /-- Settle a request that has waited long enough. -/
  | expire (xid : Xid)
  | cancel (xid : Xid)
  /-- Note that a request is handed to the wire. -/
  | markDispatched (xid : Xid)
  /-- The requests that have waited long enough. -/
  | overdue (now : Instant)
  | failAll (cause : Failure)
  /-- Wait no more for the result in a slot. -/
  | drop (slot : Slot)

/-- What a call reports. -/
inductive Report where
  | xid (value : Xid)
  | slot (result : Outcome Slot)
  | settled (result : Outcome Unit)
  | truth (value : Bool)
  | xids (values : List Xid)
  | count (value : Nat)
  | nothing

/-- Whether a report says that nothing was done. -/
def Report.isRefusal : Report → Bool
  | slot (.error _) => true
  | settled (.error _) => true
  | truth value => !value
  | _ => false

/-- Whether a report gives a slot. -/
def Report.isSlot : Report → Bool
  | slot (.ok _) => true
  | _ => false

/-- A registry without requests. -/
def new (d : DeviceId) : TransactionRegistry := { device := d }

/-- Carry out a call. -/
def perform (r : TransactionRegistry) : Call → Report × TransactionRegistry
  | .allocate => (.xid r.allocate.1, r.allocate.2)
  | .register x deadline => (.slot (r.register x deadline).1, (r.register x deadline).2)
  | .resolve x reply => (.settled (r.resolve x reply).1, (r.resolve x reply).2)
  | .fail x cause => (.settled (r.fail x cause).1, (r.fail x cause).2)
  | .expire x => (.settled (r.expire x).1, (r.expire x).2)
  | .cancel x => (.truth (r.cancel x).1, (r.cancel x).2)
  | .markDispatched x => (.truth (r.markDispatched x).1, (r.markDispatched x).2)
  | .overdue now => (.xids (r.overdue now), r)
  | .failAll cause => (.count (r.failAll cause).1, (r.failAll cause).2)
  | .drop _ => (.nothing, r)

/-- The registry after some calls. -/
def after (r : TransactionRegistry) (calls : List Call) : TransactionRegistry :=
  calls.foldl (fun r c => (r.perform c).2) r

/-- What some calls report, in order. -/
def reports (r : TransactionRegistry) : List Call → List Report
  | [] => []
  | c :: cs => (r.perform c).1 :: (r.perform c).2.reports cs

@[simp] theorem after_nil (r : TransactionRegistry) : r.after [] = r := rfl

@[simp] theorem after_cons (r : TransactionRegistry) (c : Call) (cs : List Call) :
    r.after (c :: cs) = (r.perform c).2.after cs := rfl

theorem after_append (r : TransactionRegistry) (cs cs' : List Call) :
    r.after (cs ++ cs') = (r.after cs).after cs' :=
  List.foldl_append

/-! ## Requests under their transaction ids -/

section Xids

variable {ps : List Pending} {p : Pending}

/-- Of requests with different transaction ids, all but one are those with other
ids. -/
theorem perm_cons_filter_xid (h : (ps.map Pending.xid).Nodup) (hp : p ∈ ps) :
    ps.Perm (p :: ps.filter (·.xid ≠ p.xid)) := by
  induction ps with
  | nil => cases hp
  | cons q qs ih =>
      rw [List.map_cons, List.nodup_cons] at h
      cases List.mem_cons.mp hp with
      | inl he =>
          subst he
          have hkeep : qs.filter (·.xid ≠ p.xid) = qs :=
            List.filter_eq_self.mpr fun o ho => by
              simpa using fun e : o.xid = p.xid => h.1 (e ▸ List.mem_map_of_mem ho)
          rw [List.filter_cons_of_neg (by simp), hkeep]
      | inr hm =>
          have hne : q.xid ≠ p.xid := fun e => h.1 (e ▸ List.mem_map_of_mem hm)
          rw [List.filter_cons_of_pos (by simpa using hne)]
          exact ((ih h.2 hm).cons q).trans (.swap ..)

end Xids

theorem mem_of_find? {r : TransactionRegistry} {x : Xid} {p : Pending} (h : r.find? x = some p) :
    p ∈ r.pending ∧ p.xid = x :=
  ⟨List.mem_of_find?_eq_some h, by simpa using List.find?_some h⟩

theorem isPending_eq_false {r : TransactionRegistry} {x : Xid} (h : r.isPending x = false) :
    x ∉ r.pending.map Pending.xid := by
  have hnone : r.pending.find? (·.xid = x) = none := by simpa [isPending, find?] using h
  intro hm
  obtain ⟨p, hp, hx⟩ := List.mem_map.mp hm
  exact List.find?_eq_none.mp hnone p hp (by simpa using hx)

/-! ## Soundness -/

/-- The slots of the requests, and those that have a result. -/
def usedSlots (r : TransactionRegistry) : List Slot :=
  r.pending.map Pending.slot ++ r.settled.map Prod.fst

/-- A registry in which nothing is there twice, and nothing is lost. -/
structure Sound (r : TransactionRegistry) : Prop where
  /-- Each transaction id is that of one request at most. -/
  xids : (r.pending.map Pending.xid).Nodup
  /-- Each slot that was opened is that of one request or of one result. -/
  slots : r.usedSlots.Perm (List.range r.slots)

namespace Sound

variable {r : TransactionRegistry}

theorem new (d : DeviceId) : (TransactionRegistry.new d).Sound := ⟨.nil, .refl _⟩

theorem nodup_usedSlots (h : r.Sound) : r.usedSlots.Nodup :=
  h.slots.nodup_iff.mpr List.nodup_range

/-- Every slot that was opened is that of a request or of a result. -/
theorem slots_eq (h : r.Sound) : r.slots = r.settled.length + r.pendingCount := by
  have := h.slots.length_eq
  simp only [usedSlots, List.length_append, List.length_map, List.length_range] at this
  rw [pendingCount, ← this, Nat.add_comm]

theorem register (h : r.Sound) (x : Xid) (deadline : Option Instant) :
    (r.register x deadline).2.Sound := by
  rw [TransactionRegistry.register]
  cases hx : r.isPending x with
  | true => exact h
  | false =>
      refine ⟨List.nodup_cons.mpr ⟨isPending_eq_false hx, h.xids⟩, ?_⟩
      have hs : (r.slots :: r.usedSlots).Perm (List.range r.slots ++ [r.slots]) :=
        (h.slots.cons r.slots).trans (List.perm_append_singleton r.slots _).symm
      simpa [usedSlots, List.range_succ] using hs

theorem settle (h : r.Sound) (x : Xid) (result : Outcome Message) :
    (r.settle x result).2.Sound := by
  rw [TransactionRegistry.settle]
  cases hx : r.find? x with
  | none => exact h
  | some p =>
      obtain ⟨hmem, rfl⟩ := mem_of_find? hx
      have hp := perm_cons_filter_xid h.xids hmem
      refine ⟨h.xids.sublist (List.filter_sublist.map _), ?_⟩
      have hs := (hp.map Pending.slot).append_right (r.settled.map Prod.fst)
      exact List.perm_middle.trans (hs.symm.trans h.slots)

theorem cancel (h : r.Sound) (x : Xid) : (r.cancel x).2.Sound := by
  rw [TransactionRegistry.cancel]
  split
  · exact h
  · split
    · exact h
    · exact h.settle x _

theorem markDispatched (h : r.Sound) (x : Xid) : (r.markDispatched x).2.Sound := by
  rw [TransactionRegistry.markDispatched]
  split
  · have hx (p : Pending) :
        (if p.xid = x then { p with dispatched := true } else p).xid = p.xid := by split <;> rfl
    have hs (p : Pending) :
        (if p.xid = x then { p with dispatched := true } else p).slot = p.slot := by split <;> rfl
    constructor
    · simpa [Function.comp_def, hx] using h.xids
    · simpa [usedSlots, Function.comp_def, hs] using h.slots
  · exact h

theorem failAll (h : r.Sound) (cause : Failure) : (r.failAll cause).2.Sound := by
  refine ⟨.nil, ?_⟩
  simpa [usedSlots, TransactionRegistry.failAll, Function.comp_def] using h.slots

end Sound

/-! ## What calls do -/

theorem allocateWithin_go_snd (r : TransactionRegistry) :
    ∀ (n : Nat) (x : Xid), ∃ cursor, (allocateWithin.go r n x).2 = { r with cursor }
  | 0, _ => ⟨_, rfl⟩
  | n + 1, x => by
      rw [allocateWithin.go]
      split
      · exact allocateWithin_go_snd r n x.next
      · exact ⟨_, rfl⟩

/-- A transaction id is allocated by moving the cursor, and nothing else. -/
theorem allocate_snd (r : TransactionRegistry) : ∃ cursor, r.allocate.2 = { r with cursor } :=
  allocateWithin_go_snd r UInt32.size r.cursor

theorem Sound.allocate {r : TransactionRegistry} (h : r.Sound) : r.allocate.2.Sound := by
  obtain ⟨cursor, he⟩ := allocate_snd r
  rw [he]
  exact ⟨h.xids, h.slots⟩

/-- Every call leaves the registry sound. -/
theorem Sound.perform {r : TransactionRegistry} (h : r.Sound) (c : Call) :
    (r.perform c).2.Sound := by
  cases c with
  | allocate => exact h.allocate
  | register x deadline => exact h.register x deadline
  | resolve x reply => exact h.settle x _
  | fail x cause => exact h.settle x _
  | expire x => exact h.settle x _
  | cancel x => exact h.cancel x
  | markDispatched x => exact h.markDispatched x
  | overdue now => exact h
  | failAll cause => exact h.failAll cause
  | drop slot => exact h

theorem Sound.after {r : TransactionRegistry} (h : r.Sound) (cs : List Call) :
    (r.after cs).Sound := by
  induction cs generalizing r with
  | nil => exact h
  | cons c cs ih => exact ih (h.perform c)

/-- A registry is sound after whatever calls. -/
theorem sound_after (d : DeviceId) (cs : List Call) : ((new d).after cs).Sound :=
  (Sound.new d).after cs

theorem settle_of_refused {r : TransactionRegistry} {x : Xid} {result : Outcome Message}
    {e : Failure} (h : (r.settle x result).1 = .error e) : (r.settle x result).2 = r := by
  rw [settle] at h ⊢
  cases hx : r.find? x with
  | none => rfl
  | some p => rw [hx] at h; cases h

/-- A call that reports an error or that nothing was done leaves the registry as
it was. -/
theorem perform_of_isRefusal {r : TransactionRegistry} {c : Call}
    (h : (r.perform c).1.isRefusal = true) : (r.perform c).2 = r := by
  have hsettle {x : Xid} {result : Outcome Message}
      (h : (Report.settled (r.settle x result).1).isRefusal = true) :
      (r.settle x result).2 = r := by
    cases hr : (r.settle x result).1 with
    | ok _ => rw [hr] at h; cases h
    | error e => exact settle_of_refused hr
  cases c with
  | allocate => cases h
  | register x deadline =>
      cases hx : r.isPending x with
      | true => simp [perform, register, hx]
      | false => simp [perform, register, hx, Report.isRefusal] at h
  | resolve x reply => exact hsettle h
  | fail x cause => exact hsettle h
  | expire x => exact hsettle h
  | cancel x =>
      have hno : (r.cancel x).1 = false := by simpa [perform, Report.isRefusal] using h
      show (r.cancel x).2 = r
      rw [cancel] at hno ⊢
      split at hno
      · rfl
      · split at hno
        · next hd => simp [hd]
        · cases hno
  | markDispatched x =>
      have hno : (r.markDispatched x).1 = false := by simpa [perform, Report.isRefusal] using h
      show (r.markDispatched x).2 = r
      rw [markDispatched] at hno ⊢
      split at hno
      · cases hno
      · next hx => simp [hx]
  | overdue now => rfl
  | failAll cause => cases h
  | drop slot => rfl

/-- A request that could not be withdrawn leaves the registry as it was. -/
theorem cancel_of_refused {r : TransactionRegistry} (reply : Reply)
    (h : (reply.cancel r).1 = false) : (reply.cancel r).2 = r := by
  cases reply with
  | awaited x slot =>
      have hrefused : (r.perform (.cancel x)).1.isRefusal = true := congrArg not h
      exact perform_of_isRefusal hrefused
  | failed x cause => rfl

end Southbound.TransactionRegistry
