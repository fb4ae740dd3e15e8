import Southbound.Proofs.Transaction.Calls

/-!
# Requests are settled once

What becomes of a request is decided by the calls that follow its registration,
and by nothing else.  `fate` reads it off them: the first call that settles the
request says how, and without such a call there is no result.

`result?_after` says that the registry agrees with that for every request, however
transaction ids are used again, and `settled_once` adds what holds of the registry
as a whole.
-/

namespace Southbound.TransactionRegistry

/-! ## What calls say of one request -/

/-- The result that a call gives to the request under a transaction id, if it
settles it.  A request can be withdrawn until it is dispatched. -/
def Call.verdict? (x : Xid) (dispatched : Bool) : Call → Option (Outcome Message)
  | .resolve y reply => if y = x then some (.ok reply) else none
  | .fail y cause => if y = x then some (.error cause) else none
  | .expire y => if y = x then some (.error (.timeout x)) else none
  | .cancel y => if y = x ∧ dispatched = false then some (.error .cancelled) else none
  | .failAll cause => some (.error cause)
  | _ => none

/-- Whether a call notes that the request under a transaction id is dispatched. -/
def Call.dispatches (x : Xid) : Call → Bool
  | .markDispatched y => y = x
  | _ => false

/-- What becomes of the request under a transaction id by the calls that follow:
the result that the first of them gives that settles it. -/
def fate (x : Xid) (dispatched : Bool) : List Call → Option (Outcome Message)
  | [] => none
  | c :: cs =>
    match c.verdict? x dispatched with
    | some result => some result
    | none => fate x (dispatched || c.dispatches x) cs

/-! ## Results stay -/

section Results

variable {r : TransactionRegistry} {s : Slot} {o : Outcome Message}

theorem Sound.nodup_settled (h : r.Sound) : (r.settled.map Prod.fst).Nodup :=
  (List.nodup_append.mp h.nodup_usedSlots).2.1

theorem Sound.result?_eq_some_iff (h : r.Sound) : r.result? s = some o ↔ (s, o) ∈ r.settled := by
  rw [result?]
  rw [List.lookup_eq_some_iff]
  constructor
  · rintro ⟨before, later, he, -⟩
    exact he ▸ List.mem_append_right _ (List.mem_cons_self ..)
  · intro hm
    obtain ⟨before, later, he⟩ := List.append_of_mem hm
    refine ⟨before, later, he, fun p hp => ?_⟩
    have hn := h.nodup_settled
    rw [he, List.map_append, List.nodup_append] at hn
    have := hn.2.2 p.1 (List.mem_map_of_mem hp) s (by simp)
    simpa using fun e : s = p.1 => this e.symm

/-- The slot of a request has no result. -/
theorem Sound.result?_of_pending (h : r.Sound) {p : Pending} (hp : p ∈ r.pending) :
    r.result? p.slot = none := by
  cases hr : r.result? p.slot with
  | none => rfl
  | some o =>
      have hm := List.mem_map_of_mem (f := Prod.fst) (h.result?_eq_some_iff.mp hr)
      exact absurd rfl ((List.nodup_append.mp h.nodup_usedSlots).2.2 _
        (List.mem_map_of_mem hp) _ hm)

/-- A slot that has a result was opened. -/
theorem Sound.slot_lt_of_result? (h : r.Sound) (hr : r.result? s = some o) : s < r.slots := by
  have hm := List.mem_map_of_mem (f := Prod.fst) (h.result?_eq_some_iff.mp hr)
  exact List.mem_range.mp (h.slots.mem_iff.mp (List.mem_append_right _ hm))

theorem settled_suffix_settle (r : TransactionRegistry) (x : Xid) (o : Outcome Message) :
    r.settled <:+ (r.settle x o).2.settled := by
  rw [settle]
  split
  · exact List.suffix_rfl
  · exact List.suffix_cons ..

/-- No call takes a result away. -/
theorem settled_suffix_perform (r : TransactionRegistry) (c : Call) :
    r.settled <:+ (r.perform c).2.settled := by
  cases c with
  | allocate =>
      obtain ⟨cursor, he⟩ := allocate_snd r
      have hsettled : r.allocate.2.settled = r.settled := by rw [he]
      exact hsettled ▸ List.suffix_rfl
  | register x deadline =>
      show r.settled <:+ (r.register x deadline).2.settled
      rw [register]
      split <;> exact List.suffix_rfl
  | resolve x reply => exact settled_suffix_settle ..
  | fail x cause => exact settled_suffix_settle ..
  | expire x => exact settled_suffix_settle ..
  | cancel x =>
      show r.settled <:+ (r.cancel x).2.settled
      rw [cancel]
      split
      · exact List.suffix_rfl
      · split
        · exact List.suffix_rfl
        · exact settled_suffix_settle ..
  | markDispatched x =>
      show r.settled <:+ (r.markDispatched x).2.settled
      rw [markDispatched]
      split <;> exact List.suffix_rfl
  | overdue now => exact List.suffix_rfl
  | failAll cause => exact List.suffix_append ..
  | drop slot => exact List.suffix_rfl

theorem Sound.result?_perform (h : r.Sound) (hr : r.result? s = some o) (c : Call) :
    (r.perform c).2.result? s = some o :=
  (h.perform c).result?_eq_some_iff.mpr
    ((settled_suffix_perform r c).subset (h.result?_eq_some_iff.mp hr))

/-- A result stays whatever is called. -/
theorem Sound.result?_after (h : r.Sound) (hr : r.result? s = some o) (cs : List Call) :
    (r.after cs).result? s = some o := by
  induction cs generalizing r with
  | nil => exact hr
  | cons c cs ih => exact ih (h.perform c) (h.result?_perform hr c)

end Results

/-! ## One call and one request -/

section OneCall

variable {r : TransactionRegistry} {x : Xid} {p : Pending}

theorem find?_settle_of_ne {y : Xid} (hy : y ≠ x) (o : Outcome Message) :
    (r.settle y o).2.find? x = r.find? x := by
  rw [settle]
  split
  · rfl
  · simp only [find?, List.find?_filter]
    congr 1
    funext q
    by_cases hq : q.xid = x
    · simp [hq, hy.symm]
    · simp [hq]

/-- The request under a transaction id is dispatched when that is noted under its
id. -/
theorem find?_markDispatched (h : r.find? x = some p) (y : Xid) :
    (r.markDispatched y).2.find? x =
      some { p with dispatched := p.dispatched || decide (y = x) } := by
  obtain ⟨-, rfl⟩ := mem_of_find? h
  rw [markDispatched]
  by_cases hp : r.isPending y
  · have hkey : ((fun q : Pending => decide (q.xid = p.xid)) ∘ fun q =>
        if q.xid = y then { q with dispatched := true } else q) =
          fun q => decide (q.xid = p.xid) := by
      funext q
      by_cases hq : q.xid = y <;> simp [hq]
    have hf : r.pending.find? (fun q => decide (q.xid = p.xid)) = some p := h
    rw [if_pos hp]
    simp only [find?, List.find?_map, hkey, hf, Option.map_some]
    by_cases hy : p.xid = y
    · simp [hy]
    · simp [hy, Ne.symm hy]
  · have hy : y ≠ p.xid := fun e => hp (by simp [isPending, e, h])
    simpa [hp, hy] using h

theorem settle_of_find? (h : r.find? x = some p) (o : Outcome Message) :
    (p.slot, o) ∈ (r.settle x o).2.settled := by
  rw [settle]
  rw [h]
  exact List.mem_cons_self ..

/-- A call that settles a request puts the result in its slot. -/
theorem mem_settled_of_verdict? (h : r.find? x = some p) {c : Call} {o : Outcome Message}
    (hv : c.verdict? x p.dispatched = some o) : (p.slot, o) ∈ (r.perform c).2.settled := by
  obtain ⟨hmem, rfl⟩ := mem_of_find? h
  cases c with
  | resolve y reply =>
      obtain ⟨rfl, rfl⟩ : y = p.xid ∧ .ok reply = o := by simpa [Call.verdict?] using hv
      exact settle_of_find? h _
  | fail y cause =>
      obtain ⟨rfl, rfl⟩ : y = p.xid ∧ .error cause = o := by simpa [Call.verdict?] using hv
      exact settle_of_find? h _
  | expire y =>
      obtain ⟨rfl, rfl⟩ : y = p.xid ∧ .error (.timeout p.xid) = o := by
        simpa [Call.verdict?] using hv
      exact settle_of_find? h _
  | cancel y =>
      obtain ⟨⟨rfl, hd⟩, rfl⟩ : (y = p.xid ∧ p.dispatched = false) ∧ .error .cancelled = o := by
        simpa [Call.verdict?] using hv
      simpa [perform, cancel, fail, h, hd] using settle_of_find? h (.error .cancelled)
  | failAll cause =>
      obtain rfl : .error cause = o := by simpa [Call.verdict?] using hv
      exact List.mem_append_left _ (List.mem_map.mpr ⟨p, hmem, rfl⟩)
  | allocate => cases hv
  | register y deadline => cases hv
  | markDispatched y => cases hv
  | overdue now => cases hv
  | drop slot => cases hv

/-- A call that does not settle a request leaves it as it was, but that it may note
that it is dispatched. -/
theorem find?_perform_of_verdict? (h : r.find? x = some p) {c : Call}
    (hv : c.verdict? x p.dispatched = none) :
    (r.perform c).2.find? x = some { p with dispatched := p.dispatched || c.dispatches x } := by
  have hself : some { p with dispatched := p.dispatched || false } = some p := by simp
  cases c with
  | allocate =>
      obtain ⟨cursor, he⟩ := allocate_snd r
      show r.allocate.2.find? x = _
      rw [he]
      exact h.trans hself.symm
  | register y deadline =>
      refine Eq.trans ?_ (h.trans hself.symm)
      show (r.register y deadline).2.find? x = r.find? x
      rw [register]
      split
      · rfl
      · next hy =>
          have hne : y ≠ x := fun e => hy (by simp [isPending, e, h])
          simp [find?, hne]
  | resolve y reply =>
      have hy : y ≠ x := by simpa [Call.verdict?] using hv
      exact (find?_settle_of_ne hy _).trans (h.trans hself.symm)
  | fail y cause =>
      have hy : y ≠ x := by simpa [Call.verdict?] using hv
      exact (find?_settle_of_ne hy _).trans (h.trans hself.symm)
  | expire y =>
      have hy : y ≠ x := by simpa [Call.verdict?] using hv
      exact (find?_settle_of_ne hy _).trans (h.trans hself.symm)
  | cancel y =>
      refine Eq.trans ?_ hself.symm
      show (r.cancel y).2.find? x = some p
      by_cases hy : y = x
      · subst hy
        have hd : p.dispatched = true := by simpa [Call.verdict?] using hv
        simp [cancel, h, hd]
      · rw [cancel]
        split
        · exact h
        · split
          · exact h
          · exact (find?_settle_of_ne hy _).trans h
  | markDispatched y =>
      show (r.markDispatched y).2.find? x = _
      exact find?_markDispatched h y
  | overdue now => exact h.trans hself.symm
  | failAll cause => cases hv
  | drop slot => exact h.trans hself.symm

end OneCall

/-! ## All calls and one request -/

section Requests

variable {r : TransactionRegistry} {x : Xid} {p : Pending}

/-- After some calls a request has the result that they come to.  Without one it
still waits under its transaction id. -/
theorem Sound.result?_after_of_find? (h : r.Sound) (hp : r.find? x = some p) (cs : List Call) :
    (r.after cs).result? p.slot = fate x p.dispatched cs ∧
      (fate x p.dispatched cs = none → ∃ q, (r.after cs).find? x = some q ∧ q.slot = p.slot) := by
  induction cs generalizing r p with
  | nil => exact ⟨h.result?_of_pending (mem_of_find? hp).1, fun _ => ⟨p, hp, rfl⟩⟩
  | cons c cs ih =>
      cases hv : c.verdict? x p.dispatched with
      | some o =>
          have hf : fate x p.dispatched (c :: cs) = some o := by simp [fate, hv]
          have ho : (r.perform c).2.result? p.slot = some o :=
            (h.perform c).result?_eq_some_iff.mpr (mem_settled_of_verdict? hp hv)
          rw [hf, after_cons]
          exact ⟨(h.perform c).result?_after ho cs, fun hn => by cases hn⟩
      | none =>
          have hf : fate x p.dispatched (c :: cs) = fate x (p.dispatched || c.dispatches x) cs := by
            simp [fate, hv]
          rw [hf, after_cons]
          exact ih (h.perform c) (find?_perform_of_verdict? hp hv)

/-- A request has no result exactly as long as it waits under its transaction id. -/
theorem Sound.result?_after_eq_none_iff (h : r.Sound) (hp : r.find? x = some p)
    (cs : List Call) :
    (r.after cs).result? p.slot = none ↔
      ∃ q, (r.after cs).find? x = some q ∧ q.slot = p.slot := by
  obtain ⟨hresult, hwaits⟩ := h.result?_after_of_find? hp cs
  constructor
  · intro hn
    exact hwaits (hresult.symm.trans hn)
  · rintro ⟨q, hq, hs⟩
    rw [← hs]
    exact (h.after cs).result?_of_pending (mem_of_find? hq).1

/-- A request that was registered waits under its transaction id. -/
theorem find?_register {deadline : Option Instant} {slot : Slot}
    (h : (r.register x deadline).1 = .ok slot) :
    (r.register x deadline).2.find? x = some ⟨x, slot, deadline, false⟩ := by
  cases hx : r.isPending x with
  | true => simp [register, hx] at h
  | false =>
      have hs : r.slots = slot := by simpa [register, hx] using h
      simp [register, hx, find?, hs]

end Requests

/-! ## The registry as a whole -/

/-- The slots that were opened are counted. -/
theorem slots_perform (r : TransactionRegistry) (c : Call) :
    (r.perform c).2.slots = r.slots + if (r.perform c).1.isSlot then 1 else 0 := by
  have hsettle (y : Xid) (o : Outcome Message) : (r.settle y o).2.slots = r.slots := by
    rw [settle]
    split <;> rfl
  cases c with
  | allocate =>
      obtain ⟨cursor, he⟩ := allocate_snd r
      show r.allocate.2.slots = r.slots
      rw [he]
  | register x deadline =>
      cases hx : r.isPending x <;> simp [perform, register, hx, Report.isSlot]
  | resolve x reply => exact hsettle x _
  | fail x cause => exact hsettle x _
  | expire x => exact hsettle x _
  | cancel x =>
      show (r.cancel x).2.slots = r.slots
      rw [cancel]
      split
      · rfl
      · split
        · rfl
        · exact hsettle x _
  | markDispatched x =>
      show (r.markDispatched x).2.slots = r.slots
      rw [markDispatched]
      split <;> rfl
  | overdue now => rfl
  | failAll cause => rfl
  | drop slot => rfl

theorem slots_after (r : TransactionRegistry) (cs : List Call) :
    (r.after cs).slots = r.slots + (r.reports cs).countP Report.isSlot := by
  induction cs generalizing r with
  | nil => rfl
  | cons c cs ih =>
      rw [after_cons, ih, slots_perform, reports, List.countP_cons]
      omega

/-- Every request is settled once at most.  It has no result exactly as long as it
waits under its transaction id, and the first call that settles it decides its
result.  A call that reports an error or that nothing was done changes nothing, and
of the requests that were registered none is lost. -/
theorem settled_once (d : DeviceId) (calls : List Call) :
    (((new d).after calls).settled.map Prod.fst).Nodup ∧
    (∀ before x deadline slot later, calls = before ++ .register x deadline :: later →
      (((new d).after before).register x deadline).1 = .ok slot →
      ((new d).after calls).result? slot = fate x false later ∧
      (((new d).after calls).result? slot = none ↔
        ∃ p, ((new d).after calls).find? x = some p ∧ p.slot = slot)) ∧
    (∀ c, (((new d).after calls).perform c).1.isRefusal = true →
      (((new d).after calls).perform c).2 = (new d).after calls) ∧
    ((new d).reports calls).countP Report.isSlot =
      ((new d).after calls).settled.length + ((new d).after calls).pendingCount := by
  have hsound := sound_after d calls
  refine ⟨hsound.nodup_settled, ?_, fun c => perform_of_isRefusal, ?_⟩
  · intro before x deadline slot later he hslot
    have hfind := find?_register hslot
    have hopen := (sound_after d before).register x deadline
    rw [he, after_append, after_cons]
    exact ⟨(hopen.result?_after_of_find? hfind later).1,
      hopen.result?_after_eq_none_iff hfind later⟩
  · have hcount := slots_after (new d) calls
    rw [hsound.slots_eq] at hcount
    simpa [new] using hcount.symm

/-- A transaction id is used again after its request timed out.  The late reply
settles the second request, and the first keeps its result. -/
theorem settled_once_of_reuse :
    let x : Xid := ⟨7⟩
    let first : Call := .register x (some 10)
    let calls := [first, .markDispatched x, .expire x, .register x none, .drop 0, .cancel x]
    ((new ⟨"openflow:1"⟩).after calls).result? 0 = some (.error (.timeout x)) ∧
      ((new ⟨"openflow:1"⟩).after calls).result? 1 = some (.error .cancelled) := by
  intro x first calls
  have h := settled_once ⟨"openflow:1"⟩ calls
  have hfirst := h.2.1 [] x (some 10) 0 _ rfl rfl
  have hsecond := h.2.1 [first, .markDispatched x, .expire x] x none 1 _ rfl rfl
  exact ⟨hfirst.1, hsecond.1⟩

end Southbound.TransactionRegistry
