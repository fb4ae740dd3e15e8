import Mathlib.Data.List.Infix
import Southbound.Proofs.Transaction.Allocation
import Southbound.Proofs.Transaction.Pending
import Southbound.Proofs.Transaction.Settlement

/-!
# Laps of the cursor

Only an allocation moves the cursor: past the ids that it skips, and past the one that it finds
(`TransactionRegistry.stride`).  So some calls move the cursor by the sum of what their allocations
do (`TransactionRegistry.travel`), whatever else is called in between, and the ids that they
allocate are at different places as long as the cursor has not gone round all ids.

The ids that are skipped are those of requests that wait.  With few requests the strides are short,
and many ids are allocated before one comes again (`TransactionRegistry.travel_le`).  Within that
span a reply that comes too late cannot meet a request under a later id
(`TransactionRegistry.no_id_twice_in_a_lap`).
-/

namespace Southbound

/-! ## Places of transaction ids -/

@[simp] theorem Xid.ahead_self (x : Xid) : x.ahead x = 0 := by
  rw [ahead, UInt32.sub_self]
  rfl

theorem Xid.next_forward (x : Xid) (n : Nat) : (x.forward n).next = x.forward (n + 1) := by
  rw [forward, forward, next, UInt32.ofNat_add, ← UInt32.add_assoc]
  rfl

theorem Xid.forward_forward (x : Xid) (m n : Nat) : (x.forward m).forward n = x.forward (m + n) := by
  rw [forward, forward, forward, UInt32.ofNat_add, UInt32.add_assoc]

namespace TransactionRegistry

variable {r : TransactionRegistry} {x y : Xid} {calls : List Call} {most : Nat}

/-! ## Moves of the cursor -/

/-- How many places a call moves the cursor. -/
def stride (r : TransactionRegistry) : Call → Nat
  | .allocate => r.cursor.ahead r.allocate.1 + 1
  | _ => 0

/-- How many places some calls move the cursor. -/
def travel (r : TransactionRegistry) : List Call → Nat
  | [] => 0
  | c :: cs => r.stride c + (r.perform c).2.travel cs

theorem travel_append (r : TransactionRegistry) (cs cs' : List Call) :
    r.travel (cs ++ cs') = r.travel cs + (r.after cs).travel cs' := by
  induction cs generalizing r with
  | nil => exact (Nat.zero_add _).symm
  | cons c cs ih => rw [List.cons_append, travel, travel, ih, after_cons, Nat.add_assoc]

/-- An allocation finds the first free id or gives up at the cursor, and leaves the cursor behind
the id. -/
theorem allocate_cases (r : TransactionRegistry) :
    (r.FirstFree r.allocate.1 ∨ r.allocate.1 = r.cursor) ∧
      r.allocate.2 = { r with cursor := r.allocate.1.next } := by
  rw [allocate]
  rcases r.allocateWithin_cases UInt32.size with ⟨x, hfirst, -, he⟩ | ⟨-, he⟩
  · rw [he]
    exact ⟨.inl hfirst, rfl⟩
  · rw [he]
    exact ⟨.inr rfl, rfl⟩

theorem cursor_allocate (r : TransactionRegistry) : r.allocate.2.cursor = r.allocate.1.next :=
  congrArg TransactionRegistry.cursor r.allocate_cases.2

theorem pending_allocate (r : TransactionRegistry) : r.allocate.2.pending = r.pending := by
  rw [r.allocate_cases.2]

/-- A call moves the cursor forward by its stride. -/
theorem cursor_perform (r : TransactionRegistry) (c : Call) :
    (r.perform c).2.cursor = r.cursor.forward (r.stride c) := by
  have hstay : r.cursor = r.cursor.forward 0 := (Xid.forward_zero _).symm
  have hsettle (x : Xid) (result : Outcome Message) :
      (r.settle x result).2.cursor = r.cursor.forward 0 := by
    rw [settle]
    split <;> exact hstay
  cases c with
  | allocate =>
      show r.allocate.2.cursor = r.cursor.forward (r.cursor.ahead r.allocate.1 + 1)
      rw [cursor_allocate, ← Xid.next_forward, Xid.forward_ahead]
  | register x deadline =>
      rw [perform, register]
      split <;> exact hstay
  | resolve x reply => exact hsettle x _
  | fail x cause => exact hsettle x _
  | expire x => exact hsettle x _
  | cancel x =>
      rw [perform, cancel]
      split
      · exact hstay
      · split
        · exact hstay
        · exact hsettle x _
  | markDispatched x =>
      rw [perform, markDispatched]
      split <;> exact hstay
  | overdue now => exact hstay
  | failAll cause => exact hstay
  | drop slot => exact hstay

theorem cursor_after (r : TransactionRegistry) (calls : List Call) :
    (r.after calls).cursor = r.cursor.forward (r.travel calls) := by
  induction calls generalizing r with
  | nil => exact (Xid.forward_zero _).symm
  | cons c cs ih => rw [after_cons, ih, cursor_perform, Xid.forward_forward, travel]

/-- The ids that a call skips are those of requests that wait. -/
theorem stride_le (r : TransactionRegistry) (c : Call) : r.stride c ≤ r.pendingCount + 1 := by
  cases c with
  | allocate =>
      refine Nat.succ_le_succ ?_
      cases r.allocate_cases.1 with
      | inl hfirst =>
          exact le_pendingCount r.cursor (Nat.le_of_lt (Xid.ahead_lt ..)) fun i hi => hfirst.taken hi
      | inr hnone =>
          rw [hnone, Xid.ahead_self]
          exact Nat.zero_le _
  | _ => exact Nat.zero_le _

/-! ## Ids that are issued -/

def Report.xid? : Report → Option Xid
  | .xid x => some x
  | _ => none

/-- The ids that some calls allocate, in order. -/
def issued (r : TransactionRegistry) (calls : List Call) : List Xid :=
  (r.reports calls).filterMap Report.xid?

@[simp] theorem issued_allocate (r : TransactionRegistry) (cs : List Call) :
    r.issued (.allocate :: cs) = r.allocate.1 :: r.allocate.2.issued cs := rfl

/-- Calls that are no allocations issue nothing and leave the cursor where it is. -/
theorem allocate_or_stays (r : TransactionRegistry) (c : Call) :
    c = .allocate ∨ r.stride c = 0 ∧ ∀ cs, r.issued (c :: cs) = (r.perform c).2.issued cs := by
  cases c with
  | allocate => exact .inl rfl
  | _ => exact .inr ⟨rfl, fun _ => rfl⟩

/-- The ids that are issued are among those that the cursor moves past. -/
theorem exists_place (hy : y ∈ r.issued calls) :
    ∃ k < r.travel calls, y = r.cursor.forward k := by
  induction calls generalizing r with
  | nil => cases hy
  | cons c cs ih =>
      have hlater (hy : y ∈ (r.perform c).2.issued cs) :
          ∃ k < r.travel (c :: cs), y = r.cursor.forward k := by
        obtain ⟨k, hk, he⟩ := ih hy
        rw [cursor_perform, Xid.forward_forward] at he
        exact ⟨r.stride c + k, Nat.add_lt_add_left hk _, he⟩
      rcases r.allocate_or_stays c with rfl | ⟨-, hissued⟩
      · cases List.mem_cons.mp hy with
        | inl hfirst =>
            refine ⟨r.cursor.ahead r.allocate.1, ?_, ?_⟩
            · exact Nat.lt_of_lt_of_le (Nat.lt_succ_self _) (Nat.le_add_right _ _)
            · rw [Xid.forward_ahead, hfirst]
        | inr hmem => exact hlater hmem
      · rw [hissued] at hy
        exact hlater hy

/-- Before the cursor has gone round, no id is issued twice. -/
theorem nodup_issued (h : r.travel calls ≤ UInt32.size) : (r.issued calls).Nodup := by
  induction calls generalizing r with
  | nil => exact .nil
  | cons c cs ih =>
      rw [travel] at h
      have hrest := ih (Nat.le_trans (Nat.le_add_left _ _) h)
      rcases r.allocate_or_stays c with rfl | ⟨-, hissued⟩
      · refine List.nodup_cons.mpr ⟨fun hmem => ?_, hrest⟩
        obtain ⟨k, hk, he⟩ := exists_place hmem
        have hplace : r.cursor.forward (r.cursor.ahead r.allocate.1) =
            r.cursor.forward (r.stride .allocate + k) := by
          rw [Xid.forward_ahead, ← Xid.forward_forward, ← cursor_perform]
          exact he
        have hsame := r.cursor.forward_inj (Xid.ahead_lt ..) (by omega) hplace
        rw [stride] at hsame
        omega
      · rw [hissued]
        exact hrest

/-- Between two allocations of one id the cursor goes round all ids. -/
theorem size_le_travel {between : List Call}
    (h : (r.allocate.2.after between).allocate.1 = r.allocate.1) :
    UInt32.size ≤ r.allocate.2.travel (between ++ [.allocate]) := by
  have hback : r.allocate.2.cursor.forward (r.allocate.2.travel (between ++ [.allocate])) =
      r.allocate.2.cursor.forward 0 := by
    rw [← cursor_after, after_append, Xid.forward_zero, cursor_allocate r, ← h]
    exact cursor_allocate _
  have hmoves : 0 < r.allocate.2.travel (between ++ [.allocate]) := by
    rw [travel_append]
    exact Nat.lt_of_lt_of_le (Nat.succ_pos _) (Nat.le_add_left _ _)
  by_contra hshort
  have hzero := Xid.forward_inj _ (Nat.lt_of_not_le hshort) (by decide) hback
  omega

/-! ## Few requests -/

/-- At most so many requests wait before, between and after some calls. -/
def AtMost (r : TransactionRegistry) (most : Nat) (calls : List Call) : Prop :=
  ∀ before, before <+: calls → (r.after before).pendingCount ≤ most

theorem AtMost.head (h : r.AtMost most calls) : r.pendingCount ≤ most :=
  h [] (List.nil_prefix ..)

theorem AtMost.tail {c : Call} {cs : List Call} (h : r.AtMost most (c :: cs)) :
    (r.perform c).2.AtMost most cs := by
  intro before hbefore
  exact h (c :: before) ((List.prefix_cons_inj c).mpr hbefore)

/-- The cursor moves by one more than there are requests for each id that is issued, at most. -/
theorem travel_le (h : r.AtMost most calls) :
    r.travel calls ≤ (r.issued calls).length * (most + 1) := by
  induction calls generalizing r with
  | nil => exact Nat.zero_le _
  | cons c cs ih =>
      have hrest := ih h.tail
      rcases r.allocate_or_stays c with rfl | ⟨hstays, hissued⟩
      · have hfirst : r.stride .allocate ≤ most + 1 :=
          Nat.le_trans (r.stride_le .allocate) (Nat.succ_le_succ h.head)
        rw [travel, issued_allocate, List.length_cons, Nat.succ_mul, Nat.add_comm]
        exact Nat.add_le_add hrest hfirst
      · rw [travel, hstays, hissued, Nat.zero_add]
        exact hrest

/-- Nothing waits under an id whose request has expired, unless a request is registered under it
again. -/
theorem find?_eq_none_of_expire {before after : List Call}
    (hagain : ∀ deadline, .register x deadline ∉ after) :
    (r.after (before ++ .expire x :: after)).find? x = none := by
  refine List.find?_eq_none.mpr fun p hp hx => ?_
  have hx : p.xid = x := of_decide_eq_true hx
  rw [after_append, after_cons] at hp
  cases mem_pending_after hp with
  | inl hbefore =>
      obtain ⟨q, hq, hbecomes⟩ := hbefore
      exact xid_ne_of_mem_settle hq (hbecomes.xid.symm.trans hx)
  | inr hregister =>
      rw [hx] at hregister
      exact hagain _ hregister

/-- The cursor only goes forward, and between two allocations of one id it goes round all ids.  So
with few requests the ids that many allocations in a row find are different, whatever else is called
in between.  A reply under the first of them does then not touch the requests under the others, and
if the request of the first has expired, and requests are registered under the others only, then the
reply is refused and changes nothing. -/
theorem no_id_twice_in_a_lap (r : TransactionRegistry) :
    (∀ calls, (r.after calls).cursor = r.cursor.forward (r.travel calls)) ∧
    (∀ between, (r.allocate.2.after between).allocate.1 = r.allocate.1 →
      UInt32.size ≤ r.allocate.2.travel (between ++ [.allocate])) ∧
    ∀ calls most, r.AtMost most calls → (r.issued calls).length * (most + 1) < UInt32.size →
      (r.issued calls).Nodup ∧
      ∀ later, calls = .allocate :: later → ∀ reply,
        (∀ y ∈ r.allocate.2.issued later,
          ((r.after calls).resolve r.allocate.1 reply).2.find? y = (r.after calls).find? y) ∧
        ∀ before after, later = before ++ .expire r.allocate.1 :: after →
          (∀ y deadline, .register y deadline ∈ after → y ∈ r.allocate.2.issued later) →
          (r.after calls).resolve r.allocate.1 reply =
            (.error (.unknownTransaction r.allocate.1), r.after calls) := by
  refine ⟨r.cursor_after, fun between => size_le_travel, fun calls most hmost hfew => ?_⟩
  have hnodup : (r.issued calls).Nodup :=
    nodup_issued (Nat.le_trans (travel_le hmost) (Nat.le_of_lt hfew))
  refine ⟨hnodup, fun later he reply => ?_⟩
  subst he
  have hnew : r.allocate.1 ∉ r.allocate.2.issued later := (List.nodup_cons.mp hnodup).1
  constructor
  · intro y hy
    have hne : r.allocate.1 ≠ y := fun hsame => hnew (hsame ▸ hy)
    exact find?_settle_of_ne hne _
  · intro before after hlater hregister
    have hnone : (r.after (.allocate :: later)).find? r.allocate.1 = none := by
      rw [after_cons, hlater]
      exact find?_eq_none_of_expire fun deadline hmem => hnew (hregister _ deadline hmem)
    rw [resolve, settle, hnone]

/-! ## Around the last id -/

namespace LastId

/-- All ids are taken but the first. -/
def oneFree : TransactionRegistry where
  device := ⟨"openflow:1"⟩
  cursor := ⟨0⟩
  pending := requests.filter fun p => p.xid ≠ ⟨0⟩
  slots := UInt32.size

theorem isPending_oneFree {x : Xid} (h : x ≠ ⟨0⟩) : oneFree.isPending x = true := by
  simp only [isPending, find?, oneFree, List.find?_isSome]
  exact ⟨_, List.mem_filter.mpr ⟨mem_requests x, decide_eq_true h⟩, decide_eq_true rfl⟩

theorem length_requests : requests.length = UInt32.size := by
  rw [requests, List.length_map, List.length_range]

theorem pendingCount_oneFree : oneFree.pendingCount < UInt32.size := by
  simp only [pendingCount, oneFree]
  have hfewer : (requests.filter fun p => p.xid ≠ ⟨0⟩).length < requests.length := by
    apply List.length_filter_lt_length_iff_exists.mpr
    exact ⟨_, mem_requests ⟨0⟩, by simp⟩
  exact Nat.lt_of_lt_of_eq hfewer length_requests

/-- Whatever the cursor, the one id that is free is found. -/
theorem allocate_oneFree (h : r.pending = oneFree.pending) : r.allocate.1 = ⟨0⟩ := by
  have hfewer : r.pending.length < UInt32.size := by
    rw [h]
    exact pendingCount_oneFree
  have hfree := isPending_allocate hfewer
  by_contra hother
  have htaken := isPending_oneFree hother
  rw [isPending, find?, ← h] at htaken
  exact Bool.false_ne_true (hfree.symm.trans htaken)

/-- The request under an id is sent, and two more ids are issued before it expires and after. -/
def early : List Call :=
  [.register ⟨1⟩ (some 5), .markDispatched ⟨1⟩, .allocate, .register ⟨2⟩ none]

def late : List Call := [.allocate, .register ⟨3⟩ none]

theorem atMost_wrapping :
    wrapping.AtMost 4 (.allocate :: (early ++ .expire ⟨1⟩ :: late)) := by
  intro before hbefore
  have hall : ∀ before ∈ (.allocate :: (early ++ .expire ⟨1⟩ :: late)).inits,
      (wrapping.after before).pendingCount ≤ 4 := by decide
  exact hall before ((List.mem_inits ..).mpr hbefore)

end LastId

/-- With one free id the cursor goes round for each allocation.  With few requests the ids after the
last one are different, and a late reply under one that expired is refused. -/
theorem no_id_twice_around_the_last :
    UInt32.size ≤ LastId.oneFree.allocate.2.travel [.allocate] ∧
      (LastId.wrapping.issued
        (.allocate :: (LastId.early ++ .expire ⟨1⟩ :: LastId.late))).Nodup ∧
      (LastId.wrapping.after
          (.allocate :: (LastId.early ++ .expire ⟨1⟩ :: LastId.late))).resolve ⟨1⟩ .ack =
        (.error (.unknownTransaction ⟨1⟩), LastId.wrapping.after
          (.allocate :: (LastId.early ++ .expire ⟨1⟩ :: LastId.late))) := by
  have hround := (no_id_twice_in_a_lap LastId.oneFree).2.1 []
  have hlap := (no_id_twice_in_a_lap LastId.wrapping).2.2 _ 4 LastId.atMost_wrapping (by decide)
  refine ⟨hround ?_, hlap.1, ?_⟩
  · have hfirst : LastId.oneFree.allocate.1 = ⟨0⟩ := LastId.allocate_oneFree rfl
    have hsecond : LastId.oneFree.allocate.2.allocate.1 = ⟨0⟩ :=
      LastId.allocate_oneFree (pending_allocate LastId.oneFree)
    rw [after_nil, hfirst, hsecond]
  · have hlate := (hlap.2 _ rfl .ack).2 LastId.early LastId.late rfl
    refine hlate fun y deadline hmem => ?_
    have hthird : y = ⟨3⟩ ∧ deadline = none := by simpa [LastId.late] using hmem
    rw [hthird.1]
    decide

end TransactionRegistry

end Southbound
