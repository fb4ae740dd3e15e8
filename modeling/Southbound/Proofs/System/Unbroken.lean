import Southbound.Proofs.System.Queue

/-!
# Unbroken runs

A job that looks something up and would then send a message does both without
waiting in between.  A run is `Unbroken` if no other job of the device goes on in
between either.

Jobs of other devices may go on at any time, and nothing else is asked of a run.  A
device has more than one job that can go on only after it was detached: runs in
which devices stay attached are unbroken (`System.unbroken_of_staysAttached`).
-/

namespace Southbound

/-! ## Lanes by their numbers -/

namespace Lanes

variable {ι : Type} {ls : Lanes ι} {d : DeviceId}

theorem length_enqueue_le (ls : Lanes ι) (d : DeviceId) (job : ι) :
    ls.all.length ≤ (ls.enqueue d job).all.length := by
  rw [enqueue]
  split <;> simp

@[simp] theorem length_removeDevice (ls : Lanes ι) (d : DeviceId) :
    (ls.removeDevice d).2.all.length = ls.all.length := List.length_map _

@[simp] theorem length_modify (ls : Lanes ι) (i : LaneId) (f : Lane ι → Lane ι) :
    (ls.modify i f).all.length = ls.all.length := List.length_modify ..

/-- Of elements with a property of which there is one at most, two are in one place. -/
theorem eq_of_length_filter_le {α : Type} {p : α → Bool} {as : List α}
    (h : (as.filter p).length ≤ 1) {i j : Nat} {a b : α} (hi : as[i]? = some a)
    (hj : as[j]? = some b) (ha : p a = true) (hb : p b = true) : i = j := by
  induction as generalizing i j with
  | nil => cases hi
  | cons c as ih =>
      have hin {k : Nat} {x : α} (hk : as[k]? = some x) (hx : p x = true) :
          0 < (as.filter p).length :=
        List.length_pos_of_mem (List.mem_filter.mpr ⟨List.mem_of_getElem? hk, hx⟩)
      rw [List.filter_cons] at h
      cases i with
      | zero =>
          cases hi
          rw [if_pos ha, List.length_cons] at h
          cases j with
          | zero => rfl
          | succ j =>
              have := hin hj hb
              omega
      | succ i =>
          cases j with
          | zero =>
              cases hj
              rw [if_pos hb, List.length_cons] at h
              have := hin hi ha
              omega
          | succ j =>
              refine congrArg (· + 1) (ih ?_ hi hj)
              refine Nat.le_trans ?_ h
              split
              · exact Nat.le_succ _
              · exact Nat.le_refl _

/-- A device that has one lane at most has no two. -/
theorem Single.lane_unique (h : ls.Single d) {i j : LaneId} {l l' : Lane ι}
    (hi : ls.get? i = some l) (hj : ls.get? j = some l') (hd : l.device = d)
    (hd' : l'.device = d) : i = j := by
  have hlength : (ls.ofDevice d).length ≤ 1 := by
    rcases h with he | ⟨l, he, -⟩
    · simp [he]
    · simp [he]
  exact eq_of_length_filter_le hlength hi hj (decide_eq_true hd) (decide_eq_true hd')

end Lanes

/-! ## Runs -/

namespace System

/-- Whether the job of a lane would send a message next. -/
def sendsNext (s : System) (l : LaneId) : Bool :=
  match (s.pipeline.lanes.get? l).bind Lane.running with
  | some ⟨_, .operate _ (.step (.send _) _)⟩ => true
  | _ => false

/-- The lanes whose jobs have gone on and would send next, when one more has gone
on. -/
def noteBusy (s : System) (busy : List LaneId) (l : LaneId) : List LaneId :=
  if s.sendsNext l then l :: busy else busy.filter (· ≠ l)

/-- The lanes whose jobs have gone on and would send next, after an event. -/
def busyAfter (s : System) (busy : List LaneId) (e : Event) : List LaneId :=
  match e.lane? with
  | some l => (s.after e).noteBusy busy l
  | none => busy

/-- The device of a lane. -/
def laneDevice? (s : System) (l : LaneId) : Option DeviceId :=
  (s.pipeline.lanes.get? l).map Lane.device

/-- A run in which no other job of a device goes on when one has gone on and would
send next. -/
def Unbroken (s : System) (busy : List LaneId) : List Event → Prop
  | [] => True
  | e :: es =>
    (∀ l ∈ e.lane?, ∀ l' ∈ busy, l' ≠ l → s.laneDevice? l' ≠ s.laneDevice? l) ∧
      Unbroken (s.after e) (s.busyAfter busy e) es

variable {s s' : System} {busy : List LaneId} {e : Event} {l : LaneId}

theorem laneDevice?_isSome : (s.laneDevice? l).isSome ↔ l < s.pipeline.lanes.all.length := by
  rw [laneDevice?, Option.isSome_map, Lanes.get?]
  simp

theorem laneDevice?_of_sendsNext (h : s.sendsNext l = true) : (s.laneDevice? l).isSome := by
  rw [sendsNext] at h
  cases hl : s.pipeline.lanes.get? l with
  | none =>
      rw [hl] at h
      cases h
  | some lane => rw [laneDevice?, hl, Option.map_some, Option.isSome_some]

/-- A job that has gone on and would send next is the one that has just gone on, or one
that did before. -/
theorem mem_busyAfter (h : l ∈ s.busyAfter busy e) :
    l ∈ busy ∨ e.lane? = some l ∧ (s.after e).sendsNext l = true := by
  rw [busyAfter] at h
  cases he : e.lane? with
  | none =>
      rw [he] at h
      exact .inl h
  | some l' =>
      simp only [he, noteBusy] at h
      split at h
      · next hsends =>
          cases h with
          | head => exact .inr ⟨rfl, hsends⟩
          | tail _ hold => exact .inl hold
      · exact .inl (List.mem_filter.mp h).1

/-- Lanes do not go away. -/
theorem length_lanes_after (hplain : s.Plain) (e : Event) :
    s.pipeline.lanes.all.length ≤ (s.after e).pipeline.lanes.all.length := by
  have hstep := (step_after hplain e).1
  generalize s.after e = s' at hstep ⊢
  have hmodify {i : LaneId} {f : Lane Job → Lane Job}
      (h : s'.pipeline.lanes = s.pipeline.lanes.modify i f) :
      s.pipeline.lanes.all.length ≤ s'.pipeline.lanes.all.length :=
    Nat.le_of_eq (by rw [h, Lanes.length_modify])
  cases hstep with
  | quiet _ hp _ _ _ => exact Nat.le_of_eq (by rw [hp])
  | opened => exact Nat.le_refl _
  | submitted hsubmit _ _ _ =>
      obtain ⟨c, -, -, -, hp⟩ := submit_ok hsubmit
      rw [hp]
      exact Lanes.length_enqueue_le ..
  | attached _ _ _ hp _ _ _ => exact Nat.le_of_eq (by rw [hp])
  | @detached _ d _ closed _ _ _ hp _ _ _ =>
      have hqueued := s.pipeline.lanes.length_enqueue_le d ⟨s.pipeline.tickets, .clear⟩
      rw [hp]
      exact Nat.le_trans hqueued (Nat.le_of_eq (Lanes.length_removeDevice ..).symm)
  | closed hp _ _ _ => exact Nat.le_of_eq (by rw [hp])
  | started l => exact hmodify rfl
  | @job l _ hjob =>
      cases hjob with
      | still => exact Nat.le_refl _
      | answer _ _ hperform =>
          exact hmodify ((perform_effects hperform).lanes_suspendJob l _)
      | _ => exact hmodify rfl

/-- Nothing breaks a run in which the job of one lane only goes on. -/
theorem unbroken_of_lane {es : List Event} (l : LaneId)
    (hes : ∀ e ∈ es, ∀ l' ∈ e.lane?, l' = l) (hbusy : ∀ l' ∈ busy, l' = l) :
    s.Unbroken busy es := by
  induction es generalizing s busy with
  | nil => trivial
  | cons e es ih =>
      refine ⟨fun l₁ hl₁ l₂ hl₂ hne => ?_, ih (fun e' he' => hes e' (.tail _ he')) fun l' hl' => ?_⟩
      · exact absurd ((hbusy l₂ hl₂).trans (hes e (.head _) l₁ hl₁).symm) hne
      · cases mem_busyAfter hl' with
        | inl hold => exact hbusy l' hold
        | inr hnew => exact hes e (.head _) l' hnew.1

/-- Nothing breaks a run in which devices stay attached. -/
theorem unbroken_of_staysAttached {es : List Event} (hplain : s.Plain)
    (hsingle : ∀ d, s.pipeline.lanes.Single d) (hbusy : ∀ l ∈ busy, (s.laneDevice? l).isSome)
    (hstays : ∀ d, s.StaysAttached d es) : s.Unbroken busy es := by
  induction es generalizing s busy with
  | nil => trivial
  | cons e es ih =>
      refine ⟨fun l _ l' hl' hne hsame => ?_,
        ih (step_after hplain e).2 ?_ ?_ fun d => (hstays d).2⟩
      · obtain ⟨d, hd'⟩ := Option.isSome_iff_exists.mp (hbusy l' hl')
        obtain ⟨lane', hlane', hdevice'⟩ := Option.map_eq_some_iff.mp hd'
        obtain ⟨lane, hlane, hdevice⟩ := Option.map_eq_some_iff.mp (hsame.symm.trans hd')
        exact hne ((hsingle d).lane_unique hlane' hlane hdevice' hdevice)
      · exact fun d => (queueStep_after hplain (hsingle d) e (hstays d).1).1
      · intro l hl
        cases mem_busyAfter hl with
        | inr hnew => exact laneDevice?_of_sendsNext hnew.2
        | inl hold =>
            have hlt := laneDevice?_isSome.mp (hbusy l hold)
            exact laneDevice?_isSome.mpr (Nat.lt_of_lt_of_le hlt (length_lanes_after hplain e))

end System

end Southbound
