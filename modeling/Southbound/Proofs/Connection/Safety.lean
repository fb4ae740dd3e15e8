import Southbound.Pipeline.Basic
import Southbound.Proofs.Connection.Attended

/-!
# Settings that make sense can be run

The tasks of a connection ask for things that are not always there: a queue of its capacity,
a time between two sweeps, and moments to wait for, which have to lie where the clock can
tell them (`Tellable`).  An event that asks for a moment that cannot be told breaks the
connection (`Connection.Breaks`).

With settings that make sense a pipeline is made, a connection has time between its sweeps,
and nothing breaks it as long as the clock has some time left, whatever the times are that
replies are waited for.  A queue is made unless its capacity is too large, which is not
checked beforehand (`Connection.opened_and_unbroken_iff`).
-/

namespace Southbound

/-- A moment that a clock can tell: its seconds fit in 64 bits with a sign. -/
def Tellable (t : Instant) : Prop := t / 1000 < Nat.pow 2 63

theorem Tellable.of_le {t t' : Instant} (h : Tellable t') (hle : t ≤ t') : Tellable t :=
  Nat.lt_of_le_of_lt (Nat.div_le_div_right hle) h

namespace Connection

/-! ## Breaks -/

/-- An event needs a moment that cannot be told: the deadline of a message that is sent, or
the time of the sweep after this one. -/
inductive Breaks (c : Connection) : Event → Prop where
  | deadline {now : Instant} {x : Option Xid} {m : Message} :
    c.connected = true → ¬Tellable (c.deadline now m) → c.Breaks (.send now x m)
  | nextSweep {now : Instant} :
    c.sweeper ≠ .stopped → ¬Tellable (now + c.sweepInterval) → c.Breaks (.sweep now)

/-- No event of a run breaks the connection. -/
def Unbroken (c : Connection) : List Event → Prop
  | [] => True
  | e :: es => ¬c.Breaks e ∧ (c.after e).Unbroken es

/-- An event after which the clock can go on for any time that fits in 64 bits. -/
def Event.Early : Event → Prop
  | .send now _ _ | .sweep now => Tellable (now + UInt64.size)
  | _ => True

section Runs

variable {c : Connection}

theorem deadline_le (c : Connection) (now : Instant) (m : Message) :
    c.deadline now m ≤ now + UInt64.size := by
  have hbarrier := c.deadlines.barrier.toNat_lt_size
  have hrequest := c.deadlines.request.toNat_lt_size
  rw [deadline.eq_def]
  split
  · exact Nat.add_le_add_left (Nat.le_of_lt hbarrier) now
  · exact Nat.add_le_add_left (Nat.le_of_lt hrequest) now

theorem not_breaks_of_early {e : Event} (h : e.Early) : ¬c.Breaks e := by
  rintro (⟨-, hdeadline⟩ | ⟨-, hsweep⟩)
  · exact hdeadline (Tellable.of_le h (c.deadline_le _ _))
  · have hinterval := c.deadlines.sweep.toNat_lt_size
    exact hsweep (Tellable.of_le h (Nat.add_le_add_left (Nat.le_of_lt hinterval) _))

theorem unbroken_of_early {es : List Event} (h : ∀ e ∈ es, e.Early) : c.Unbroken es := by
  induction es generalizing c with
  | nil => trivial
  | cons e es ih =>
    rw [List.forall_mem_cons] at h
    exact ⟨not_breaks_of_early h.1, ih h.2⟩

/-- The time between two sweeps stays what it was set to. -/
theorem sweepInterval_go (c : Connection) (es : List Event) :
    (c.go es).sweepInterval = c.sweepInterval := by
  rw [sweepInterval, (same_go c es).deadlines]
  rfl

end Runs

/-! ## Opening -/

section Opening

variable {config : Config}

theorem capacity_pos (h : config.validate = .ok ()) : 0 < config.device.capacity.toNat := by
  refine Nat.pos_of_ne_zero fun hzero => ?_
  have hcapacity : config.device.capacity = 0 := UInt64.toNat_inj.mp hzero
  simp only [Config.validate, hcapacity, if_true] at h
  split at h
  · cases h
  · split at h
    · cases h
    · split at h <;> cases h

theorem exists_open_iff (hvalid : config.validate = .ok ()) {device : DeviceId} {codec : Codec}
    {wireCapacity : Nat} (hwire : isCapacity wireCapacity = true) {start : Instant} :
    (∃ c, open? device codec wireCapacity config start = some c) ↔
      config.device.capacity.toNat < Nat.pow 2 61 := by
  have hpos := capacity_pos hvalid
  have hcapacity : isCapacity config.device.capacity.toNat = true ↔
      config.device.capacity.toNat < Nat.pow 2 61 := by
    have hmax : maxCapacity + 1 = Nat.pow 2 61 := by decide
    rw [isCapacity, Bool.and_eq_true, decide_eq_true_iff, decide_eq_true_iff]
    omega
  rw [← hcapacity, open?, hwire, Bool.and_true]
  split
  next h => exact iff_of_true ⟨_, rfl⟩ h
  next h => exact iff_of_false (by simp) h

/-- With settings that make sense a pipeline is made.  A connection is opened if its queue is
not for too many messages, and then it has time between its sweeps in every run, and nothing
breaks it while the clock has time left. -/
theorem opened_and_unbroken_iff (hvalid : config.validate = .ok ()) :
    (∃ p, Pipeline.new config = .ok p) ∧
    ∀ device codec wireCapacity start, isCapacity wireCapacity = true →
      ((∃ c, open? device codec wireCapacity config start = some c) ↔
        config.device.capacity.toNat < Nat.pow 2 61) ∧
      ∀ c, open? device codec wireCapacity config start = some c →
        ∀ es : List Event, 0 < (c.go es).sweepInterval ∧
          ((∀ e ∈ es, e.Early) → c.Unbroken es) := by
  refine ⟨⟨_, by rw [Pipeline.new, hvalid]⟩, fun device codec wireCapacity start hwire => ?_⟩
  refine ⟨exists_open_iff hvalid hwire, fun c hopen es => ⟨?_, unbroken_of_early⟩⟩
  rw [sweepInterval_go, (sweepInterval_open hopen).1]
  exact sweep_pos hvalid

end Opening

/-- Settings with the longest times there are, which make sense. -/
def slowest : Config where
  deadlines := ⟨UInt64.ofNat (UInt64.size - 1), UInt64.ofNat (UInt64.size - 1),
    UInt64.ofNat (UInt64.size - 1)⟩

theorem opened_and_unbroken_iff_of_slowest :
    slowest.validate = .ok () ∧
      ∃ c, open? ⟨"openflow:1"⟩ .json 64 slowest 0 = some c ∧
        c.Unbroken [.send 5 none .barrierRequest, .writer true, .sweep 0] := by
  have hvalid : slowest.validate = .ok () := rfl
  obtain ⟨-, hopened⟩ := opened_and_unbroken_iff hvalid
  obtain ⟨hopen, hunbroken⟩ := hopened ⟨"openflow:1"⟩ .json 64 0 (by decide)
  obtain ⟨c, hc⟩ := hopen.mpr (by decide)
  refine ⟨hvalid, c, hc, (hunbroken c hc _).2 ?_⟩
  rintro e (_ | ⟨_, _ | ⟨_, _ | ⟨_, ⟨⟩⟩⟩⟩)
  · exact (by decide : (5 + UInt64.size) / 1000 < Nat.pow 2 63)
  · trivial
  · exact (by decide : (0 + UInt64.size) / 1000 < Nat.pow 2 63)

/-- A pipeline is made with a queue for more messages than there can be, and no connection
is opened. -/
theorem not_opened_of_wide :
    let config : Config := { device := { capacity := UInt64.ofNat (Nat.pow 2 61) } }
    config.validate = .ok () ∧ (∃ p, Pipeline.new config = .ok p) ∧
      open? ⟨"openflow:1"⟩ .json 64 config 0 = none :=
  ⟨rfl, ⟨_, rfl⟩, rfl⟩

end Connection

end Southbound
