import Southbound.Proofs.Connection.Run
import Southbound.Proofs.Transaction.Pending

/-!
# The requests of a connection

Whatever happens to a connection, its registry changes by calls only, and a request is
registered only when a message is sent on a connection that accepts messages, with a
deadline (`Connection.registry_after`).

A connection that accepts no messages has no requests: whatever ends it settles them,
and none comes after (`Connection.Accounted`).
-/

namespace Southbound.Connection

open TransactionRegistry (Call)

/-! ## Calls of the registry -/

/-- The transaction id under which a message is sent in an event. -/
def Event.xid? (c : Connection) : Event → Option Xid
  | send _ (some x) _ => some x
  | send _ none _ => some c.allocate.1
  | _ => none

/-- The registry changes by some calls, and those that register a request have a
deadline and one transaction id. -/
def ByCalls (c : Connection) (x : Option Xid) (r : TransactionRegistry) : Prop :=
  ∃ calls : List Call, r = c.registry.after calls ∧
    ∀ y deadline, Call.register y deadline ∈ calls →
      c.connected = true ∧ deadline.isSome = true ∧ x = some y

theorem byCalls_refl (c : Connection) (x : Option Xid) : c.ByCalls x c.registry :=
  ⟨[], rfl, by simp⟩

/-- One call that registers nothing. -/
theorem byCalls_call {c : Connection} {x : Option Xid} (call : Call)
    (hcall : ∀ y deadline, call ≠ .register y deadline) :
    c.ByCalls x (c.registry.perform call).2 := by
  refine ⟨[call], rfl, fun y deadline hmem => ?_⟩
  exact absurd (List.mem_singleton.mp hmem).symm (hcall y deadline)

theorem byCalls_send (c : Connection) (now : Instant) (x : Xid) (m : Message) :
    c.ByCalls (some x) (c.send now x m).2.registry := by
  rw [send]
  split
  · next hconnected =>
      have hregister (calls : List Call) (hcalls : ∀ y deadline, .register y deadline ∉ calls) :
          ∀ y deadline, Call.register y deadline ∈
              .register x (some (c.deadline now m)) :: calls →
            c.connected = true ∧ deadline.isSome = true ∧ some x = some y := by
        intro y deadline hmem
        cases hmem with
        | head => exact ⟨hconnected, rfl, rfl⟩
        | tail _ hmem => exact absurd hmem (hcalls y deadline)
      split
      · exact byCalls_refl c _
      · next slot registry hok =>
          obtain rfl :
              (c.registry.perform (.register x (some (c.deadline now m)))).2 = registry := by
            rw [TransactionRegistry.perform, hok]
          split
          · next cause _ =>
              exact ⟨[.register x (some (c.deadline now m)), .fail x cause], rfl,
                hregister _ (by simp)⟩
          · exact ⟨[.register x (some (c.deadline now m))], rfl, hregister _ (by simp)⟩
  · exact byCalls_refl c _

theorem byCalls_receive (c : Connection) (x : Option Xid) (f : Frame) :
    c.ByCalls x (c.receive f).registry := by
  rw [receive]
  split
  · exact byCalls_refl c x
  · next e _ =>
      show c.ByCalls x (c.registry.settle e.xid (replyOf e.message)).2
      cases replyOf e.message with
      | ok m => exact byCalls_call (.resolve e.xid m) (by simp)
      | error cause => exact byCalls_call (.fail e.xid cause) (by simp)

theorem byCalls_takeNext (c : Connection) (x : Option Xid) :
    c.ByCalls x c.takeNext.registry := by
  rw [takeNext]
  split
  · exact byCalls_refl c x
  · next e rest _ =>
      split
      · exact byCalls_refl c x
      · next registry hmark =>
          have hcall : (c.registry.perform (.markDispatched e.xid)).2 = registry := by
            rw [TransactionRegistry.perform, hmark]
          split
          · next cause _ =>
              exact ⟨[.markDispatched e.xid, .fail e.xid cause], by rw [← hcall]; rfl, by simp⟩
          · exact ⟨[.markDispatched e.xid], hcall.symm, by simp⟩

theorem byCalls_writerStep (c : Connection) (x : Option Xid) (held : Bool) :
    c.ByCalls x (c.writerStep held).registry := by
  rw [writerStep]
  split
  · exact byCalls_refl c x
  · split
    · exact byCalls_call (.failAll c.lost) (by simp)
    · split <;> exact byCalls_refl c x
  · split
    · exact byCalls_refl c x
    · exact byCalls_takeNext c x

theorem byCalls_sweep (c : Connection) (x : Option Xid) (now : Instant) :
    c.ByCalls x (c.sweep now).registry := by
  have hcalls : c.ByCalls x (c.registry.sweep now) :=
    ⟨(c.registry.overdue now).map .expire, c.registry.sweep_eq_after now, by simp⟩
  rw [sweep]
  split
  · exact byCalls_refl c x
  · exact hcalls
  · exact hcalls

/-- To read changes nothing but the wire. -/
theorem after_read (c : Connection) : ∃ wire, c.after .read = { c with wire } := by
  simp only [after]
  split
  · next wire _ => exact ⟨wire, rfl⟩
  · exact ⟨c.wire, rfl⟩

/-- Whatever happens to a connection, its registry changes by calls only. -/
theorem registry_after (c : Connection) (e : Event) :
    c.ByCalls (e.xid? c) (c.after e).registry := by
  cases e with
  | send now x m =>
      cases x with
      | some x => exact byCalls_send c now x m
      | none =>
          obtain ⟨calls, hcalls, hregister⟩ := byCalls_send c.allocate.2 now c.allocate.1 m
          refine ⟨.allocate :: calls, hcalls, fun y deadline hmem => ?_⟩
          cases hmem with
          | tail _ hmem => exact hregister y deadline hmem
  | withdraw reply =>
      cases reply with
      | awaited x slot => exact byCalls_call (.cancel x) (by simp)
      | failed x cause => exact byCalls_refl c _
  | receive f => exact byCalls_receive c _ f
  | disconnect =>
      show c.ByCalls _ c.disconnect.registry
      rw [disconnect]
      split
      · exact byCalls_call (.failAll c.lost) (by simp)
      · exact byCalls_refl c _
  | forget => exact byCalls_refl c _
  | writer held => exact byCalls_writerStep c _ held
  | sweeper held =>
      show c.ByCalls _ (c.sweeperStep held).registry
      rw [sweeperStep]
      split
      · split
        · exact byCalls_refl c _
        · split <;> exact byCalls_refl c _
      · exact byCalls_refl c _
  | sweep now => exact byCalls_sweep c _ now
  | read =>
      obtain ⟨wire, he⟩ := c.after_read
      rw [he]
      exact byCalls_refl c _
  | closeWire => exact byCalls_refl c _

section Requests

variable {c c' : Connection} {q : Pending}

/-- Whatever waits after an event, waited before or was sent in it, with a deadline. -/
theorem mem_pending_of_byCalls {x : Option Xid} {r : TransactionRegistry} (h : c.ByCalls x r)
    (hq : q ∈ r.pending) :
    (∃ p ∈ c.registry.pending, p.Becomes q) ∨
      c.connected = true ∧ q.deadline.isSome = true ∧ x = some q.xid := by
  obtain ⟨calls, rfl, hregister⟩ := h
  exact (TransactionRegistry.mem_pending_after hq).imp_right (hregister q.xid q.deadline)

/-! ## Connections that have ended -/

/-- A connection whose registry is sound, and that has no requests when it accepts no
messages. -/
structure Accounted (c : Connection) : Prop where
  sound : c.registry.Sound
  lost : c.connected = false → c.registry.pending = []

section Opened

variable {device : DeviceId} {codec : Codec} {wireCapacity : Nat} {config : Config} {now : Instant}

/-- A connection as it is opened. -/
theorem eq_of_open (h : open? device codec wireCapacity config now = some c) : c = {
    registry := { device }
    codec
    deadlines := config.deadlines
    capacity := config.device.capacity.toNat
    wire := { capacity := wireCapacity }
    opened := now } := by
  rw [open?] at h
  split at h
  · exact (Option.some.inj h).symm
  · cases h

theorem accounted_open (h : open? device codec wireCapacity config now = some c) :
    c.Accounted := by
  rw [eq_of_open h]
  exact ⟨.new device, fun hc => by cases hc⟩

end Opened

/-- A connection that accepts messages does so until it is ended, and what ends it
settles all requests. -/
theorem connected_after (c : Connection) (e : Event) :
    (c.after e).connected = c.connected ∨
      (c.after e).connected = false ∧ (c.after e).registry.pending = [] := by
  cases e with
  | send now x m =>
      obtain ⟨registry, new, -, he⟩ := after_send_cases c now x m
      rw [he]
      exact .inl rfl
  | withdraw reply => exact .inl rfl
  | receive f =>
      show (c.receive f).connected = _ ∨ _
      rw [receive]
      split <;> exact .inl rfl
  | disconnect =>
      simp only [after, disconnect]
      split
      · exact .inr ⟨rfl, rfl⟩
      · exact .inl rfl
  | forget => exact .inl rfl
  | writer held =>
      simp only [after, writerStep]
      split
      · exact .inl rfl
      · split
        · exact .inr ⟨rfl, rfl⟩
        · split <;> exact .inl rfl
      · split
        · exact .inl rfl
        · rw [takeNext]
          split
          · exact .inl rfl
          · split
            · exact .inl rfl
            · split <;> exact .inl rfl
  | sweeper held =>
      simp only [after, sweeperStep]
      split
      · split
        · exact .inl rfl
        · split <;> exact .inl rfl
      · exact .inl rfl
  | sweep now =>
      simp only [after, sweep]
      split <;> exact .inl rfl
  | read =>
      simp only [after]
      split <;> exact .inl rfl
  | closeWire => exact .inl rfl

theorem connected_after_of_false (h : c.connected = false) (e : Event) :
    (c.after e).connected = false := by
  cases c.connected_after e with
  | inl hsame => exact hsame.trans h
  | inr hended => exact hended.1

theorem Accounted.after (h : c.Accounted) (e : Event) : (c.after e).Accounted := by
  have hcalls := registry_after c e
  refine ⟨?_, fun hlost => ?_⟩
  · obtain ⟨calls, he, -⟩ := hcalls
    exact he ▸ h.sound.after calls
  · cases c.connected_after e with
    | inr hended => exact hended.2
    | inl hsame =>
        refine List.eq_nil_iff_forall_not_mem.mpr fun q hq => ?_
        have hdown := hsame.symm.trans hlost
        cases mem_pending_of_byCalls hcalls hq with
        | inl hold =>
            obtain ⟨p, hp, -⟩ := hold
            rw [h.lost hdown] at hp
            cases hp
        | inr hnew =>
            rw [hdown] at hnew
            cases hnew.1

end Requests

end Southbound.Connection
