import Southbound.Proofs.Connection.Run

/-!
# Results of requests

Which result a request of a connection can be given in an event (`Connection.Yields`).  The device
answers it, or it is withdrawn, or it has waited long enough, or it was sent when its queue was
full, or its message cannot be written, or the connection has ended.  There is nothing else
(`Connection.yields_after`).
-/

namespace Southbound

/-! ## Registries -/

namespace TransactionRegistry

/-- Between two states of a registry, requests were given only results of some kind. -/
def Adds (P : Outcome Message → Prop) (r r' : TransactionRegistry) : Prop :=
  ∀ x ∈ r'.settled, x ∈ r.settled ∨ P x.2

variable {P : Outcome Message → Prop} {r r' r'' : TransactionRegistry}

theorem Adds.of_eq (h : r'.settled = r.settled) : Adds P r r' := fun _ hx => .inl (h ▸ hx)

theorem Adds.trans (h : Adds P r r') (h' : Adds P r' r'') : Adds P r r'' :=
  fun x hx => (h' x hx).elim (h x) .inr

theorem adds_settle {o : Outcome Message} (ho : P o) (x : Xid) :
    Adds P r (r.settle x o).2 := by
  rw [settle]
  split
  · exact .of_eq rfl
  · intro y hy
    rcases List.mem_cons.mp hy with rfl | hold
    · exact .inr ho
    · exact .inl hold

theorem adds_failAll {cause : Failure} (ho : P (.error cause)) :
    Adds P r (r.failAll cause).2 := by
  intro y hy
  rcases List.mem_append.mp hy with hnew | hold
  · obtain ⟨p, -, rfl⟩ := List.mem_map.mp hnew
    exact .inr ho
  · exact .inl hold

theorem adds_cancel (ho : P (.error .cancelled)) (x : Xid) : Adds P r (r.cancel x).2 := by
  rw [cancel]
  split
  · exact .of_eq rfl
  · split
    · exact .of_eq rfl
    · exact adds_settle ho x

theorem adds_sweep (ho : ∀ x, P (.error (.timeout x))) (now : Instant) :
    Adds P r (r.sweep now) := by
  rw [sweep]
  induction r.overdue now generalizing r with
  | nil => exact .of_eq rfl
  | cons x xs ih => exact (adds_settle (ho x) x).trans ih

theorem settled_markDispatched (r : TransactionRegistry) (x : Xid) :
    (r.markDispatched x).2.settled = r.settled := by
  rw [markDispatched]
  split <;> rfl

theorem settled_register (r : TransactionRegistry) (x : Xid) (deadline : Option Instant) :
    (r.register x deadline).2.settled = r.settled := by
  rw [register]
  split <;> rfl

theorem settled_allocate (r : TransactionRegistry) : r.allocate.2.settled = r.settled := by
  obtain ⟨cursor, he⟩ := allocate_snd r
  rw [he]

end TransactionRegistry

/-! ## Connections -/

namespace Connection

open TransactionRegistry

/-- The results that a request of a connection can be given in an event. -/
inductive Yields (c : Connection) : Event → Outcome Message → Prop where
  | withdrawn (reply : Reply) : Yields c (.withdraw reply) (.error .cancelled)
  | answered {f : Frame} {e : Envelope} :
      c.codec.read f = some e → Yields c (.receive f) (replyOf e.message)
  /-- There is no room in the queue. -/
  | full (now : Instant) (x : Option Xid) (m : Message) :
      Yields c (.send now x m) (.error queueFull)
  /-- The writer has ended. -/
  | stopped (now : Instant) (x : Option Xid) (m : Message) :
      Yields c (.send now x m) (.error c.lost)
  /-- Its message cannot be written as a frame. -/
  | unwritten {held : Bool} {e : Envelope} {cause : Failure} :
      c.codec.write e = .error cause → Yields c (.writer held) (.error cause)
  | overdue (now : Instant) (x : Xid) : Yields c (.sweep now) (.error (.timeout x))
  | disconnected : Yields c .disconnect (.error c.lost)
  /-- The wire is closed. -/
  | lost (held : Bool) : Yields c (.writer held) (.error c.lost)

variable {c : Connection}

theorem lost_allocate (c : Connection) : c.allocate.2.lost = c.lost := by
  simp [lost, device, allocate]

theorem adds_send (c : Connection) (now : Instant) (x : Xid) (m : Message) :
    Adds (fun o => o = .error c.lost ∨ o = .error queueFull) c.registry
      (c.send now x m).2.registry := by
  rw [send]
  split
  · have hregister := settled_register c.registry x (some (c.deadline now m))
    split
    · exact .of_eq rfl
    · next slot registry hok =>
        rw [hok] at hregister
        split
        · next cause hcause =>
            refine (Adds.of_eq hregister).trans (adds_settle ?_ x)
            rw [refusal?] at hcause
            split at hcause
            · cases hcause
              exact .inl rfl
            · split at hcause
              · cases hcause
                exact .inr rfl
              · cases hcause
        · exact .of_eq hregister
  · exact .of_eq rfl

theorem adds_takeNext (c : Connection) :
    Adds (fun o => ∃ e cause, c.codec.write e = .error cause ∧ o = .error cause) c.registry
      c.takeNext.registry := by
  rw [takeNext]
  split
  · exact .of_eq rfl
  · next e rest _ =>
      have hmarked := settled_markDispatched c.registry e.xid
      split
      · exact .of_eq rfl
      · next registry hmark =>
          rw [hmark] at hmarked
          split
          · next cause hwrite =>
              exact (Adds.of_eq hmarked).trans (adds_settle ⟨e, cause, hwrite, rfl⟩ e.xid)
          · exact .of_eq hmarked

/-- A request is given no other result in an event. -/
theorem yields_after (c : Connection) (e : Event) :
    Adds (c.Yields e) c.registry (c.after e).registry := by
  have hlost {e : Event} (he : c.Yields e (.error c.lost)) :
      Adds (c.Yields e) c.registry (c.registry.failAll c.lost).2 := adds_failAll he
  cases e with
  | send now x m =>
      have hsent {y : Slot × Outcome Message} (ho : y.2 = .error c.lost ∨ y.2 = .error queueFull) :
          c.Yields (.send now x m) y.2 := by
        rcases ho with ho | ho
        · exact ho ▸ .stopped now x m
        · exact ho ▸ .full now x m
      cases x with
      | some x => exact fun y hy => (adds_send c now x m y hy).imp_right hsent
      | none =>
          intro y hy
          have hadds := adds_send c.allocate.2 now c.allocate.1 m y hy
          rw [lost_allocate, allocate, settled_allocate] at hadds
          exact hadds.imp_right hsent
  | withdraw reply =>
      cases reply with
      | awaited x slot => exact adds_cancel (.withdrawn _) x
      | failed x cause => exact .of_eq rfl
  | receive f =>
      show Adds _ _ (c.receive f).registry
      rw [receive]
      split
      · exact .of_eq rfl
      · next e hread => exact adds_settle (.answered hread) e.xid
  | disconnect =>
      show Adds _ _ c.disconnect.registry
      rw [disconnect]
      split
      · exact hlost .disconnected
      · exact .of_eq rfl
  | forget => exact .of_eq rfl
  | writer held =>
      show Adds _ _ (c.writerStep held).registry
      rw [writerStep]
      split
      · exact .of_eq rfl
      · split
        · exact hlost (.lost held)
        · split <;> exact .of_eq rfl
      · split
        · exact .of_eq rfl
        · intro y hy
          refine (adds_takeNext c y hy).imp_right ?_
          rintro ⟨e, cause, hwrite, ho⟩
          exact ho ▸ .unwritten hwrite
  | sweeper held =>
      show Adds _ _ (c.sweeperStep held).registry
      rw [sweeperStep]
      split
      · split
        · exact .of_eq rfl
        · split <;> exact .of_eq rfl
      · exact .of_eq rfl
  | sweep now =>
      show Adds _ _ (c.sweep now).registry
      rw [sweep]
      split
      · exact .of_eq rfl
      · exact adds_sweep (.overdue now) now
      · exact adds_sweep (.overdue now) now
  | read =>
      show Adds _ _ (c.after .read).registry
      simp only [after]
      split <;> exact .of_eq rfl
  | closeWire => exact .of_eq rfl

/-- The reply to a message that is sent has a new slot, or it is known at once. -/
theorem reply_send_cases (c : Connection) (now : Instant) (x : Xid) (m : Message) :
    (c.send now x m).1 = .awaited x c.registry.slots ∨
      (c.send now x m).1 = .failed x (.xidInUse x) ∨ (c.send now x m).1 = .failed x c.lost := by
  rw [send, register]
  split
  · split
    · next cause _ hregister =>
        right; left
        split at hregister
        · cases hregister
          rfl
        · cases hregister
    · next slot registry hregister =>
        left
        split at hregister
        · cases hregister
        · cases hregister
          split <;> rfl
  · exact .inr (.inr rfl)

end Connection

end Southbound
