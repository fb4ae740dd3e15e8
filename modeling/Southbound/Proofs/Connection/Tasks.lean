import Southbound.Proofs.Connection.Holders

/-!
# The writer and the sweeper of a connection

Only a connection that ends, its writer and its sweeper change how far these two have
come, and whether the connection was told to end (`Connection.sameTasks_after`).

What the others do leaves the writer with the frame that it holds and the sweeper at its
work.  Whatever tells the two to end makes the connection accept no more messages
(`Connection.closing_after`), and a sweeper ends in one of two ways: it was told to, or
nobody holds the connection and no request waits (`Connection.sweeper_after`).
-/

namespace Southbound.Connection

/-- Whether an event may change the writer, the sweeper or what they were told. -/
def Event.movesTasks : Event → Bool
  | disconnect => true
  | writer _ => true
  | sweeper _ => true
  | sweep _ => true
  | _ => false

/-- Two states of a connection with the same writer and sweeper, which were told the
same. -/
structure SameTasks (c c' : Connection) : Prop where
  writer : c'.writer = c.writer
  sweeper : c'.sweeper = c.sweeper
  connected : c'.connected = c.connected
  closing : c'.closing = c.closing

theorem SameTasks.refl (c : Connection) : SameTasks c c := ⟨rfl, rfl, rfl, rfl⟩

variable {c : Connection} {e : Event}

/-- What is sent, withdrawn, received or read leaves the writer and the sweeper as they
are. -/
theorem sameTasks_after (c : Connection) (he : e.movesTasks = false) :
    SameTasks c (c.after e) := by
  cases e with
  | send now x m =>
      obtain ⟨registry, new, -, hsend⟩ := after_send_cases c now x m
      rw [hsend]
      exact ⟨rfl, rfl, rfl, rfl⟩
  | withdraw reply => exact ⟨rfl, rfl, rfl, rfl⟩
  | receive f =>
      show SameTasks c (c.receive f)
      rw [receive]
      split <;> exact ⟨rfl, rfl, rfl, rfl⟩
  | forget => exact ⟨rfl, rfl, rfl, rfl⟩
  | read =>
      obtain ⟨wire, he⟩ := c.after_read
      rw [he]
      exact ⟨rfl, rfl, rfl, rfl⟩
  | closeWire => exact ⟨rfl, rfl, rfl, rfl⟩
  | disconnect => cases he
  | writer held => cases he
  | sweeper held => cases he
  | sweep now => cases he

/-! ## The writer -/

/-- A message that the writer takes waits for its reply, and it is noted that it is
dispatched before the writer holds its frame. -/
inductive Takes (c c' : Connection) : Prop where
  | intro (m : Envelope) (f : Frame) :
      c.outbound = m :: c'.outbound → c.registry.isPending m.xid = true →
      c'.registry = (c.registry.markDispatched m.xid).2 → c.codec.write m = .ok f →
      c'.writer = .holding f → Takes c c'

theorem takes_takeNext {f : Frame} (hidle : c.writer = .idle)
    (hf : c.takeNext.writer = .holding f) :
    Takes c c.takeNext := by
  rw [takeNext] at hf ⊢
  split at hf
  · rw [hidle] at hf
    cases hf
  · next m rest hq =>
      cases hpending : c.registry.isPending m.xid with
      | false =>
          have hmark : c.registry.markDispatched m.xid = (false, c.registry) := by
            simp [TransactionRegistry.markDispatched, hpending]
          rw [hmark] at hf
          rw [hidle] at hf
          cases hf
      | true =>
          have hmark : c.registry.markDispatched m.xid =
              (true, (c.registry.markDispatched m.xid).2) := by
            simp [TransactionRegistry.markDispatched, hpending]
          rw [hmark] at hf ⊢
          cases hwrite : c.codec.write m with
          | error cause =>
              rw [hwrite, hidle] at hf
              cases hf
          | ok frame => exact .intro m frame hq hpending rfl hwrite rfl

/-- The writer tells nobody to end. -/
theorem closing_writerStep (c : Connection) (held : Bool) :
    (c.writerStep held).closing = c.closing ∧ (c.writerStep held).sweeper = c.sweeper := by
  have hnext : c.takeNext.closing = c.closing ∧ c.takeNext.sweeper = c.sweeper := by
    rw [takeNext]
    split
    · exact ⟨rfl, rfl⟩
    · split
      · exact ⟨rfl, rfl⟩
      · split <;> exact ⟨rfl, rfl⟩
  rw [writerStep]
  split
  · exact ⟨rfl, rfl⟩
  · split
    · exact ⟨rfl, rfl⟩
    · split <;> exact ⟨rfl, rfl⟩
  · split
    · exact ⟨rfl, rfl⟩
    · exact hnext

/-- Nobody but the writer moves it. -/
theorem writer_after (c : Connection) (he : ∀ held, e ≠ .writer held) :
    (c.after e).writer = c.writer := by
  cases e with
  | writer held => exact absurd rfl (he held)
  | disconnect =>
      show c.disconnect.writer = _
      rw [disconnect]
      split <;> rfl
  | sweeper held =>
      show (c.sweeperStep held).writer = _
      rw [sweeperStep]
      split
      · split
        · rfl
        · split <;> rfl
      · rfl
  | sweep now =>
      show (c.sweep now).writer = _
      rw [sweep]
      split <;> rfl
  | send now x m => exact (c.sameTasks_after rfl).writer
  | withdraw reply => exact (c.sameTasks_after rfl).writer
  | receive f => exact (c.sameTasks_after rfl).writer
  | forget => exact (c.sameTasks_after rfl).writer
  | read => exact (c.sameTasks_after rfl).writer
  | closeWire => exact (c.sameTasks_after rfl).writer

/-- An idle writer comes to hold a frame only by taking a message, and only if it was not
told to end. -/
theorem takes_after {f : Frame} (hidle : c.writer = .idle)
    (hf : (c.after e).writer = .holding f) : c.closing = false ∧ Takes c (c.after e) := by
  by_cases he : ∃ held, e = .writer held
  · obtain ⟨held, rfl⟩ := he
    have hstep : c.after (.writer held) = if c.closing || !held then
        { c with writer := .stopped, outbound := [] } else c.takeNext := by
      show c.writerStep held = _
      rw [writerStep, hidle]
    rw [hstep] at hf ⊢
    split at hf
    · cases hf
    · next hgoes =>
        rw [if_neg hgoes]
        refine ⟨?_, takes_takeNext hidle hf⟩
        cases hclosing : c.closing with
        | true => simp [hclosing] at hgoes
        | false => rfl
  · rw [c.writer_after fun held hheld => he ⟨held, hheld⟩, hidle] at hf
    cases hf

/-! ## The sweeper -/

theorem closing_sweep (c : Connection) (now : Instant) : (c.sweep now).closing = c.closing := by
  rw [sweep]
  split <;> rfl

theorem closing_sweeperStep (c : Connection) (held : Bool) :
    (c.sweeperStep held).closing = c.closing := by
  rw [sweeperStep]
  split
  · split
    · rfl
    · split <;> rfl
  · rfl

/-- A connection whose writer and sweeper are told to end accepts no more messages. -/
theorem closing_after (c : Connection) (e : Event) :
    (c.after e).closing = c.closing ∨
      (c.after e).closing = true ∧ (c.after e).connected = false := by
  cases e with
  | disconnect =>
      show c.disconnect.closing = _ ∨ c.disconnect.closing = _ ∧ c.disconnect.connected = _
      rw [disconnect]
      split
      · exact .inr ⟨rfl, rfl⟩
      · exact .inl rfl
  | writer held => exact .inl (c.closing_writerStep held).1
  | sweeper held => exact .inl (c.closing_sweeperStep held)
  | sweep now => exact .inl (c.closing_sweep now)
  | send now x m => exact .inl (c.sameTasks_after rfl).closing
  | withdraw reply => exact .inl (c.sameTasks_after rfl).closing
  | receive f => exact .inl (c.sameTasks_after rfl).closing
  | forget => exact .inl (c.sameTasks_after rfl).closing
  | read => exact .inl (c.sameTasks_after rfl).closing
  | closeWire => exact .inl (c.sameTasks_after rfl).closing

/-- All that an event does to the sweeper. -/
inductive SweeperMove (c : Connection) (e : Event) : Prop where
  | same : (c.after e).sweeper = c.sweeper → SweeperMove c e
  /-- The sweeper notices that it was told to end. -/
  | told : c.closing = true → (c.after e).sweeper = .stopped → SweeperMove c e
  /-- The sweeper notices that nobody holds the connection. -/
  | orphaned : e = .sweeper false → (c.after e).sweeper = .orphaned → SweeperMove c e
  /-- The sweeper of a connection that nobody holds ends, since no request waits. -/
  | finished : c.sweeper = .orphaned → (c.after e).sweeper = .stopped →
      (c.after e).registry.pending = [] → SweeperMove c e

theorem sweeper_after (c : Connection) (e : Event) : SweeperMove c e := by
  cases e with
  | disconnect =>
      refine .same ?_
      show c.disconnect.sweeper = _
      rw [disconnect]
      split <;> rfl
  | writer held => exact .same (c.closing_writerStep held).2
  | sweeper held =>
      have he : c.after (.sweeper held) = c.sweeperStep held := rfl
      rw [sweeperStep] at he
      split at he
      · next hrunning =>
          split at he
          · next hclosing => exact .told hclosing (by rw [he])
          · cases held with
            | true => exact .same (by rw [he]; rfl)
            | false => exact .orphaned rfl (by rw [he]; rfl)
      · exact .same (by rw [he])
  | sweep now =>
      have he : c.after (.sweep now) = c.sweep now := rfl
      rw [sweep] at he
      split at he
      · exact .same (by rw [he])
      · next hrunning => exact .same (by rw [he])
      · next horphaned =>
          cases hempty : (c.registry.sweep now).pending.isEmpty with
          | true =>
              refine .finished horphaned (by rw [he]; exact if_pos hempty) ?_
              rw [he]
              exact List.isEmpty_iff.mp hempty
          | false =>
              refine .same ?_
              rw [he, horphaned]
              simp [hempty]
  | send now x m => exact .same (c.sameTasks_after rfl).sweeper
  | withdraw reply => exact .same (c.sameTasks_after rfl).sweeper
  | receive f => exact .same (c.sameTasks_after rfl).sweeper
  | forget => exact .same (c.sameTasks_after rfl).sweeper
  | read => exact .same (c.sameTasks_after rfl).sweeper
  | closeWire => exact .same (c.sameTasks_after rfl).sweeper

/-! ## Connections that end -/

/-- The writer was told to end, or has ended. -/
def Ending (c : Connection) : Prop := c.closing = true ∨ c.writer = .stopped

theorem Ending.after (h : c.Ending) (e : Event) : (c.after e).Ending := by
  cases h with
  | inl hclosing =>
      cases c.closing_after e with
      | inl hsame => exact .inl (hsame.trans hclosing)
      | inr htold => exact .inl htold.1
  | inr hstopped =>
      refine .inr ?_
      by_cases he : ∃ held, e = .writer held
      · obtain ⟨held, rfl⟩ := he
        show (c.writerStep held).writer = _
        rw [writerStep, hstopped]
        exact hstopped
      · exact (c.writer_after fun held hheld => he ⟨held, hheld⟩).trans hstopped

/-- A connection comes to accept no more messages only as its writer is told to end or
ends. -/
theorem connected_after_or_ending (c : Connection) (e : Event) :
    (c.after e).connected = c.connected ∨ (c.after e).Ending := by
  cases e with
  | disconnect =>
      show c.disconnect.connected = _ ∨ c.disconnect.Ending
      rw [disconnect]
      split
      · exact .inr (.inl rfl)
      · exact .inl rfl
  | writer held =>
      have hnext : c.takeNext.connected = c.connected := by
        rw [takeNext]
        split
        · rfl
        · split
          · rfl
          · split <;> rfl
      show (c.writerStep held).connected = _ ∨ (c.writerStep held).Ending
      rw [writerStep]
      split
      · exact .inl rfl
      · split
        · exact .inr (.inr rfl)
        · split <;> exact .inl rfl
      · split
        · exact .inr (.inr rfl)
        · exact .inl hnext
  | sweeper held =>
      refine .inl ?_
      show (c.sweeperStep held).connected = _
      rw [sweeperStep]
      split
      · split
        · rfl
        · split <;> rfl
      · rfl
  | sweep now =>
      refine .inl ?_
      show (c.sweep now).connected = _
      rw [sweep]
      split <;> rfl
  | send now x m => exact .inl (c.sameTasks_after rfl).connected
  | withdraw reply => exact .inl (c.sameTasks_after rfl).connected
  | receive f => exact .inl (c.sameTasks_after rfl).connected
  | forget => exact .inl (c.sameTasks_after rfl).connected
  | read => exact .inl (c.sameTasks_after rfl).connected
  | closeWire => exact .inl (c.sameTasks_after rfl).connected

end Southbound.Connection
