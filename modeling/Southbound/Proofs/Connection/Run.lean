import Southbound.Connection.Basic
import Southbound.Proofs.Transaction.Calls

/-!
# Runs of a connection

Everything that can happen to a `Connection` is an `Event`: messages are sent and
withdrawn, frames arrive, the connection ends, its writer and its sweeper go on, and
its device reads.

A message that is sent goes through the queue and the hands of the writer to the
wire.  `Transit` says how far one event moves it: messages join the queue at its end,
the first of the queue is passed over or taken by the writer, the frame that the
writer holds is put on the wire, or the writer ends and the queue is dropped.  There
is nothing else (`transit_after`).
-/

namespace Southbound

/-! ## Codecs of example devices -/

namespace Codec

/-- Frames that are as long as the transaction id says. -/
def numbered (answer : Frame → Message) : Codec where
  write e := .ok (List.replicate e.xid.val.toNat 0)
  read f := some ⟨⟨UInt32.ofNat f.length⟩, answer f⟩

/-- The device acknowledges everything. -/
def acknowledging : Codec := numbered fun _ => .ack

/-- The device answers everything as it answers a barrier. -/
def confirming : Codec := numbered fun _ => .barrierReply

/-- A one in a frame says that the device has refused the request. -/
def judging : Codec := numbered fun f => if f.contains 1 then .error ⟨5, 1, ""⟩ else .ack

/-- Whatever the device says, it answers the first message. -/
def single (answer : Message) : Codec where
  write _ := .ok []
  read _ := some ⟨⟨1⟩, answer⟩

end Codec

/-! ## The device of a registry -/

namespace TransactionRegistry

/-- A registry stays that of its device. -/
@[simp] theorem device_perform (r : TransactionRegistry) (c : Call) :
    (r.perform c).2.device = r.device := by
  have hsettle (x : Xid) (result : Outcome Message) : (r.settle x result).2.device = r.device := by
    rw [settle]
    split <;> rfl
  cases c with
  | allocate =>
      obtain ⟨cursor, he⟩ := allocate_snd r
      rw [perform, he]
  | register x deadline =>
      rw [perform, register]
      split <;> rfl
  | resolve x reply => exact hsettle x _
  | fail x cause => exact hsettle x _
  | expire x => exact hsettle x _
  | cancel x =>
      rw [perform, cancel]
      split
      · rfl
      · split
        · rfl
        · exact hsettle x _
  | markDispatched x =>
      rw [perform, markDispatched]
      split <;> rfl
  | overdue now => rfl
  | failAll cause => rfl
  | drop slot => rfl

@[simp] theorem device_allocate (r : TransactionRegistry) : r.allocate.2.device = r.device :=
  device_perform r .allocate

@[simp] theorem device_register (r : TransactionRegistry) (x : Xid) (deadline : Option Instant) :
    (r.register x deadline).2.device = r.device :=
  device_perform r (.register x deadline)

@[simp] theorem device_fail (r : TransactionRegistry) (x : Xid) (cause : Failure) :
    (r.fail x cause).2.device = r.device :=
  device_perform r (.fail x cause)

@[simp] theorem device_settle (r : TransactionRegistry) (x : Xid) (result : Outcome Message) :
    (r.settle x result).2.device = r.device := by
  cases result with
  | ok m => exact device_perform r (.resolve x m)
  | error e => exact device_perform r (.fail x e)

@[simp] theorem device_markDispatched (r : TransactionRegistry) (x : Xid) :
    (r.markDispatched x).2.device = r.device :=
  device_perform r (.markDispatched x)

@[simp] theorem device_sweep (r : TransactionRegistry) (now : Instant) :
    (r.sweep now).device = r.device := by
  rw [sweep]
  induction r.overdue now generalizing r with
  | nil => rfl
  | cons x xs ih => exact (ih _).trans (device_perform r (.expire x))

end TransactionRegistry

theorem Reply.device_cancel (reply : Reply) (r : TransactionRegistry) :
    (reply.cancel r).2.device = r.device := by
  cases reply with
  | awaited x slot => exact TransactionRegistry.device_perform r (.cancel x)
  | failed x cause => rfl

namespace Connection

/-! ## Events -/

/-- What can happen to a connection. -/
inductive Event where
  /-- A message is sent, under a transaction id or a new one. -/
  | send (now : Instant) (xid : Option Xid) (message : Message)
  | withdraw (reply : Reply)
  /-- A frame arrives from the device. -/
  | receive (frame : Frame)
  | disconnect
  /-- Whoever opened the connection does not hold it any more. -/
  | forget
  | writer (held : Bool)
  /-- The sweeper notices whether the connection has ended. -/
  | sweeper (held : Bool)
  /-- The sweeper sweeps, at whatever moment it comes to that. -/
  | sweep (now : Instant)
  | read
  | closeWire

/-- Whether a message is sent. -/
def Event.isSend : Event → Bool
  | send _ _ _ => true
  | _ => false

/-- The connection after an event. -/
def after (c : Connection) : Event → Connection
  | .send now (some x) m => (c.send now x m).2
  | .send now none m => (c.allocate.2.send now c.allocate.1 m).2
  | .withdraw reply => { c with registry := (reply.cancel c.registry).2 }
  | .receive f => c.receive f
  | .disconnect => c.disconnect
  | .forget => { c with owned := false }
  | .writer held => c.writerStep held
  | .sweeper held => c.sweeperStep held
  | .sweep now => c.sweep now
  | .read => match c.wire.take? with
    | some (_, wire) => { c with wire }
    | none => c
  | .closeWire => { c with wire := c.wire.close }

/-- The connection after some events. -/
def go (c : Connection) (es : List Event) : Connection := es.foldl after c

@[simp] theorem go_nil (c : Connection) : c.go [] = c := rfl

@[simp] theorem go_cons (c : Connection) (e : Event) (es : List Event) :
    c.go (e :: es) = (c.after e).go es := rfl

theorem go_append (c : Connection) (es es' : List Event) : c.go (es ++ es') = (c.go es).go es' :=
  List.foldl_append

/-! ## What stays -/

theorem send_cases (c : Connection) (now : Instant) (x : Xid) (m : Message) :
    ∃ registry new, registry.device = c.device ∧
      (c.send now x m).2 = { c with registry, outbound := c.outbound ++ new } := by
  have hsame : c = { c with registry := c.registry, outbound := c.outbound ++ [] } := by simp
  rw [send]
  split
  · split
    · exact ⟨c.registry, [], rfl, hsame⟩
    · next slot registry hreg =>
        have hdev : registry.device = c.device := by
          have := TransactionRegistry.device_register c.registry x (some (c.deadline now m))
          rw [hreg] at this
          exact this
        split
        · next cause _ =>
            have hfail := (TransactionRegistry.device_fail registry x cause).trans hdev
            exact ⟨(registry.fail x cause).2, [], hfail, by simp⟩
        · exact ⟨registry, [⟨x, m⟩], hdev, rfl⟩
  · exact ⟨c.registry, [], rfl, hsame⟩

/-- A message joins the queue when it is sent, or it does not. -/
theorem outbound_send (c : Connection) (now : Instant) (x : Xid) (m : Message) :
    (c.send now x m).2.outbound = c.outbound ∨
      (c.send now x m).2.outbound = c.outbound ++ [⟨x, m⟩] := by
  rw [send]
  split
  · split
    · exact .inl rfl
    · split
      · exact .inl rfl
      · exact .inr rfl
  · exact .inl rfl

/-- A message that is sent joins the queue or does not, and else only requests
change. -/
theorem after_send_cases (c : Connection) (now : Instant) (x : Option Xid) (m : Message) :
    ∃ registry new, registry.device = c.device ∧
      c.after (.send now x m) = { c with registry, outbound := c.outbound ++ new } := by
  cases x with
  | some x => exact send_cases c now x m
  | none =>
      obtain ⟨registry, new, hdev, he⟩ := send_cases c.allocate.2 now c.allocate.1 m
      exact ⟨registry, new, hdev.trans (TransactionRegistry.device_allocate c.registry), he⟩

/-- Two states of one connection: what it was opened with is the same. -/
structure Same (c c' : Connection) : Prop where
  device : c'.device = c.device
  codec : c'.codec = c.codec
  deadlines : c'.deadlines = c.deadlines
  capacity : c'.capacity = c.capacity
  opened : c'.opened = c.opened

theorem Same.refl (c : Connection) : Same c c := ⟨rfl, rfl, rfl, rfl, rfl⟩

theorem Same.trans {c c' c'' : Connection} (h : Same c c') (h' : Same c' c'') : Same c c'' :=
  ⟨h'.device.trans h.device, h'.codec.trans h.codec, h'.deadlines.trans h.deadlines,
    h'.capacity.trans h.capacity, h'.opened.trans h.opened⟩

theorem same_takeNext (c : Connection) : Same c c.takeNext := by
  rw [takeNext]
  split
  · exact .refl c
  · next e rest _ =>
      split
      · exact ⟨rfl, rfl, rfl, rfl, rfl⟩
      · next registry hmark =>
          have hdev : registry.device = c.device := by
            have := TransactionRegistry.device_markDispatched c.registry e.xid
            rw [hmark] at this
            exact this
          split
          · next cause _ =>
              have hfail := (TransactionRegistry.device_fail registry e.xid cause).trans hdev
              exact ⟨hfail, rfl, rfl, rfl, rfl⟩
          · exact ⟨hdev, rfl, rfl, rfl, rfl⟩

theorem same_writerStep (c : Connection) (held : Bool) : Same c (c.writerStep held) := by
  rw [writerStep]
  split
  · exact .refl c
  · split
    · exact ⟨rfl, rfl, rfl, rfl, rfl⟩
    · split
      · exact ⟨rfl, rfl, rfl, rfl, rfl⟩
      · exact .refl c
  · split
    · exact ⟨rfl, rfl, rfl, rfl, rfl⟩
    · exact same_takeNext c

theorem same_sweep (c : Connection) (now : Instant) : Same c (c.sweep now) := by
  have hdev := TransactionRegistry.device_sweep c.registry now
  rw [sweep]
  split
  · exact .refl c
  · exact ⟨hdev, rfl, rfl, rfl, rfl⟩
  · exact ⟨hdev, rfl, rfl, rfl, rfl⟩

/-- No event changes what a connection was opened with. -/
theorem same_after (c : Connection) (e : Event) : Same c (c.after e) := by
  cases e with
  | send now x m =>
      obtain ⟨registry, new, hdev, he⟩ := after_send_cases c now x m
      rw [he]
      exact ⟨hdev, rfl, rfl, rfl, rfl⟩
  | withdraw reply => exact ⟨reply.device_cancel c.registry, rfl, rfl, rfl, rfl⟩
  | receive f =>
      show Same c (c.receive f)
      rw [receive]
      split
      · exact .refl c
      · exact ⟨TransactionRegistry.device_settle .., rfl, rfl, rfl, rfl⟩
  | disconnect =>
      show Same c c.disconnect
      rw [disconnect]
      split
      · exact ⟨rfl, rfl, rfl, rfl, rfl⟩
      · exact .refl c
  | forget => exact ⟨rfl, rfl, rfl, rfl, rfl⟩
  | writer held => exact same_writerStep c held
  | sweeper held =>
      show Same c (c.sweeperStep held)
      rw [sweeperStep]
      split
      · split
        · exact ⟨rfl, rfl, rfl, rfl, rfl⟩
        · split
          · exact .refl c
          · exact ⟨rfl, rfl, rfl, rfl, rfl⟩
      · exact .refl c
  | sweep now => exact same_sweep c now
  | read =>
      show Same c (match c.wire.take? with | some (_, wire) => { c with wire } | none => c)
      split
      · exact ⟨rfl, rfl, rfl, rfl, rfl⟩
      · exact .refl c
  | closeWire => exact ⟨rfl, rfl, rfl, rfl, rfl⟩

theorem same_go (c : Connection) (es : List Event) : Same c (c.go es) := by
  induction es generalizing c with
  | nil => exact .refl c
  | cons e es ih => exact (same_after c e).trans (ih (c.after e))

/-! ## The way of messages -/

/-- How far one event moves messages on their way to the wire. -/
inductive Transit (c c' : Connection) : Prop where
  /-- Messages join the queue, or nothing moves. -/
  | queued (new : List Envelope) :
      c'.outbound = c.outbound ++ new → c'.writer = c.writer → c'.wire.sent = c.wire.sent →
      Transit c c'
  /-- The first message of the queue is passed over. -/
  | passed (e : Envelope) :
      c.outbound = e :: c'.outbound → c'.writer = c.writer → c'.wire.sent = c.wire.sent →
      Transit c c'
  /-- The writer takes the first message of the queue. -/
  | taken (e : Envelope) (f : Frame) :
      c.outbound = e :: c'.outbound → c.writer = .idle → c.codec.write e = .ok f →
      c'.writer = .holding f → c'.wire.sent = c.wire.sent →
      Transit c c'
  /-- The writer puts the frame that it holds on the wire. -/
  | put (f : Frame) :
      c'.outbound = c.outbound → c.writer = .holding f → c'.writer = .idle →
      c'.wire.sent = c.wire.sent ++ [f] →
      Transit c c'
  /-- The writer ends, and the queue is dropped. -/
  | dropped :
      c'.outbound = [] → c'.writer = .stopped → c'.wire.sent = c.wire.sent →
      Transit c c'

theorem Transit.of_eq {c c' : Connection} (hq : c'.outbound = c.outbound)
    (hw : c'.writer = c.writer) (hs : c'.wire.sent = c.wire.sent) : Transit c c' :=
  .queued [] (by rw [hq, List.append_nil]) hw hs

theorem transit_takeNext {c : Connection} (hidle : c.writer = .idle) : Transit c c.takeNext := by
  rw [takeNext]
  split
  · exact .of_eq rfl rfl rfl
  · next e rest hq =>
      split
      · exact .passed e hq rfl rfl
      · split
        · exact .passed e hq rfl rfl
        · next f hf => exact .taken e f hq hidle hf rfl rfl

theorem transit_writerStep (c : Connection) (held : Bool) : Transit c (c.writerStep held) := by
  rw [writerStep]
  split
  · exact .of_eq rfl rfl rfl
  · next f hf =>
      split
      · exact .dropped rfl rfl rfl
      · split
        · exact .put f rfl hf rfl rfl
        · exact .of_eq rfl rfl rfl
  · next hidle =>
      split
      · exact .dropped rfl rfl rfl
      · exact transit_takeNext hidle

/-- All that an event does to messages on their way to the wire. -/
theorem transit_after (c : Connection) (e : Event) : Transit c (c.after e) := by
  cases e with
  | send now x m =>
      obtain ⟨registry, new, -, he⟩ := after_send_cases c now x m
      rw [he]
      exact .queued new rfl rfl rfl
  | withdraw reply => exact .of_eq rfl rfl rfl
  | receive f =>
      show Transit c (c.receive f)
      rw [receive]
      split <;> exact .of_eq rfl rfl rfl
  | disconnect =>
      show Transit c c.disconnect
      rw [disconnect]
      split <;> exact .of_eq rfl rfl rfl
  | forget => exact .of_eq rfl rfl rfl
  | writer held => exact transit_writerStep c held
  | sweeper held =>
      show Transit c (c.sweeperStep held)
      rw [sweeperStep]
      split
      · split
        · exact .of_eq rfl rfl rfl
        · split <;> exact .of_eq rfl rfl rfl
      · exact .of_eq rfl rfl rfl
  | sweep now =>
      show Transit c (c.sweep now)
      rw [sweep]
      split <;> exact .of_eq rfl rfl rfl
  | read =>
      show Transit c (match c.wire.take? with | some (_, wire) => { c with wire } | none => c)
      rw [Wire.take?]
      split
      · next f wire htake =>
          split at htake
          · cases hhead : c.wire.unread.head? with
            | none => rw [hhead] at htake; cases htake
            | some f' =>
                rw [hhead] at htake
                cases htake
                exact .of_eq rfl rfl rfl
          · cases htake
      · exact .of_eq rfl rfl rfl
  | closeWire => exact .of_eq rfl rfl rfl

end Connection

end Southbound
