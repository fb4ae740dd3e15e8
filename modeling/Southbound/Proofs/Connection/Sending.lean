import Southbound.Proofs.Connection.Results
import Southbound.Proofs.Connection.Written
import Southbound.Proofs.Transaction.Allocation

/-!
# Messages that are sent

A message is queued as a whole or refused as a whole.  If it is queued, its request waits
until its deadline, and the message is the last of the queue.  If it is refused, the result
is known at once, and neither the requests that wait nor the messages in the queue have
changed, whoever has the transaction id (`Connection.Held.send_queues_or_refuses`).

There are three reasons to refuse a message (`Connection.whyRefused?`).  That the writer has
ended is none of them: the writer of a connection that accepts messages and that somebody
holds goes on (`Connection.Held.Ready`).
-/

namespace Southbound

/-- How long the reply to a message is waited for. -/
def Deadlines.waitFor (d : Deadlines) : Message → Nat
  | .barrierRequest => d.barrier.toNat
  | _ => d.request.toNat

namespace Connection

variable {c : Connection} {now : Instant} {x : Xid} {m : Message} {config : Config}

theorem deadline_eq (c : Connection) (now : Instant) (m : Message) :
    c.deadline now m = now + c.deadlines.waitFor m := by
  cases m <;> rfl

/-! ## One message -/

/-- Why a message is refused under a transaction id, if it is. -/
def whyRefused? (c : Connection) (x : Xid) : Option Failure :=
  if c.connected = false then some c.lost
  else if c.registry.isPending x then some (.xidInUse x)
  else if c.outbound.length = c.capacity then some queueFull
  else none

/-- The first reason that holds is the one that counts. -/
theorem whyRefused?_cases (c : Connection) (x : Xid) :
    (c.connected = false ∧ c.whyRefused? x = some c.lost) ∨
      c.connected = true ∧
        ((c.registry.isPending x = true ∧ c.whyRefused? x = some (.xidInUse x)) ∨
          c.registry.isPending x = false ∧
            ((c.outbound.length = c.capacity ∧ c.whyRefused? x = some queueFull) ∨
              c.outbound.length ≠ c.capacity ∧ c.whyRefused? x = none)) := by
  rw [whyRefused?]
  cases c.connected with
  | false => exact .inl ⟨rfl, rfl⟩
  | true =>
      refine .inr ⟨rfl, ?_⟩
      cases c.registry.isPending x with
      | true => exact .inl ⟨rfl, rfl⟩
      | false =>
          refine .inr ⟨rfl, ?_⟩
          by_cases hfull : c.outbound.length = c.capacity
          · exact .inl ⟨hfull, by simp [hfull]⟩
          · exact .inr ⟨hfull, by simp [hfull]⟩

/-- A message is queued: its request waits, and the message is the last of the queue.
Nothing else changes. -/
structure Queues (c : Connection) (p : Pending) (m : Message) (sent : Reply × Connection) :
    Prop where
  reply : sent.1 = .awaited p.xid p.slot
  unsettled : sent.1.result? sent.2.registry = none
  after : sent.2 = { c with
    registry := { c.registry with
      pending := p :: c.registry.pending
      slots := c.registry.slots + 1 }
    outbound := c.outbound ++ [⟨p.xid, m⟩] }

/-- A message is refused: its result is known, and no request, no message in the queue and no
other result has changed. -/
structure Refuses (c : Connection) (cause : Failure) (sent : Reply × Connection) : Prop where
  result : sent.1.result? sent.2.registry = some (.error cause)
  pending : sent.2.registry.pending = c.registry.pending
  outbound : sent.2.outbound = c.outbound
  others : ∀ slot < c.registry.slots, sent.2.registry.result? slot = c.registry.result? slot

/-- A message that is refused before it is registered changes nothing. -/
theorem refuses_unregistered (c : Connection) (x : Xid) (cause : Failure) :
    c.Refuses cause (.failed x cause, c) :=
  ⟨rfl, rfl, rfl, fun _ _ => rfl⟩

theorem send_of_lost (hup : c.connected = false) : c.send now x m = (.failed x c.lost, c) := by
  rw [send, hup]
  rfl

theorem send_of_taken (hup : c.connected = true) (hx : c.registry.isPending x = true) :
    c.send now x m = (.failed x (.xidInUse x), c) := by
  rw [send, hup, TransactionRegistry.register_of_taken hx]
  rfl

section Registered

variable (hup : c.connected = true) (hx : c.registry.isPending x = false)
include hup hx

/-- There is no room for a message.  The slot that was opened for it has its result, and its
request is gone. -/
theorem send_of_full (hwriter : c.writer ≠ .stopped) (hfull : c.capacity ≤ c.outbound.length) :
    c.send now x m = (.awaited x c.registry.slots, { c with
      registry := { c.registry with
        settled := (c.registry.slots, .error queueFull) :: c.registry.settled
        slots := c.registry.slots + 1 } }) := by
  have hrefusal : c.refusal? = some queueFull := by
    rw [refusal?, if_neg hwriter, if_pos hfull]
  -- No other request has the transaction id, and so the one that leaves is the new one.
  have hkeep : c.registry.pending.filter (·.xid ≠ x) = c.registry.pending := by
    apply List.filter_eq_self.mpr
    intro p hp
    have hnot := TransactionRegistry.isPending_eq_false hx
    simpa using fun he : p.xid = x => hnot (List.mem_map.mpr ⟨p, hp, he⟩)
  simp only [ne_eq, decide_not] at hkeep
  rw [send, hup, TransactionRegistry.register_of_free hx]
  simp [hrefusal, TransactionRegistry.fail, TransactionRegistry.settle, TransactionRegistry.find?,
    hkeep]

/-- There is room for a message. -/
theorem send_of_room (hwriter : c.writer ≠ .stopped) (hroom : c.outbound.length < c.capacity) :
    c.send now x m = (.awaited x c.registry.slots, { c with
      registry := { c.registry with
        pending := ⟨x, c.registry.slots, some (c.deadline now m), false⟩ :: c.registry.pending
        slots := c.registry.slots + 1 }
      outbound := c.outbound ++ [⟨x, m⟩] }) := by
  have hrefusal : c.refusal? = none := by
    rw [refusal?, if_neg hwriter, if_neg (Nat.not_le.mpr hroom)]
  rw [send, hup, TransactionRegistry.register_of_free hx]
  simp [hrefusal]

end Registered

theorem refuses_full (c : Connection) (x : Xid) :
    c.Refuses queueFull (.awaited x c.registry.slots, { c with
      registry := { c.registry with
        settled := (c.registry.slots, .error queueFull) :: c.registry.settled
        slots := c.registry.slots + 1 } }) := by
  refine ⟨List.lookup_cons_self, rfl, rfl, fun slot hslot => ?_⟩
  rw [TransactionRegistry.result?, List.lookup_cons, beq_false_of_ne (Nat.ne_of_lt hslot),
    TransactionRegistry.result?]

theorem queues_registered (hsound : c.registry.Sound) (x : Xid) (deadline : Option Instant)
    (m : Message) :
    c.Queues ⟨x, c.registry.slots, deadline, false⟩ m (.awaited x c.registry.slots, { c with
      registry := { c.registry with
        pending := ⟨x, c.registry.slots, deadline, false⟩ :: c.registry.pending
        slots := c.registry.slots + 1 }
      outbound := c.outbound ++ [⟨x, m⟩] }) := by
  refine ⟨rfl, ?_, rfl⟩
  cases hresult : c.registry.result? c.registry.slots with
  | none => exact hresult
  | some o => exact absurd (hsound.slot_lt_of_result? hresult) (Nat.lt_irrefl _)

/-- A message that is sent does not overfill the queue. -/
theorem length_outbound_send (hqueue : c.outbound.length ≤ c.capacity) :
    (c.send now x m).2.outbound.length ≤ c.capacity := by
  rw [send]
  split
  · split
    · exact hqueue
    · split
      · exact hqueue
      · next hrefusal =>
          rw [refusal?] at hrefusal
          split at hrefusal
          · cases hrefusal
          · split at hrefusal
            · cases hrefusal
            · next hroom =>
                rw [List.length_append, List.length_singleton]
                exact Nat.lt_of_not_le hroom
  · exact hqueue

/-- The queue never holds more than its capacity. -/
theorem length_outbound_after_le (hqueue : c.outbound.length ≤ c.capacity) (e : Event) :
    (c.after e).outbound.length ≤ (c.after e).capacity := by
  rw [(same_after c e).capacity]
  cases hsend : e.isSend with
  | false => exact Nat.le_trans (c.length_outbound_after hsend) hqueue
  | true =>
      cases e with
      | send now x m =>
          cases x with
          | some x => exact length_outbound_send hqueue
          | none => exact length_outbound_send (c := c.allocate.2) hqueue
      | _ => cases hsend

theorem writer_takeNext_ne_stopped (hidle : c.writer = .idle) : c.takeNext.writer ≠ .stopped := by
  rw [takeNext]
  split
  · rw [hidle]
    intro h
    cases h
  · split
    · simp [hidle]
    · split <;> simp [hidle]

/-- The writer ends when it finds the wire closed, when it was told to, or when nobody holds
the connection. -/
theorem stopped_writerStep {held : Bool} (h : (c.writerStep held).writer = .stopped) :
    c.writer = .stopped ∨ (c.writerStep held).connected = false ∨ c.closing = true ∨
      held = false := by
  cases hwriter : c.writer with
  | stopped => exact .inl rfl
  | holding frame =>
      rw [writerStep, hwriter] at h ⊢
      simp only at h ⊢
      split at h
      · next hclosed =>
          rw [if_pos hclosed]
          exact .inr (.inl rfl)
      · split at h
        · cases h
        · rw [hwriter] at h
          cases h
  | idle =>
      right
      right
      rw [writerStep, hwriter] at h
      simp only at h
      split at h
      · next hends => simpa using hends
      · exact absurd h (writer_takeNext_ne_stopped hwriter)

/-! ## Connections as they can become -/

namespace Held

/-- A connection that was opened with some settings, with which things were done and whose
registry was called. -/
inductive Reachable (config : Config) : Held → Prop where
  | opened {device : DeviceId} {codec : Codec} {wireCapacity : Nat} {now : Instant}
      {c : Connection} (h : open? device codec wireCapacity config now = some c) :
      Reachable config ⟨c, 1⟩
  | used {h : Held} (hr : Reachable config h) (u : Use) : Reachable config (h.after u)
  | called {h : Held} (hr : Reachable config h) (call : TransactionRegistry.Call) :
      Reachable config { h with connection := { h.connection with
        registry := (h.connection.registry.perform call).2 } }

/-- A connection whose queue is not overfull, and whose writer goes on as long as messages are
accepted and somebody is there to send them. -/
structure Ready (config : Config) (h : Held) : Prop where
  sound : h.connection.registry.Sound
  capacity : h.connection.capacity = config.device.capacity.toNat
  deadlines : h.connection.deadlines = config.deadlines
  queue : h.connection.outbound.length ≤ h.connection.capacity
  closing : h.connection.closing = true → h.connection.connected = false
  stopped : h.connection.writer = .stopped → h.connection.connected = false ∨ h.isHeld = false

variable {h : Held} {u : Use}

namespace Ready

theorem of_open {device : DeviceId} {codec : Codec} {wireCapacity : Nat}
    (hopen : open? device codec wireCapacity config now = some c) : Ready config ⟨c, 1⟩ := by
  have haccounted := accounted_open hopen
  obtain rfl := eq_of_open hopen
  exact ⟨haccounted.sound, rfl, rfl, Nat.zero_le _, nofun, nofun⟩

/-- A writer that has ended after a use had a reason to. -/
theorem stopped_after (hr : Ready config h)
    (hstopped : (h.after u).connection.writer = .stopped) :
    (h.after u).connection.connected = false ∨ (h.after u).isHeld = false := by
  rcases h.connection_after u with hsame | ⟨-, he⟩ | ⟨e, hevent, he⟩
  · rw [hsame] at hstopped
    exact Attended.closed_after (hr.stopped hstopped) u
  · rw [he] at hstopped
    exact Attended.closed_after (hr.stopped hstopped) u
  · by_cases hwriter : ∃ held, e = .writer held
    · obtain ⟨held, rfl⟩ := hwriter
      rw [he] at hstopped
      rcases stopped_writerStep hstopped with hbefore | hlost | hclosing | hnobody
      · exact Attended.closed_after (hr.stopped hbefore) u
      · left
        rw [he]
        exact hlost
      · exact Attended.closed_after (.inl (hr.closing hclosing)) u
      · cases u with
        | writer =>
            have hheld : h.isHeld = held := by simpa [event?] using hevent
            exact Attended.closed_after (.inr (hheld.trans hnobody)) _
        | _ => simp [event?] at hevent
    · rw [he, h.connection.writer_after fun held hheld => hwriter ⟨held, hheld⟩] at hstopped
      exact Attended.closed_after (hr.stopped hstopped) u

theorem after (hr : Ready config h) (u : Use) : Ready config (h.after u) := by
  have hsame := same_go (h := h) [u]
  have hlost (hdown : h.connection.connected = false) :
      (h.after u).connection.connected = false :=
    inv_after (·.connected = false) (fun _ e hc => connected_after_of_false hc e)
      (fun _ hc => hc) hdown u
  constructor
  · exact inv_after (·.registry.Sound) (fun c e hc => by
      obtain ⟨calls, he, -⟩ := registry_after c e
      exact he ▸ hc.after calls) (fun _ hc => hc.allocate) hr.sound u
  · exact hsame.capacity.trans hr.capacity
  · exact hsame.deadlines.trans hr.deadlines
  · exact inv_after (fun c => c.outbound.length ≤ c.capacity)
      (fun _ e hc => length_outbound_after_le hc e) (fun _ hc => hc) hr.queue u
  · intro hclosing
    rcases h.connection_after u with hsame | ⟨-, he⟩ | ⟨e, -, he⟩
    · rw [hsame] at hclosing
      exact hlost (hr.closing hclosing)
    · rw [he] at hclosing
      exact hlost (hr.closing hclosing)
    · cases h.connection.closing_after e with
      | inl hsame =>
          rw [he, hsame] at hclosing
          exact hlost (hr.closing hclosing)
      | inr htold =>
          rw [he]
          exact htold.2
  · exact hr.stopped_after

/-- What comes of a message that somebody sends who holds the connection. -/
theorem send (hr : Ready config h) (hheld : h.isHeld = true) (now : Instant) (x : Xid)
    (m : Message) :
    (h.connection.whyRefused? x = none → h.connection.Queues
      ⟨x, h.connection.registry.slots, some (now + config.deadlines.waitFor m), false⟩ m
      (h.connection.send now x m)) ∧
    ∀ cause, h.connection.whyRefused? x = some cause →
      h.connection.Refuses cause (h.connection.send now x m) := by
  have hwriter (hup : h.connection.connected = true) : h.connection.writer ≠ .stopped := by
    intro hstopped
    cases hr.stopped hstopped with
    | inl hdown => exact Bool.false_ne_true (hdown.symm.trans hup)
    | inr hnobody => exact Bool.false_ne_true (hnobody.symm.trans hheld)
  rcases h.connection.whyRefused?_cases x with
    ⟨hdown, hwhy⟩ | ⟨hup, ⟨htaken, hwhy⟩ | ⟨hfree, ⟨hfull, hwhy⟩ | ⟨hroom, hwhy⟩⟩⟩
  · rw [hwhy, send_of_lost hdown]
    exact ⟨nofun, fun cause hcause => Option.some.inj hcause ▸ refuses_unregistered ..⟩
  · rw [hwhy, send_of_taken hup htaken]
    exact ⟨nofun, fun cause hcause => Option.some.inj hcause ▸ refuses_unregistered ..⟩
  · rw [hwhy, send_of_full hup hfree (hwriter hup) (Nat.le_of_eq hfull.symm)]
    exact ⟨nofun, fun cause hcause => Option.some.inj hcause ▸ refuses_full ..⟩
  · have hdeadline : h.connection.deadline now m = now + config.deadlines.waitFor m := by
      rw [deadline_eq, hr.deadlines]
    rw [hwhy, send_of_room hup hfree (hwriter hup) (Nat.lt_of_le_of_ne hr.queue hroom),
      hdeadline]
    exact ⟨fun _ => queues_registered hr.sound .., nofun⟩

end Ready

theorem Reachable.ready (hr : Reachable config h) : Ready config h := by
  induction hr with
  | opened hopen => exact .of_open hopen
  | used _ u ih => exact ih.after u
  | called _ call ih =>
      exact ⟨ih.sound.perform call, ih.capacity, ih.deadlines, ih.queue, ih.closing, ih.stopped⟩

/-- The queue never holds more than its capacity.  A message that is sent is queued as a whole
or refused as a whole.  If it is queued, one request waits that did not, and the message is
the last of the queue.  It is refused if the connection accepts no messages, or else if its
transaction id is taken, or else if the queue is full, and then the result is known and no
request and no message in the queue has changed. -/
theorem send_queues_or_refuses (hr : Reachable config h) :
    h.connection.capacity = config.device.capacity.toNat ∧
    h.connection.outbound.length ≤ h.connection.capacity ∧
    (h.isHeld = true → ∀ now x m,
      (h.connection.whyRefused? x = none → h.connection.Queues
        ⟨x, h.connection.registry.slots, some (now + config.deadlines.waitFor m), false⟩ m
        (h.connection.send now x m)) ∧
      ∀ cause, h.connection.whyRefused? x = some cause →
        h.connection.Refuses cause (h.connection.send now x m)) := by
  have hready := hr.ready
  exact ⟨hready.capacity, hready.queue, hready.send⟩

/-! ## A queue for one message -/

namespace Narrow

def settings : Config := { device := { capacity := 1 } }

/-- A connection with these settings, as it is opened. -/
def fresh : Held where
  connection := {
    registry := { device := ⟨"openflow:1"⟩ }
    capacity := 1
    wire := { capacity := 64 } }

/-- A message waits in the queue, and its request under the first transaction id. -/
def filled : Held := fresh.after (.send 5 ⟨1⟩ .barrierRequest)

theorem reachable_filled : Reachable settings filled := by
  have hopen : open? ⟨"openflow:1"⟩ .json 64 settings 0 = some fresh.connection := rfl
  exact (Reachable.opened hopen).used _

end Narrow

/-- The first message is queued and fills the queue.  Another one is refused under the same
transaction id since that is taken, and under a new one since there is no room. -/
theorem send_queues_or_refuses_of_narrow :
    Reachable Narrow.settings Narrow.filled ∧ Narrow.filled.isHeld = true ∧
      Narrow.filled.connection.outbound.length = 1 ∧
      Narrow.filled.connection.Refuses (.xidInUse ⟨1⟩)
        (Narrow.filled.connection.send 6 ⟨1⟩ .barrierRequest) ∧
      Narrow.filled.connection.Refuses queueFull
        (Narrow.filled.connection.send 6 ⟨2⟩ .barrierRequest) ∧
      Narrow.fresh.connection.Queues ⟨⟨1⟩, 0, some 30005, false⟩ .barrierRequest
        (Narrow.fresh.connection.send 5 ⟨1⟩ .barrierRequest) := by
  obtain ⟨-, -, hsend⟩ := send_queues_or_refuses Narrow.reachable_filled
  have hopen : open? ⟨"openflow:1"⟩ .json 64 Narrow.settings 0 = some Narrow.fresh.connection := rfl
  obtain ⟨-, -, hfirst⟩ := send_queues_or_refuses (.opened hopen)
  refine ⟨Narrow.reachable_filled, rfl, rfl, ?_, ?_, ?_⟩
  · exact (hsend rfl 6 ⟨1⟩ .barrierRequest).2 _ rfl
  · exact (hsend rfl 6 ⟨2⟩ .barrierRequest).2 _ rfl
  · exact (hfirst rfl 5 ⟨1⟩ .barrierRequest).1 rfl

end Held

end Connection

end Southbound
