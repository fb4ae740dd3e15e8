import Southbound.Proofs.Connection.Requests

/-!
# Connections and those who hold them

A connection is shared by those who hold it.  Only they can use it, and if nobody does,
its writer and its sweeper come to their end.  Whoever waits for a reply can withdraw
the message without holding the connection.

A `Use` is whatever can happen then: what holders do, what arrives, and how the writer,
the sweeper and the device go on.  A run is a list of uses in any order.  What a use does
to the connection is an event of it, or a transaction id is allocated
(`Held.connection_after`), and whatever is said of all events of a connection holds in
every run.
-/

namespace Southbound.Connection

/-- A connection and how many hold it. -/
structure Held where
  connection : Connection
  holders : Nat := 1

/-- What can happen to a connection that is held. -/
inductive Use where
  /-- One more holds the connection. -/
  | share
  /-- One of those who hold the connection does not any more. -/
  | release
  | allocate
  | send (now : Instant) (xid : Xid) (message : Message)
  | withdraw (reply : Reply)
  /-- A frame arrives from the device. -/
  | receive (frame : Frame)
  | disconnect
  /-- The writer goes on. -/
  | writer
  /-- The sweeper notices whether the connection has ended. -/
  | sweeper
  /-- The sweeper sweeps, at whatever moment it comes to that. -/
  | sweep (now : Instant)
  | read
  | closeWire

namespace Held

def isHeld (h : Held) : Bool := 0 < h.holders

/-- The event of the connection that a use is.  It is none if only who holds the
connection could do it, and nobody does. -/
def event? (h : Held) : Use → Option Event
  | .share => none
  | .release => none
  | .allocate => none
  | .send now x m => if h.isHeld then some (.send now (some x) m) else none
  | .withdraw reply => some (.withdraw reply)
  | .receive f => if h.isHeld then some (.receive f) else none
  | .disconnect => if h.isHeld then some .disconnect else none
  | .writer => some (.writer h.isHeld)
  | .sweeper => some (.sweeper h.isHeld)
  | .sweep now => some (.sweep now)
  | .read => some .read
  | .closeWire => some .closeWire

/-- How many hold the connection after a use. -/
def holdersAfter (h : Held) : Use → Nat
  | .share => if h.isHeld then h.holders + 1 else h.holders
  | .release => h.holders - 1
  | _ => h.holders

/-- The connection after a use. -/
def connectionAfter (h : Held) (u : Use) : Connection :=
  match h.event? u, u with
  | some e, _ => h.connection.after e
  | none, .allocate => if h.isHeld then h.connection.allocate.2 else h.connection
  | none, _ => h.connection

def after (h : Held) (u : Use) : Held := ⟨h.connectionAfter u, h.holdersAfter u⟩

/-- The connection after some uses. -/
def go (h : Held) (us : List Use) : Held := us.foldl after h

@[simp] theorem go_cons (h : Held) (u : Use) (us : List Use) :
    h.go (u :: us) = (h.after u).go us := rfl

theorem go_append (h : Held) (us us' : List Use) : h.go (us ++ us') = (h.go us).go us' :=
  List.foldl_append

/-! ## What a use does -/

variable {h : Held} {u : Use}

/-- All that a use can do to the connection. -/
theorem connection_after (h : Held) (u : Use) :
    (h.after u).connection = h.connection ∨
      (u = .allocate ∧ (h.after u).connection = h.connection.allocate.2) ∨
      ∃ e, h.event? u = some e ∧ (h.after u).connection = h.connection.after e := by
  simp only [after, connectionAfter]
  split
  · next e he => exact .inr (.inr ⟨e, he, rfl⟩)
  · split
    · exact .inr (.inl ⟨rfl, rfl⟩)
    · exact .inl rfl
  · exact .inl rfl

/-- The connection after a use that is an event of it. -/
theorem connection_after_of_event {e : Event} (he : h.event? u = some e) :
    (h.after u).connection = h.connection.after e := by
  simp only [after, connectionAfter, he]

/-- What holds of a connection, and is kept by every event of it and when transaction
ids are allocated, is kept by every use. -/
theorem inv_after (inv : Connection → Prop) (hevent : ∀ c e, inv c → inv (c.after e))
    (hallocate : ∀ c, inv c → inv c.allocate.2) (hh : inv h.connection) (u : Use) :
    inv (h.after u).connection := by
  rcases h.connection_after u with hsame | ⟨-, he⟩ | ⟨e, -, he⟩
  · exact hsame ▸ hh
  · exact he ▸ hallocate _ hh
  · exact he ▸ hevent _ e hh

/-- What holds at first and is kept by every use holds after every run. -/
theorem inv_go (inv : Held → Prop) (hstep : ∀ h u, inv h → inv (h.after u)) (hh : inv h)
    (us : List Use) : inv (h.go us) := by
  induction us generalizing h with
  | nil => exact hh
  | cons u us ih => exact ih (hstep h u hh)

/-- No use changes what the connection was opened with. -/
theorem same_go (us : List Use) : Same h.connection (h.go us).connection := by
  refine inv_go (fun h' => Same h.connection h'.connection) (fun h' u hsame => ?_) (.refl _) us
  refine inv_after (Same h.connection) (fun c e hc => hc.trans (same_after c e)) (fun c hc => ?_)
    hsame u
  exact hc.trans ⟨TransactionRegistry.device_allocate c.registry, rfl, rfl, rfl, rfl⟩

/-- Nobody comes to hold a connection that nobody holds. -/
theorem isHeld_after_of_false (hh : h.isHeld = false) (u : Use) : (h.after u).isHeld = false := by
  have hzero : h.holders = 0 := by simpa [isHeld] using hh
  cases u with
  | share =>
      show decide (0 < if h.isHeld then h.holders + 1 else h.holders) = false
      rw [hh, hzero]
      rfl
  | release =>
      show decide (0 < h.holders - 1) = false
      rw [hzero]
      rfl
  | _ => exact hh

/-! ## Messages that are sent -/

/-- The message that is sent in a use. -/
def sent (h : Held) : Use → List Envelope
  | .send _ x m => if h.isHeld then [⟨x, m⟩] else []
  | _ => []

/-- The messages that are sent in a run. -/
def sentIn (h : Held) : List Use → List Envelope
  | [] => []
  | u :: us => h.sent u ++ (h.after u).sentIn us

theorem sentIn_append (h : Held) (us us' : List Use) :
    h.sentIn (us ++ us') = h.sentIn us ++ (h.go us).sentIn us' := by
  induction us generalizing h with
  | nil => rfl
  | cons u us ih => rw [List.cons_append, sentIn, ih, sentIn, go_cons, List.append_assoc]

theorem mem_sent_of_xid? {e : Event} {x : Xid} (he : h.event? u = some e)
    (hx : e.xid? h.connection = some x) :
    ∃ now m, u = .send now x m ∧ h.isHeld = true ∧ ⟨x, m⟩ ∈ h.sent u := by
  cases u with
  | send now y m =>
      simp only [event?] at he
      split at he
      · next hheld =>
          cases he
          cases hx
          exact ⟨now, m, rfl, hheld, by simp [sent, hheld]⟩
      · cases he
  | receive f =>
      simp only [event?] at he
      split at he
      · cases he
        cases hx
      · cases he
  | disconnect =>
      simp only [event?] at he
      split at he
      · cases he
        cases hx
      · cases he
  | share => cases he
  | release => cases he
  | allocate => cases he
  | _ =>
      cases he
      cases hx

/-- Whatever waits after a use, waited before or was sent in it, with a deadline, by
one who holds a connection that accepts messages. -/
theorem mem_pending_after {q : Pending} (hq : q ∈ (h.after u).connection.registry.pending) :
    (∃ p ∈ h.connection.registry.pending, p.Becomes q) ∨
      h.connection.connected = true ∧ h.isHeld = true ∧ q.deadline.isSome = true ∧
        q.xid ∈ (h.sent u).map Envelope.xid := by
  rcases h.connection_after u with hsame | ⟨-, he⟩ | ⟨e, hevent, he⟩
  · rw [hsame] at hq
    exact .inl ⟨q, hq, .refl q⟩
  · obtain ⟨cursor, hcursor⟩ := h.connection.registry.allocate_snd
    have hpending : h.connection.allocate.2.registry.pending = h.connection.registry.pending := by
      show h.connection.registry.allocate.2.pending = _
      rw [hcursor]
    rw [he, hpending] at hq
    exact .inl ⟨q, hq, .refl q⟩
  · rw [he] at hq
    refine (mem_pending_of_byCalls (registry_after _ e) hq).imp_right fun ⟨hup, hdl, hx⟩ => ?_
    obtain ⟨now, m, -, hheld, hmem⟩ := mem_sent_of_xid? hevent hx
    exact ⟨hup, hheld, hdl, List.mem_map.mpr ⟨_, hmem, rfl⟩⟩

/-- Whatever waits after a run, waited before or was sent in it. -/
theorem mem_pending_go {q : Pending} {us : List Use}
    (hq : q ∈ (h.go us).connection.registry.pending) :
    (∃ p ∈ h.connection.registry.pending, p.Becomes q) ∨
      q.xid ∈ (h.sentIn us).map Envelope.xid := by
  induction us generalizing h with
  | nil => exact .inl ⟨q, hq, .refl q⟩
  | cons u us ih =>
      rw [sentIn, List.map_append, List.mem_append]
      cases ih hq with
      | inr hlater => exact .inr (.inr hlater)
      | inl hp =>
          obtain ⟨p, hp, hpq⟩ := hp
          cases mem_pending_after hp with
          | inl hold =>
              obtain ⟨p₀, hp₀, hbecomes⟩ := hold
              exact .inl ⟨p₀, hp₀, hbecomes.trans hpq⟩
          | inr hnew => exact .inr (.inl (hpq.xid ▸ hnew.2.2.2))

/-! ## Accounted -/

theorem accounted_allocate {c : Connection} (hc : c.Accounted) : c.allocate.2.Accounted := by
  refine ⟨hc.sound.allocate, fun hlost => ?_⟩
  obtain ⟨cursor, hcursor⟩ := c.registry.allocate_snd
  show c.registry.allocate.2.pending = []
  rw [hcursor]
  exact hc.lost hlost

theorem accounted_go (hh : h.connection.Accounted) (us : List Use) :
    (h.go us).connection.Accounted :=
  inv_go (·.connection.Accounted)
    (fun _ u hh =>
      inv_after Accounted (fun _ e hc => hc.after e) (fun _ => accounted_allocate) hh u)
    hh us

end Held

end Southbound.Connection
