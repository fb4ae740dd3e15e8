import Southbound.Proofs.Connection.Written
import Southbound.Proofs.Message.RoundTrip
import Southbound.Proofs.Operation.Bursts
import Southbound.Proofs.Transaction.Allocation

/-!
# Messages on their way

A message that was sent waits in the queue, is held by the writer, is on the wire, or was
read by the device, which owes an answer then (`Connection.underway`).  On a connection that
is in order these are the messages of the requests without a result, each of one
(`Connection.Carries`).

Writer and device only move messages along (`Connection.Relays`), and each move brings one
of them nearer to its answer (`Connection.distance`).  An answer takes one message away, and
a message that is sent joins at the end if there is room for it.

So whoever has sent some messages knows of each that it was confirmed, or that it is on its
way, and there are no others (`Connection.Delivers`).
-/

namespace Southbound

/-- A codec that reads back whatever it writes. -/
def Codec.Faithful (codec : Codec) : Prop :=
  ∀ e, ∃ f, codec.write e = .ok f ∧ codec.read f = some e

theorem Codec.faithful_json : Codec.json.Faithful :=
  fun e => ⟨e.toFrame, rfl, Envelope.ofFrame?_toFrame e⟩

/-- A reply is known from the results alone. -/
theorem Reply.result?_congr {r r' : TransactionRegistry} (h : r'.settled = r.settled)
    (reply : Reply) : reply.result? r' = reply.result? r := by
  cases reply with
  | failed x cause => rfl
  | awaited x slot =>
      rw [result?, result?, TransactionRegistry.result?, TransactionRegistry.result?, h]

/-- What a device that does as it is told gives as the result of a message. -/
theorem Connection.replyOf_confirmation (m : Message) :
    replyOf m.confirmation = .ok m.confirmation := by
  cases m <;> rfl

/-- A wire that can hold frames, of which the device has read no more than were put on it. -/
structure Wire.Sane (w : Wire) : Prop where
  room : 0 < w.capacity
  taken : w.taken ≤ w.sent.length

namespace Wire

variable {w : Wire} {f : Frame}

theorem Sane.put (h : w.Sane) (f : Frame) : (w.put f).Sane := by
  refine ⟨h.room, Nat.le_trans h.taken ?_⟩
  show w.sent.length ≤ (w.sent ++ [f]).length
  simp

theorem Sane.unread_put (h : w.Sane) (f : Frame) : (w.put f).unread = w.unread ++ [f] :=
  List.drop_append_of_le_length h.taken

/-- The device reads a frame that was not read. -/
theorem take?_eq_some {w' : Wire} (h : w.take? = some (f, w')) :
    ∃ rest, w.unread = f :: rest ∧ w' = { w with taken := w.taken + 1 } ∧ w'.unread = rest := by
  rw [take?] at h
  split at h
  · obtain ⟨f', hf, heq⟩ := Option.map_eq_some_iff.mp h
    cases heq
    obtain ⟨rest, hunread⟩ := List.head?_eq_some_iff.mp hf
    refine ⟨rest, hunread, rfl, ?_⟩
    have htail : (w.sent.drop w.taken).tail = rest := congrArg List.tail hunread
    rwa [List.tail_drop] at htail
  · cases h

theorem Sane.take? {w' : Wire} (h : w.Sane) (hw : w.take? = some (f, w')) : w'.Sane := by
  obtain ⟨rest, hunread, rfl, -⟩ := take?_eq_some hw
  refine ⟨h.room, Nat.lt_of_not_le fun hle => ?_⟩
  rw [unread, List.drop_of_length_le hle] at hunread
  cases hunread

end Wire

namespace Connection

theorem wire_takeNext (c : Connection) : c.takeNext.wire = c.wire := by
  rw [takeNext]
  split
  · rfl
  · split
    · rfl
    · split <;> rfl

/-- The writer puts one frame on the wire at most. -/
theorem sane_writerStep {c : Connection} (h : c.wire.Sane) (held : Bool) :
    (c.writerStep held).wire.Sane := by
  rw [writerStep]
  split
  · exact h
  · split
    · exact h
    · split
      · exact h.put _
      · exact h
  · split
    · exact h
    · rw [wire_takeNext]
      exact h

/-- The wire of a connection stays sane. -/
theorem sane_after {c : Connection} (h : c.wire.Sane) (e : Event) : (c.after e).wire.Sane := by
  cases e with
  | send now x m =>
      obtain ⟨registry, new, -, he⟩ := after_send_cases c now x m
      rw [he]
      exact h
  | withdraw reply => exact h
  | receive f =>
      rw [after, receive]
      split <;> exact h
  | disconnect =>
      rw [after, disconnect]
      split <;> exact h
  | forget => exact h
  | writer held => exact sane_writerStep h held
  | sweeper held =>
      rw [after, sweeperStep]
      split
      · split
        · exact h
        · split <;> exact h
      · exact h
  | sweep now =>
      rw [after, sweep]
      split <;> exact h
  | read =>
      rw [after]
      split
      · next hw => exact h.take? hw
      · exact h
  | closeWire => exact ⟨h.room, h.taken⟩

/-- The messages that are on their way to the device, and those that it has read and owes an
answer to. -/
def underway (c : Connection) (owed : List Envelope) : List Envelope :=
  owed ++ (c.wire.unread ++ c.writer.frames).filterMap c.codec.read ++ c.outbound

/-- The requests without a result, each with its transaction id and its slot. -/
def waiting (c : Connection) : List (Xid × Slot) :=
  c.registry.pending.map fun p => (p.xid, p.slot)

/-- How many steps it takes until all messages on their way are answered. -/
def distance (c : Connection) (owed : List Envelope) : Nat :=
  owed.length + 2 * c.wire.unread.length + 3 * c.writer.frames.length + 4 * c.outbound.length

/-- What the device owes after it has read the next frame, if there is one. -/
def owedOnRead (c : Connection) (owed : List Envelope) : List Envelope :=
  owed ++ (c.wire.take?.bind fun r => c.codec.read r.1).toList

/-- What the device owes after a frame from it. -/
def owedOnReceive (c : Connection) (owed : List Envelope) (f : Frame) : List Envelope :=
  match c.codec.read f with
  | some e => owed.eraseP (·.xid = e.xid)
  | none => owed

/-- A frame from a device that does as it is told.  If it answers a request, the device has read
the message of the request, and confirms it. -/
def Proper (c : Connection) (owed : List Envelope) (f : Frame) : Prop :=
  ∀ e, c.codec.read f = some e → c.registry.isPending e.xid = true →
    ∃ e₀ ∈ owed, e = ⟨e₀.xid, e₀.message.confirmation⟩

/-- A connection in order: the messages on their way are those of the requests that wait. -/
structure Carries (c : Connection) (owed : List Envelope) : Prop where
  connected : c.connected = true
  closing : c.closing = false
  writer : c.writer ≠ .stopped
  isOpen : c.wire.isOpen = true
  wire : c.wire.Sane
  faithful : c.codec.Faithful
  requests : (c.waiting.map Prod.fst).Perm ((c.underway owed).map Envelope.xid)

/-- A connection goes on, and messages only move along. -/
structure Relays (c : Connection) (owed : List Envelope) (c' : Connection)
    (owed' : List Envelope) : Prop where
  carries : c'.Carries owed'
  waiting : c'.waiting = c.waiting
  settled : c'.registry.settled = c.registry.settled
  underway : c'.underway owed' = c.underway owed
  capacity : c'.capacity = c.capacity
  distance : c'.distance owed' ≤ c.distance owed

variable {c c' : Connection} {owed owed' : List Envelope} {e e' : Envelope} {f : Frame} {x : Xid}
  {m : Message}

theorem Carries.relays_self (h : c.Carries owed) : c.Relays owed c owed :=
  ⟨h, rfl, rfl, rfl, rfl, Nat.le_refl _⟩

/-! ## The writer -/

/-- The message of a request that waits is found under its id. -/
theorem Carries.isPending (h : c.Carries owed) (he : e ∈ c.underway owed) :
    c.registry.isPending e.xid = true := by
  have hmem := h.requests.mem_iff.mpr (List.mem_map_of_mem he)
  rw [waiting, List.map_map] at hmem
  obtain ⟨p, hp, hx⟩ := List.mem_map.mp hmem
  rw [TransactionRegistry.isPending, TransactionRegistry.find?, List.find?_isSome]
  exact ⟨p, hp, decide_eq_true hx⟩

theorem waiting_markDispatched (r : TransactionRegistry) (x : Xid) :
    (r.markDispatched x).2.pending.map (fun p => (p.xid, p.slot)) =
        r.pending.map (fun p => (p.xid, p.slot)) ∧
      (r.markDispatched x).2.settled = r.settled := by
  rw [TransactionRegistry.markDispatched]
  split
  · rw [List.map_map]
    refine ⟨List.map_congr_left fun p _ => ?_, rfl⟩
    rw [Function.comp_apply]
    split <;> rfl
  · exact ⟨rfl, rfl⟩

/-- The writer takes the first message of the queue. -/
theorem Carries.relays_takeNext (h : c.Carries owed) (hidle : c.writer = .idle) :
    c.Relays owed c.takeNext owed ∧
      (c.outbound ≠ [] → c.takeNext.distance owed < c.distance owed) := by
  rw [takeNext]
  split
  · next hnone => exact ⟨h.relays_self, fun hne => absurd hnone hne⟩
  · next e rest hqueue =>
      have he : e ∈ c.underway owed := by
        rw [underway, hqueue]
        exact List.mem_append_right _ (.head _)
      obtain ⟨f, hwrite, hread⟩ := h.faithful e
      have hmark : c.registry.markDispatched e.xid =
          (true, (c.registry.markDispatched e.xid).2) := by
        rw [TransactionRegistry.markDispatched, if_pos (h.isPending he)]
      obtain ⟨hwaiting, hsettled⟩ := waiting_markDispatched c.registry e.xid
      rw [hmark]
      simp only [hwrite]
      generalize (c.registry.markDispatched e.xid).2 = registry at hwaiting hsettled ⊢
      have hway : ({ c with outbound := rest, registry, writer := .holding f } : Connection).underway
          owed = c.underway owed := by
        simp [underway, hqueue, hidle, Writer.frames, hread]
      refine ⟨⟨⟨h.connected, h.closing, by simp, h.isOpen, h.wire, h.faithful, ?_⟩,
        hwaiting, hsettled, hway, rfl, ?_⟩, fun _ => ?_⟩
      · rw [waiting, hwaiting, hway]
        exact h.requests
      · simp only [distance, hqueue, hidle, Writer.frames, List.length_cons, List.length_nil]
        omega
      · simp only [distance, hqueue, hidle, Writer.frames, List.length_cons, List.length_nil]
        omega

/-- The writer goes on, as long as somebody holds the connection. -/
theorem Carries.relays_writerStep (h : c.Carries owed) :
    c.Relays owed (c.writerStep true) owed ∧
      (c.writerReady true = true → (c.writerStep true).distance owed < c.distance owed) := by
  rw [writerStep, writerReady]
  split
  · next hstopped => exact absurd hstopped h.writer
  · next f hf =>
      simp only [h.isOpen, Bool.not_true, Bool.false_eq_true, if_false, Bool.false_or]
      split
      · have hunread := h.wire.unread_put f
        have hway : ({ c with wire := c.wire.put f, writer := .idle } : Connection).underway owed =
            c.underway owed := by
          simp [underway, hunread, hf, Writer.frames]
        have hcloser : ({ c with wire := c.wire.put f, writer := .idle } : Connection).distance
            owed < c.distance owed := by
          simp only [distance, hunread, hf, Writer.frames, List.length_append, List.length_cons,
            List.length_nil]
          omega
        refine ⟨⟨⟨h.connected, h.closing, by simp, h.isOpen, h.wire.put f, h.faithful, ?_⟩, rfl,
          rfl, hway, rfl, Nat.le_of_lt hcloser⟩, fun _ => hcloser⟩
        rw [hway]
        exact h.requests
      · next hfull => exact ⟨h.relays_self, fun hroom => absurd hroom hfull⟩
  · next hidle =>
      simp only [h.closing, Bool.not_true, Bool.or_false, Bool.false_eq_true, if_false,
        Bool.false_or]
      obtain ⟨hrelays, hcloser⟩ := h.relays_takeNext hidle
      exact ⟨hrelays, fun hready => hcloser (by simpa using hready)⟩

/-- Whoever opened the connection lets go of it, or its sweeper goes on without a request to
settle. -/
theorem Carries.relays_aside (h : c.Carries owed) (sweeper : Sweeper) (owned : Bool) :
    c.Relays owed { c with sweeper, owned } owed :=
  ⟨⟨h.connected, h.closing, h.writer, h.isOpen, h.wire, h.faithful, h.requests⟩, rfl, rfl, rfl,
    rfl, Nat.le_refl _⟩

/-- The sweeper sweeps while no request has waited too long. -/
theorem Carries.relays_sweep (h : c.Carries owed) {now : Instant}
    (hnone : c.registry.overdue now = []) : c.Relays owed (c.after (.sweep now)) owed := by
  have hregistry : c.registry.sweep now = c.registry := by
    rw [TransactionRegistry.sweep, hnone]
    rfl
  rw [after, sweep, hregistry]
  split
  · exact h.relays_self
  · exact h.relays_self
  · exact h.relays_aside _ c.owned

/-- The sweeper has nothing to notice while somebody holds the connection. -/
theorem Carries.sweeperStep_eq (h : c.Carries owed) : c.sweeperStep true = c := by
  rw [sweeperStep, h.closing]
  split <;> rfl

/-! ## The device -/

/-- The device reads the next frame, if there is one. -/
theorem Carries.relays_read (h : c.Carries owed) :
    c.Relays owed (c.after .read) (c.owedOnRead owed) ∧
      (c.wire.unread ≠ [] →
        (c.after .read).distance (c.owedOnRead owed) < c.distance owed) := by
  rw [after, owedOnRead]
  cases htake : c.wire.take? with
  | none =>
      have hnone : c.wire.unread = [] := by
        rw [Wire.take?, if_pos h.isOpen] at htake
        exact List.head?_eq_none_iff.mp (Option.map_eq_none_iff.mp htake)
      rw [Option.bind_none, Option.toList_none, List.append_nil]
      exact ⟨h.relays_self, fun hne => absurd hnone hne⟩
  | some r =>
      obtain ⟨f, wire⟩ := r
      obtain ⟨rest, hunread, hwire, hrest⟩ := Wire.take?_eq_some htake
      simp only [Option.bind_some]
      have hway : ({ c with wire } : Connection).underway (owed ++ (c.codec.read f).toList) =
          c.underway owed := by
        rw [underway, underway, hrest, hunread]
        cases hread : c.codec.read f <;> simp [hread]
      have hcloser : ({ c with wire } : Connection).distance (owed ++ (c.codec.read f).toList) <
          c.distance owed := by
        have hone : (c.codec.read f).toList.length ≤ 1 := by cases c.codec.read f <;> simp
        rw [distance, distance, hrest, hunread, List.length_append, List.length_cons]
        show _ + 2 * _ + 3 * c.writer.frames.length + 4 * c.outbound.length < _
        omega
      have hopen : wire.isOpen = true := by
        rw [hwire]
        exact h.isOpen
      refine ⟨⟨⟨h.connected, h.closing, h.writer, hopen, h.wire.take? htake, h.faithful, ?_⟩, rfl,
        rfl, hway, rfl, Nat.le_of_lt hcloser⟩, fun _ => hcloser⟩
      rw [hway]
      exact h.requests

/-! ## What was sent -/

/-- A message that was sent was confirmed, or its request waits and the message is on its way. -/
def Gives (c : Connection) (owed : List Envelope) (reply : Reply) (m : Message) : Prop :=
  reply.result? c.registry = some (.ok m.confirmation) ∨
    ∃ x slot, reply = .awaited x slot ∧ (x, slot) ∈ c.waiting ∧ ⟨x, m⟩ ∈ c.underway owed

/-- While nothing is settled, requests that wait go on to wait, and what is on its way stays so. -/
theorem Gives.mono {reply : Reply} (h : c.Gives owed reply m)
    (hsettled : c'.registry.settled = c.registry.settled) (hwaiting : c.waiting ⊆ c'.waiting)
    (hway : c.underway owed ⊆ c'.underway owed') : c'.Gives owed' reply m := by
  rcases h with hresult | ⟨x, slot, hreply, hw, hmem⟩
  · exact .inl (reply.result?_congr hsettled ▸ hresult)
  · exact .inr ⟨x, slot, hreply, hwaiting hw, hway hmem⟩

/-- Somebody has sent these messages, and nobody else waits for a reply. -/
structure Delivers (c : Connection) (owed : List Envelope) (sent : List (Reply × Message)) :
    Prop where
  carries : c.Carries owed
  gives : ∀ a ∈ sent, c.Gives owed a.1 a.2
  waiting : (c.waiting.map fun w => Reply.awaited w.1 w.2).reverse.Sublist (sent.map Prod.fst)

section Sent

variable {sent : List (Reply × Message)}

theorem mem_waiting {w : Xid × Slot} (hw : w ∈ c.waiting) :
    ∃ p ∈ c.registry.pending, p.xid = w.1 ∧ p.slot = w.2 := by
  obtain ⟨p, hp, rfl⟩ := List.mem_map.mp hw
  exact ⟨p, hp, rfl, rfl⟩

/-- There are no more messages on their way than were sent. -/
theorem Delivers.length_le (h : c.Delivers owed sent) :
    c.registry.pending.length ≤ sent.length ∧ c.outbound.length ≤ sent.length := by
  have hwaiting := h.waiting.length_le
  have hrequests := h.carries.requests.length_eq
  simp only [List.length_reverse, List.length_map, Connection.waiting, underway,
    List.length_append] at hwaiting hrequests
  omega

/-- Messages move along, and each is still confirmed or on its way. -/
theorem Delivers.relays (h : c.Delivers owed sent) (hr : c.Relays owed c' owed') :
    c'.Delivers owed' sent := by
  refine ⟨hr.carries, fun a ha => (h.gives a ha).mono hr.settled ?_ ?_, ?_⟩
  · exact hr.waiting ▸ List.Subset.refl _
  · exact hr.underway ▸ List.Subset.refl _
  · rw [hr.waiting]
    exact h.waiting

section Sound

variable (hsound : c.registry.Sound)
include hsound

/-- A request that waits has no result. -/
theorem result?_of_mem_waiting {slot : Slot} (hw : (x, slot) ∈ c.waiting) :
    (Reply.awaited x slot).result? c.registry = none := by
  obtain ⟨p, hp, -, rfl⟩ := mem_waiting hw
  exact hsound.result?_of_pending hp

/-- A result stays when a request that waits gets its own. -/
theorem result?_of_settled {p : Pending} (hp : p ∈ c.registry.pending) {r : TransactionRegistry}
    {o o' : Outcome Message} (hr : r.settled = (p.slot, o') :: c.registry.settled)
    {reply : Reply} (hresult : reply.result? c.registry = some o) : reply.result? r = some o := by
  cases reply with
  | failed x cause => exact hresult
  | awaited x slot =>
      have hne : slot ≠ p.slot := by
        rintro rfl
        cases hresult.symm.trans (hsound.result?_of_pending hp)
      rw [Reply.result?, TransactionRegistry.result?, hr, List.lookup_cons, beq_false_of_ne hne]
      exact hresult

/-- A message that was sent has no other result than its confirmation. -/
theorem Delivers.result (h : c.Delivers owed sent) {a : Reply × Message} (ha : a ∈ sent)
    {o : Outcome Message} (ho : a.1.result? c.registry = some o) : o = .ok a.2.confirmation := by
  rcases h.gives a ha with hresult | ⟨x, slot, hreply, hw, -⟩
  · exact Option.some.inj (ho.symm.trans hresult)
  · rw [hreply, result?_of_mem_waiting hsound hw] at ho
    cases ho

/-- When all results are known, nothing is on its way. -/
theorem Delivers.cleared (h : c.Delivers owed sent)
    (hall : ∀ a ∈ sent, (a.1.result? c.registry).isSome) : c.Delivers owed [] := by
  have hnone : c.waiting = [] := by
    refine List.eq_nil_iff_forall_not_mem.mpr fun w hw => ?_
    have hmem : Reply.awaited w.1 w.2 ∈ sent.map Prod.fst :=
      h.waiting.subset (List.mem_reverse.mpr (List.mem_map_of_mem hw))
    obtain ⟨a, ha, hreply⟩ := List.mem_map.mp hmem
    have hsome := hall a ha
    rw [hreply, result?_of_mem_waiting hsound hw] at hsome
    cases hsome
  refine ⟨h.carries, List.forall_mem_nil _, ?_⟩
  rw [hnone]
  exact .refl _

theorem Carries.nodup_xids (h : c.Carries owed) : ((c.underway owed).map Envelope.xid).Nodup := by
  refine h.requests.nodup_iff.mp ?_
  rw [Connection.waiting, List.map_map]
  exact hsound.xids

/-- A message is known by its transaction id. -/
theorem Carries.eq_of_xid (h : c.Carries owed) (he : e ∈ c.underway owed)
    (he' : e' ∈ c.underway owed) (hx : e.xid = e'.xid) : e = e' :=
  List.inj_on_of_nodup_map (h.nodup_xids hsound) he he' hx

end Sound

/-- When nothing is on its way, everything was confirmed. -/
theorem Delivers.confirmed (h : c.Delivers owed sent) (hnone : c.underway owed = [])
    {a : Reply × Message} (ha : a ∈ sent) :
    a.1.result? c.registry = some (.ok a.2.confirmation) := by
  refine (h.gives a ha).resolve_right fun ⟨x, slot, _, _, hmem⟩ => ?_
  rw [hnone] at hmem
  cases hmem

/-! ## Answers -/

/-- The device answers a message. -/
theorem receive_eq (hread : c.codec.read f = some ⟨x, m.confirmation⟩) {p : Pending}
    (hp : c.registry.find? x = some p) :
    c.receive f = { c with registry := { c.registry with
      pending := c.registry.pending.filter (·.xid ≠ x)
      settled := (p.slot, .ok m.confirmation) :: c.registry.settled } } := by
  rw [receive, hread]
  simp only [replyOf_confirmation, TransactionRegistry.settle, hp]

/-- A frame that answers no request changes nothing. -/
theorem Carries.receive_of_not_pending (h : c.Carries owed)
    (hnone : ∀ e, c.codec.read f = some e → c.registry.isPending e.xid = false) :
    c.receive f = c ∧ c.owedOnReceive owed f = owed := by
  rw [receive, owedOnReceive]
  cases hread : c.codec.read f with
  | none => exact ⟨rfl, rfl⟩
  | some e =>
      have hfree := hnone e hread
      refine ⟨?_, List.eraseP_of_forall_not fun e' he' => ?_⟩
      · have hfind : c.registry.find? e.xid = none := by
          simpa [TransactionRegistry.isPending] using hfree
        simp only [TransactionRegistry.settle, hfind]
      · -- What the device owes is waited for.
        have hpending := h.isPending (e := e')
          (List.mem_append_left _ (List.mem_append_left _ he'))
        intro hx
        rw [of_decide_eq_true hx, hfree] at hpending
        cases hpending

/-- The answer to a message takes it away. -/
theorem Carries.receive_answer (h : c.Carries owed) (hsound : c.registry.Sound) (he : e ∈ owed)
    (hread : c.codec.read f = some ⟨e.xid, e.message.confirmation⟩) :
    ∃ p ∈ c.registry.pending, p.xid = e.xid ∧
      c.receive f = { c with registry := { c.registry with
        pending := c.registry.pending.filter (·.xid ≠ e.xid)
        settled := (p.slot, .ok e.message.confirmation) :: c.registry.settled } } ∧
      (c.receive f).Carries (c.owedOnReceive owed f) ∧
      (∀ e' ∈ c.underway owed, e' = e ∨ e' ∈ (c.receive f).underway (c.owedOnReceive owed f)) ∧
      (c.receive f).distance (c.owedOnReceive owed f) < c.distance owed := by
  have hmem : e ∈ c.underway owed := List.mem_append_left _ (List.mem_append_left _ he)
  obtain ⟨p, hp⟩ := Option.isSome_iff_exists.mp (h.isPending hmem)
  obtain ⟨hpending, hx⟩ := TransactionRegistry.mem_of_find? hp
  have hreceive := receive_eq hread hp
  -- The device owes the others still.
  obtain ⟨e₁, l₁, l₂, -, hxid, howed, hrest⟩ :=
    List.exists_of_eraseP (p := fun e' => decide (e'.xid = e.xid)) he (decide_eq_true rfl)
  obtain rfl : e₁ = e := by
    refine h.eq_of_xid hsound ?_ hmem (of_decide_eq_true hxid)
    rw [howed]
    simp [underway]
  have howed' : c.owedOnReceive owed f = l₁ ++ l₂ := by
    rw [owedOnReceive, hread]
    exact hrest
  rw [howed', hreceive]
  refine ⟨p, hpending, hx, rfl, ⟨h.connected, h.closing, h.writer, h.isOpen, h.wire, h.faithful,
    ?_⟩, fun e' he' => ?_, ?_⟩
  · have hrequests := h.requests
    have hperm := (TransactionRegistry.perm_cons_filter_xid hsound.xids hpending).map Pending.xid
    rw [List.map_cons, hx] at hperm
    rw [waiting, List.map_map, underway, howed] at hrequests
    rw [waiting, List.map_map]
    refine (hperm.symm.trans (hrequests.trans ?_)).cons_inv
    show List.Perm _ (e₁.xid :: ((l₁ ++ l₂ ++ _ ++ c.outbound).map Envelope.xid))
    simp only [List.map_append, List.map_cons, List.append_assoc, List.cons_append]
    exact List.perm_middle
  · rw [underway, howed] at he'
    simp only [underway, List.mem_append, List.mem_cons] at he' ⊢
    rcases he' with ((hl₁ | rfl | hl₂) | hway) | hqueue
    · exact .inr (.inl (.inl (.inl hl₁)))
    · exact .inl rfl
    · exact .inr (.inl (.inl (.inr hl₂)))
    · exact .inr (.inl (.inr hway))
    · exact .inr (.inr hqueue)
  · rw [distance, distance, howed]
    simp only [List.length_append, List.length_cons]
    omega

/-- With the answer to a message this one is confirmed, and any other is as before. -/
theorem Gives.receive {reply : Reply} (h : c.Gives owed reply m) (hcarries : c.Carries owed)
    (hsound : c.registry.Sound) (he : e ∈ owed)
    (hread : c.codec.read f = some ⟨e.xid, e.message.confirmation⟩) :
    (c.receive f).Gives (c.owedOnReceive owed f) reply m := by
  obtain ⟨p, hp, hx, hreceive, -, hothers, -⟩ := hcarries.receive_answer hsound he hread
  rcases h with hresult | ⟨x, slot, rfl, hw, hway⟩
  · left
    rw [hreceive]
    exact result?_of_settled hsound hp rfl hresult
  · obtain ⟨q, hq, rfl, rfl⟩ := mem_waiting hw
    by_cases hsame : q.xid = e.xid
    · -- It is the message that is answered.
      have hmem : e ∈ c.underway owed := List.mem_append_left _ (List.mem_append_left _ he)
      obtain rfl := hcarries.eq_of_xid hsound hway hmem hsame
      obtain rfl : q = p := List.inj_on_of_nodup_map hsound.xids hq hp hx.symm
      left
      rw [hreceive]
      exact List.lookup_cons_self
    · refine .inr ⟨q.xid, q.slot, rfl, ?_, (hothers _ hway).resolve_left ?_⟩
      · rw [hreceive]
        exact List.mem_map_of_mem (List.mem_filter.mpr ⟨hq, decide_eq_true hsame⟩)
      · exact fun heq => hsame (congrArg Envelope.xid heq)

/-- A frame from a device that does as it is told confirms a message, or it changes nothing. -/
theorem Delivers.receive (h : c.Delivers owed sent) (hsound : c.registry.Sound)
    (hf : c.Proper owed f) :
    (c.receive f).Delivers (c.owedOnReceive owed f) sent ∧
      (c.receive f).distance (c.owedOnReceive owed f) ≤ c.distance owed ∧
      ((c.owedOnReceive owed f).length < owed.length →
        (c.receive f).distance (c.owedOnReceive owed f) < c.distance owed) := by
  by_cases hanswers : ∃ e, c.codec.read f = some e ∧ c.registry.isPending e.xid = true
  · obtain ⟨e', hread, hpending⟩ := hanswers
    obtain ⟨e, he, rfl⟩ := hf e' hread hpending
    obtain ⟨p, hp, hx, hreceive, hcarries, -, hcloser⟩ := h.carries.receive_answer hsound he hread
    refine ⟨⟨hcarries, fun a ha => ?_, ?_⟩, Nat.le_of_lt hcloser, fun _ => hcloser⟩
    · exact (h.gives a ha).receive h.carries hsound he hread
    · refine List.Sublist.trans ?_ h.waiting
      rw [hreceive]
      exact ((List.filter_sublist.map _).map _).reverse
  · obtain ⟨hreceive, howed⟩ := h.carries.receive_of_not_pending (f := f) fun e hread => by
      cases hpending : c.registry.isPending e.xid with
      | false => rfl
      | true => exact absurd ⟨e, hread, hpending⟩ hanswers
    rw [hreceive, howed]
    exact ⟨h, Nat.le_refl _, fun hlt => absurd hlt (Nat.lt_irrefl _)⟩

/-! ## Sending -/

/-- A message is sent under a new transaction id if there is room for it, and if not all ids are
taken. -/
theorem Carries.send_eq (h : c.Carries owed) (now : Instant) (m : Message)
    (hroom : c.outbound.length < c.capacity) (hids : c.registry.pending.length < UInt32.size) :
    ∃ x cursor, c.allocate.2.send now c.allocate.1 m = (.awaited x c.registry.slots, { c with
      registry := { c.registry with
        cursor
        pending := ⟨x, c.registry.slots, some (c.deadline now m), false⟩ :: c.registry.pending
        slots := c.registry.slots + 1 }
      outbound := c.outbound ++ [⟨x, m⟩] }) := by
  have hfree := TransactionRegistry.isPending_allocate hids
  obtain ⟨cursor, hallocate⟩ := TransactionRegistry.allocate_snd c.registry
  have hc : c.allocate =
      (c.registry.allocate.1, { c with registry := { c.registry with cursor } }) := by
    rw [allocate, ← hallocate]
  refine ⟨c.registry.allocate.1, cursor, ?_⟩
  rw [hc]
  generalize c.registry.allocate.1 = x at hfree ⊢
  have hregister : ({ c.registry with cursor } : TransactionRegistry).isPending x = false := hfree
  have hrefusal : ¬c.capacity ≤ c.outbound.length := Nat.not_le_of_lt hroom
  simp [Connection.send, h.connected, TransactionRegistry.register, hregister, refusal?, h.writer,
    hrefusal, deadline]

/-- A message that is sent joins the messages on their way if there is room for it, and if not
all transaction ids are taken. -/
theorem Delivers.send (h : c.Delivers owed sent) (now : Instant) (m : Message)
    (hroom : sent.length < c.capacity) (hids : sent.length < UInt32.size) :
    (c.allocate.2.send now c.allocate.1 m).2.Delivers owed
        (sent ++ [((c.allocate.2.send now c.allocate.1 m).1, m)]) ∧
      (c.allocate.2.send now c.allocate.1 m).2.capacity = c.capacity ∧
      (c.allocate.2.send now c.allocate.1 m).2.distance owed = c.distance owed + 4 := by
  obtain ⟨hpending, hqueue⟩ := h.length_le
  obtain ⟨x, cursor, hsend⟩ := h.carries.send_eq now m (Nat.lt_of_le_of_lt hqueue hroom)
    (Nat.lt_of_le_of_lt hpending hids)
  rw [hsend]
  generalize hafter : ({ c with
    registry := { c.registry with
      cursor
      pending := ⟨x, c.registry.slots, some (c.deadline now m), false⟩ :: c.registry.pending
      slots := c.registry.slots + 1 }
    outbound := c.outbound ++ [⟨x, m⟩] } : Connection) = c'
  have hway : c'.underway owed = c.underway owed ++ [⟨x, m⟩] := by
    rw [← hafter]
    exact (List.append_assoc ..).symm
  have hwaiting : c'.waiting = (x, c.registry.slots) :: c.waiting := by
    rw [← hafter]
    rfl
  have hcarries : c'.Carries owed := by
    refine hafter ▸ ⟨h.carries.connected, h.carries.closing, h.carries.writer, h.carries.isOpen,
      h.carries.wire, h.carries.faithful, ?_⟩
    rw [hafter, hway, hwaiting, List.map_cons, List.map_append]
    exact (h.carries.requests.cons x).trans (List.perm_append_singleton x _).symm
  have hgives : ∀ a ∈ sent ++ [(.awaited x c.registry.slots, m)], c'.Gives owed a.1 a.2 := by
    refine List.forall_mem_append.mpr ⟨fun a ha => ?_, List.forall_mem_singleton.mpr ?_⟩
    · have hsettled : c'.registry.settled = c.registry.settled := by rw [← hafter]
      refine (h.gives a ha).mono hsettled ?_ ?_
      · exact hwaiting ▸ List.subset_cons_self _ _
      · exact hway ▸ List.subset_append_left _ _
    · exact .inr ⟨x, _, rfl, hwaiting ▸ .head _, hway ▸ List.mem_concat_self⟩
  refine ⟨⟨hcarries, hgives, ?_⟩, ?_, ?_⟩
  · rw [hwaiting, List.map_cons, List.reverse_cons, List.map_append]
    exact h.waiting.append (.refl _)
  · rw [← hafter]
  · rw [← hafter]
    simp only [distance, List.length_append, List.length_singleton]
    omega

end Sent

end Connection

end Southbound
