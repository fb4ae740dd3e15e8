import Southbound.Proofs.Connection.Attended

/-!
# What is written

The writer takes messages from the queue, and what it takes is what is written: the
frames on the wire are those of the messages that were taken, in the order in which they
were sent (`Connection.Held.written_as_sent`).

A message is taken only while its request waits, and from then on the request cannot be
withdrawn.  So a message whose request was settled before is never written.  A
connection that is disconnected takes none, and all that is written after is the frame
that its writer held.

The invariant is `Held.Tally`, for runs in which each transaction id is used once.
-/

namespace Southbound

/-- The frame that the writer holds, if it holds one. -/
def Writer.frames : Writer → List Frame
  | .holding f => [f]
  | _ => []

namespace Connection

/-! ## Messages that are taken -/

/-- The message that the writer takes between two states. -/
def takenBetween (c c' : Connection) : List Envelope :=
  match c.writer, c'.writer with
  | .idle, .holding _ => c.outbound.take 1
  | _, _ => []

variable {c c' : Connection}

theorem takenBetween_of_ne_idle (h : c.writer ≠ .idle) : takenBetween c c' = [] := by
  rw [takenBetween]
  split
  · next hidle _ => exact absurd hidle h
  · rfl

theorem takenBetween_of_idle (h : c'.writer.frames = []) : takenBetween c c' = [] := by
  rw [takenBetween]
  split
  · next f _ hf =>
      rw [hf] at h
      cases h
  · rfl

theorem takenBetween_of_same (h : c'.writer = c.writer) : takenBetween c c' = [] := by
  cases hidle : c.writer with
  | idle => exact takenBetween_of_idle (by rw [h, hidle]; rfl)
  | holding f => exact takenBetween_of_ne_idle (by rw [hidle]; simp)
  | stopped => exact takenBetween_of_ne_idle (by rw [hidle]; simp)

/-- What the writer takes and what waits after it is what waited and what joined. -/
theorem taken_append_outbound {new : List Envelope} (hs : Transit c c')
    (hnew : ∀ joined, c'.outbound = c.outbound ++ joined → joined.Sublist new) :
    (takenBetween c c' ++ c'.outbound).Sublist (c.outbound ++ new) := by
  cases hs with
  | queued joined hq hw hsent =>
      rw [takenBetween_of_same hw, hq]
      exact (List.Sublist.refl c.outbound).append (hnew joined hq)
  | passed e hq hw hsent =>
      rw [takenBetween_of_same hw, hq]
      exact (List.sublist_cons_self e _).trans (List.sublist_append_left _ _)
  | taken e f hq hidle hwrite hw hsent =>
      have htaken : takenBetween c c' = [e] := by
        rw [takenBetween, hidle, hw, hq]
        rfl
      rw [htaken, hq]
      exact List.sublist_append_left _ _
  | put f hq hold hw hsent =>
      rw [takenBetween_of_ne_idle (by rw [hold]; simp), hq]
      exact List.sublist_append_left _ _
  | dropped hq hw hsent =>
      rw [takenBetween_of_idle (by rw [hw]; rfl), hq]
      exact List.nil_sublist _

/-- A message that is taken was the first in the queue of a connection that was not told
to end, and its request waits. -/
theorem takes_of_mem {e : Event} {m : Envelope} (hm : m ∈ takenBetween c (c.after e)) :
    c.closing = false ∧ c.writer = .idle ∧ c.registry.isPending m.xid = true ∧
      (c.after e).registry = (c.registry.markDispatched m.xid).2 := by
  rw [takenBetween] at hm
  split at hm
  · next f hidle hf =>
      obtain ⟨hclosing, htakes⟩ := takes_after hidle hf
      cases htakes with
      | intro m' f' hq hpending hregistry hwrite hw =>
          rw [hq] at hm
          obtain rfl : m = m' := List.mem_singleton.mp hm
          exact ⟨hclosing, hidle, hpending, hregistry⟩
  · cases hm

/-- What is on the wire and in the hands of the writer, with what it takes. -/
inductive Frames (c c' : Connection) (taken : List Frame) : Prop where
  /-- No frame is lost. -/
  | kept : c'.wire.sent ++ c'.writer.frames = c.wire.sent ++ c.writer.frames ++ taken →
      (c.writer = .stopped → c'.writer = .stopped) → Frames c c' taken
  /-- The writer ends, and the frame in its hands is lost. -/
  | ended : c'.writer = .stopped → c'.wire.sent = c.wire.sent → taken = [] → Frames c c' taken

theorem frames_of_transit (hs : Transit c c') (hcodec : c.codec = .json) :
    Frames c c' ((takenBetween c c').map Envelope.toFrame) := by
  cases hs with
  | queued joined hq hw hsent =>
      refine .kept ?_ hw.trans
      rw [takenBetween_of_same hw, hw, hsent]
      simp
  | passed e hq hw hsent =>
      refine .kept ?_ hw.trans
      rw [takenBetween_of_same hw, hw, hsent]
      simp
  | taken e f hq hidle hwrite hw hsent =>
      have htaken : takenBetween c c' = [e] := by
        rw [takenBetween, hidle, hw, hq]
        rfl
      rw [hcodec] at hwrite
      cases hwrite
      refine .kept ?_ (by simp [hidle])
      rw [htaken, hw, hsent, hidle]
      simp [Writer.frames]
  | put f hq hold hw hsent =>
      refine .kept ?_ (by simp [hold])
      rw [takenBetween_of_ne_idle (by rw [hold]; simp), hw, hold, hsent]
      simp [Writer.frames]
  | dropped hq hw hsent =>
      exact .ended hw hsent (by rw [takenBetween_of_idle (by rw [hw]; rfl)]; rfl)

theorem Transit.sent_mono (hs : Transit c c') : c.wire.sent <+: c'.wire.sent := by
  have hsame (h : c'.wire.sent = c.wire.sent) : c.wire.sent <+: c'.wire.sent :=
    h ▸ List.prefix_rfl
  cases hs with
  | queued joined hq hw hsent => exact hsame hsent
  | passed e hq hw hsent => exact hsame hsent
  | taken e f hq hidle hwrite hw hsent => exact hsame hsent
  | put f hq hold hw hsent => exact hsent ▸ List.prefix_append _ _
  | dropped hq hw hsent => exact hsame hsent

/-- Only messages that are sent join the queue. -/
theorem length_outbound_after (c : Connection) {e : Event} (he : e.isSend = false) :
    (c.after e).outbound.length ≤ c.outbound.length := by
  have hsame {c' : Connection} (h : c'.outbound = c.outbound) :
      c'.outbound.length ≤ c.outbound.length := Nat.le_of_eq (congrArg List.length h)
  cases e with
  | send now x m => cases he
  | withdraw reply => exact hsame rfl
  | receive f =>
      show (c.receive f).outbound.length ≤ _
      rw [receive]
      split <;> exact hsame rfl
  | disconnect =>
      show c.disconnect.outbound.length ≤ _
      rw [disconnect]
      split <;> exact hsame rfl
  | forget => exact hsame rfl
  | writer held =>
      show (c.writerStep held).outbound.length ≤ _
      rw [writerStep]
      split
      · exact hsame rfl
      · split
        · exact Nat.zero_le _
        · split <;> exact hsame rfl
      · split
        · exact Nat.zero_le _
        · rw [takeNext]
          split
          · exact hsame rfl
          · next hq =>
              rw [hq]
              split
              · exact Nat.le_succ _
              · split <;> exact Nat.le_succ _
  | sweeper held =>
      show (c.sweeperStep held).outbound.length ≤ _
      rw [sweeperStep]
      split
      · split
        · exact hsame rfl
        · split <;> exact hsame rfl
      · exact hsame rfl
  | sweep now =>
      show (c.sweep now).outbound.length ≤ _
      rw [sweep]
      split <;> exact hsame rfl
  | read =>
      obtain ⟨wire, he⟩ := c.after_read
      exact hsame (by rw [he])
  | closeWire => exact hsame rfl

/-- The request of a message that is sent waits in the slot of the reply. -/
theorem awaited_of_mem_send {t : Instant} {x : Xid} {m : Message} {q : Pending}
    (hnew : ∀ p ∈ c.registry.pending, p.xid ≠ x) (hq : q ∈ (c.send t x m).2.registry.pending)
    (hx : q.xid = x) : (c.send t x m).1 = .awaited x q.slot := by
  have hfree : c.registry.isPending x = false := by
    rw [TransactionRegistry.isPending, TransactionRegistry.find?, Option.isSome_eq_false_iff,
      Option.isNone_iff_eq_none, List.find?_eq_none]
    simpa using hnew
  have hold : q ∉ c.registry.pending := fun hmem => hnew q hmem hx
  rw [send] at hq ⊢
  cases hup : c.connected with
  | false =>
      rw [hup] at hq
      exact absurd hq hold
  | true =>
      simp only [hup, TransactionRegistry.register, hfree] at hq ⊢
      cases hrefusal : c.refusal? with
      | some cause =>
          rw [hrefusal] at hq
          exact absurd hx (TransactionRegistry.xid_ne_of_mem_settle hq)
      | none =>
          rw [hrefusal] at hq
          cases List.mem_cons.mp hq with
          | inl hhead => rw [hhead]; rfl
          | inr hmem => exact absurd hmem hold

namespace Held

variable {h : Held} {u : Use}

/-! ## Runs -/

/-- The message that the writer takes in a use. -/
def taken (h : Held) (u : Use) : List Envelope := takenBetween h.connection (h.after u).connection

/-- The messages that the writer takes in a run. -/
def takenIn (h : Held) : List Use → List Envelope
  | [] => []
  | u :: us => h.taken u ++ (h.after u).takenIn us

theorem takenIn_append (h : Held) (us us' : List Use) :
    h.takenIn (us ++ us') = h.takenIn us ++ (h.go us).takenIn us' := by
  induction us generalizing h with
  | nil => rfl
  | cons u us ih => rw [List.cons_append, takenIn, ih, takenIn, go_cons, List.append_assoc]

theorem transit_after (h : Held) (u : Use) : Transit h.connection (h.after u).connection := by
  rcases h.connection_after u with hsame | ⟨-, he⟩ | ⟨e, -, he⟩
  · rw [hsame]
    exact .of_eq rfl rfl rfl
  · rw [he]
    exact .of_eq rfl rfl rfl
  · rw [he]
    exact Connection.transit_after h.connection e

theorem connection_after_send (hheld : h.isHeld = true) (t : Instant) (x : Xid) (m : Message) :
    (h.after (.send t x m)).connection = (h.connection.send t x m).2 := by
  have hevent : h.event? (.send t x m) = some (.send t (some x) m) := if_pos hheld
  exact connection_after_of_event hevent

/-- What joins the queue in a use was sent in it. -/
theorem joined_sublist {joined : List Envelope}
    (hjoined : (h.after u).connection.outbound = h.connection.outbound ++ joined) :
    joined.Sublist (h.sent u) := by
  have hnil (hlength : (h.after u).connection.outbound.length ≤ h.connection.outbound.length) :
      joined.Sublist (h.sent u) := by
    rw [hjoined, List.length_append] at hlength
    rw [List.length_eq_zero_iff.mp (by omega : joined.length = 0)]
    exact List.nil_sublist _
  have hsame {c : Connection} (he : (h.after u).connection = c)
      (hq : c.outbound = h.connection.outbound) : joined.Sublist (h.sent u) :=
    hnil (Nat.le_of_eq (by rw [he, hq]))
  rcases h.connection_after u with he | ⟨-, he⟩ | ⟨e, hevent, he⟩
  · exact hsame he rfl
  · exact hsame he rfl
  · cases hsend : e.isSend with
    | false => exact hnil (by rw [he]; exact h.connection.length_outbound_after hsend)
    | true =>
        obtain ⟨y, hy⟩ : ∃ y, e.xid? h.connection = some y := by
          cases e with
          | send t x m => cases x <;> exact ⟨_, rfl⟩
          | _ => cases hsend
        obtain ⟨t, m, rfl, hheld, -⟩ := mem_sent_of_xid? hevent hy
        have hsent := connection_after_send hheld t y m
        cases h.connection.outbound_send t y m with
        | inl hq => exact hsame hsent hq
        | inr hq =>
            rw [hsent, hq] at hjoined
            have hsame := List.append_cancel_left hjoined
            simp [← hsame, sent, hheld]

/-- A message that is taken was the first in the queue of a connection that was not told
to end, and its request waits. -/
theorem takes_of_mem_taken {m : Envelope} (hm : m ∈ h.taken u) :
    h.connection.closing = false ∧ h.connection.writer = .idle ∧
      h.connection.registry.isPending m.xid = true ∧
      (h.after u).connection.registry = (h.connection.registry.markDispatched m.xid).2 := by
  rcases h.connection_after u with he | ⟨-, he⟩ | ⟨e, -, he⟩
  · rw [taken, takenBetween_of_same (by rw [he])] at hm
    cases hm
  · rw [taken, takenBetween_of_same (by rw [he]; rfl)] at hm
    cases hm
  · rw [taken, he] at hm
    rw [he]
    exact takes_of_mem hm

/-! ## The invariant -/

/-- What was sent and what the writer has taken come to the connection as it is. -/
structure Tally (h : Held) (sent taken : List Envelope) : Prop where
  codec : h.connection.codec = .json
  /-- What was taken and what waits was sent, in this order. -/
  order : (taken ++ h.connection.outbound).Sublist sent
  /-- What was taken was written, but for the frame in the hands of the writer, or for
  what was lost when the writer ended. -/
  frames :
    h.connection.wire.sent ++ h.connection.writer.frames = taken.map Envelope.toFrame ∨
      h.connection.writer = .stopped ∧ h.connection.wire.sent <+: taken.map Envelope.toFrame
  /-- The request of a message that was taken is dispatched. -/
  dispatched : ∀ p ∈ h.connection.registry.pending, p.xid ∈ taken.map Envelope.xid →
    p.dispatched = true

namespace Tally

variable {sent taken : List Envelope}

theorem of_open {device : DeviceId} {wireCapacity : Nat} {config : Config} {now : Instant}
    {c : Connection} (hopen : open? device .json wireCapacity config now = some c) :
    Tally ⟨c, 1⟩ [] [] := by
  obtain rfl := eq_of_open hopen
  exact ⟨rfl, .refl _, .inl rfl, List.forall_mem_nil _⟩

theorem written (h' : Tally h sent taken) :
    h.connection.wire.sent <+: taken.map Envelope.toFrame := by
  cases h'.frames with
  | inl hall => exact hall ▸ List.prefix_append _ _
  | inr hstopped => exact hstopped.2

theorem frames_after (h' : Tally h sent taken) :
    (h.after u).connection.wire.sent ++ (h.after u).connection.writer.frames =
        (taken ++ h.taken u).map Envelope.toFrame ∨
      (h.after u).connection.writer = .stopped ∧
        (h.after u).connection.wire.sent <+: (taken ++ h.taken u).map Envelope.toFrame := by
  rw [List.map_append]
  cases frames_of_transit (h.transit_after u) h'.codec with
  | kept hkept hstays =>
      cases h'.frames with
      | inl hall => exact .inl (by rw [hkept, hall]; rfl)
      | inr hstopped =>
          obtain ⟨hw, hprefix⟩ := hstopped
          have hsent : (h.after u).connection.wire.sent = h.connection.wire.sent := by
            rw [hstays hw, hw, takenBetween_of_ne_idle (by rw [hw]; simp)] at hkept
            simpa [Writer.frames] using hkept
          exact .inr ⟨hstays hw, by rw [hsent]; exact hprefix.trans (List.prefix_append _ _)⟩
  | ended hstopped hsent hnone =>
      exact .inr ⟨hstopped, by rw [hsent]; exact h'.written.trans (List.prefix_append _ _)⟩

/-- A message is not sent under the transaction id of one that was taken. -/
theorem dispatched_after (h' : Tally h sent taken)
    (hxids : ((sent ++ h.sent u).map Envelope.xid).Nodup) :
    ∀ q ∈ (h.after u).connection.registry.pending,
      q.xid ∈ (taken ++ h.taken u).map Envelope.xid → q.dispatched = true := by
  intro q hq hx
  rw [List.map_append, List.mem_append] at hx
  cases hx with
  | inl hold =>
      rcases mem_pending_after hq with ⟨p, hp, hbecomes⟩ | ⟨-, -, -, hnew⟩
      · exact hbecomes.dispatched (h'.dispatched p hp (hbecomes.xid ▸ hold))
      · have hsublist := (List.sublist_append_left _ _).trans h'.order
        have hsent := (hsublist.map Envelope.xid).subset hold
        rw [List.map_append] at hxids
        exact absurd rfl ((List.nodup_append.mp hxids).2.2 _ hsent _ hnew)
  | inr hnew =>
      obtain ⟨m, hm, he⟩ := List.mem_map.mp hnew
      obtain ⟨-, -, -, hregistry⟩ := takes_of_mem_taken hm
      rw [hregistry] at hq
      exact TransactionRegistry.dispatched_of_mem_markDispatched hq he.symm

theorem after (h' : Tally h sent taken) (hxids : ((sent ++ h.sent u).map Envelope.xid).Nodup) :
    Tally (h.after u) (sent ++ h.sent u) (taken ++ h.taken u) := by
  refine ⟨?_, ?_, h'.frames_after, h'.dispatched_after hxids⟩
  · exact (same_go [u]).codec.trans h'.codec
  · have hstep : (h.taken u ++ (h.after u).connection.outbound).Sublist
        (h.connection.outbound ++ h.sent u) :=
      taken_append_outbound (h.transit_after u) fun _ => joined_sublist
    have hold : (taken ++ (h.connection.outbound ++ h.sent u)).Sublist (sent ++ h.sent u) := by
      rw [← List.append_assoc]
      exact h'.order.append (.refl _)
    rw [List.append_assoc]
    exact ((List.Sublist.refl taken).append hstep).trans hold

theorem go (h' : Tally h sent taken) (us : List Use)
    (hxids : ((sent ++ h.sentIn us).map Envelope.xid).Nodup) :
    Tally (h.go us) (sent ++ h.sentIn us) (taken ++ h.takenIn us) := by
  induction us generalizing h sent taken with
  | nil =>
      rw [sentIn, takenIn, List.append_nil, List.append_nil]
      exact h'
  | cons u us ih =>
      rw [sentIn, ← List.append_assoc] at hxids ⊢
      rw [takenIn, ← List.append_assoc]
      have hfirst : ((sent ++ h.sent u).map Envelope.xid).Nodup :=
        hxids.sublist ((List.sublist_append_left _ _).map Envelope.xid)
      exact ih (h'.after hfirst) hxids

/-- A request cannot be withdrawn once its message was taken. -/
theorem cancel_taken (h' : Tally h sent taken) {e : Envelope} (he : e ∈ taken) (slot : Slot) :
    (Reply.awaited e.xid slot).cancel h.connection.registry = (false, h.connection.registry) := by
  show TransactionRegistry.cancel _ e.xid = _
  rw [TransactionRegistry.cancel]
  split
  · rfl
  · next p hfind =>
      obtain ⟨hp, hx⟩ := TransactionRegistry.mem_of_find? hfind
      rw [h'.dispatched p hp (hx ▸ List.mem_map_of_mem he)]
      rfl

end Tally

/-! ## Messages that are not written -/

section Unwritten

variable {x : Xid}

/-- No message is taken whose request does not wait and that is not sent again. -/
theorem xid_notMem_takenIn {us : List Use}
    (hpending : ∀ p ∈ h.connection.registry.pending, p.xid ≠ x)
    (hsent : x ∉ (h.sentIn us).map Envelope.xid) : x ∉ (h.takenIn us).map Envelope.xid := by
  induction us generalizing h with
  | nil => exact List.not_mem_nil
  | cons u us ih =>
      rw [sentIn, List.map_append, List.mem_append, not_or] at hsent
      rw [takenIn, List.map_append, List.mem_append, not_or]
      constructor
      · intro htaken
        obtain ⟨m, hm, rfl⟩ := List.mem_map.mp htaken
        obtain ⟨-, -, hwaits, -⟩ := takes_of_mem_taken hm
        obtain ⟨p, hp⟩ := Option.isSome_iff_exists.mp hwaits
        obtain ⟨hmem, hx⟩ := TransactionRegistry.mem_of_find? hp
        exact hpending p hmem hx
      · refine ih (fun q hq => ?_) hsent.2
        rcases mem_pending_after hq with ⟨p, hp, hbecomes⟩ | ⟨-, -, -, hnew⟩
        · rw [hbecomes.xid]
          exact hpending p hp
        · exact fun hx => hsent.1 (hx ▸ hnew)

/-- A message whose request was settled before it was taken is not taken any more. -/
theorem notMem_takenIn_of_settled {t : Instant} {m : Message} {between later : List Use}
    (haccounted : h.connection.Accounted) (hheld : h.isHeld = true)
    (hpending : ∀ p ∈ h.connection.registry.pending, p.xid ≠ x)
    (hsent : x ∉ ((h.after (.send t x m)).sentIn (between ++ later)).map Envelope.xid)
    (hsettled : ((h.connection.send t x m).1.result?
      ((h.after (.send t x m)).go between).connection.registry).isSome = true) :
    x ∉ (((h.after (.send t x m)).go between).takenIn later).map Envelope.xid := by
  rw [sentIn_append, List.map_append, List.mem_append, not_or] at hsent
  refine xid_notMem_takenIn (fun q hq hx => ?_) hsent.2
  cases mem_pending_go hq with
  | inr hagain => exact hsent.1 (hx ▸ hagain)
  | inl hfirst =>
      obtain ⟨p, hp, hbecomes⟩ := hfirst
      rw [connection_after_send hheld] at hp
      have hreply := awaited_of_mem_send hpending hp (hbecomes.xid.symm.trans hx)
      have hnone : ((h.after (.send t x m)).go between).connection.registry.result? q.slot = none :=
        (accounted_go haccounted (.send t x m :: between)).sound.result?_of_pending hq
      rw [hreply, ← hbecomes.slot, Reply.result?, hnone] at hsettled
      cases hsettled

end Unwritten

/-! ## Connections that end -/

theorem ending_after (hends : h.connection.Ending) (u : Use) : (h.after u).connection.Ending :=
  inv_after Ending (fun _ e hc => hc.after e) (fun _ hc => hc) hends u

/-- A connection that is disconnected ends. -/
theorem ending_disconnect {c : Connection} (hc : c.connected = false → c.Ending) :
    c.disconnect.Ending ∧ c.disconnect.writer = c.writer ∧ c.disconnect.wire = c.wire := by
  cases hup : c.connected with
  | true =>
      rw [disconnect, if_pos hup]
      exact ⟨.inl rfl, rfl, rfl⟩
  | false =>
      rw [disconnect, if_neg (by simp [hup])]
      exact ⟨hc hup, rfl, rfl⟩

/-- A connection that accepts no messages ends. -/
theorem ending_of_lost (hstart : h.connection.connected = true) (us : List Use) :
    (h.go us).connection.connected = false → (h.go us).connection.Ending := by
  refine inv_go (fun h' => h'.connection.connected = false → h'.connection.Ending)
    (fun h' u hh => ?_) (fun hlost => by rw [hstart] at hlost; cases hlost) us
  refine inv_after (fun c => c.connected = false → c.Ending) (fun c e hc hlost => ?_)
    (fun _ hc => hc) hh u
  cases c.connected_after_or_ending e with
  | inl hsame => exact (hc (hsame.symm.trans hlost)).after e
  | inr hends => exact hends

/-- The writer of a connection that ends takes nothing. -/
theorem taken_of_ending (hends : h.connection.Ending) : h.taken u = [] := by
  refine List.eq_nil_iff_forall_not_mem.mpr fun m hm => ?_
  obtain ⟨hclosing, hidle, -, -⟩ := takes_of_mem_taken hm
  cases hends with
  | inl htold =>
      rw [htold] at hclosing
      cases hclosing
  | inr hstopped =>
      rw [hstopped] at hidle
      cases hidle

/-- All that is written on a connection that ends is the frame that its writer holds. -/
theorem sent_go_of_ending (hcodec : h.connection.codec = .json) (hends : h.connection.Ending)
    (us : List Use) : ∃ last, last <+: h.connection.writer.frames ∧
      (h.go us).connection.wire.sent = h.connection.wire.sent ++ last := by
  induction us generalizing h with
  | nil => exact ⟨[], List.nil_prefix, (List.append_nil _).symm⟩
  | cons u us ih =>
      have hcodec' : (h.after u).connection.codec = .json := (same_go [u]).codec.trans hcodec
      obtain ⟨last, hlast, hsent⟩ := ih hcodec' (ending_after hends u)
      obtain ⟨first, hfirst⟩ := (h.transit_after u).sent_mono
      rw [go_cons, hsent, ← hfirst, List.append_assoc]
      refine ⟨first ++ last, ?_, rfl⟩
      cases frames_of_transit (h.transit_after u) hcodec with
      | kept hkept hstays =>
          have hnone : takenBetween h.connection (h.after u).connection = [] :=
            taken_of_ending hends
          rw [hnone, List.map_nil, List.append_nil, ← hfirst, List.append_assoc] at hkept
          rw [← List.append_cancel_left hkept]
          exact (List.prefix_append_right_inj first).mpr hlast
      | ended hstopped hsame hnone =>
          have hnothing : first = [] := by
            rw [hsame] at hfirst
            simpa using hfirst
          rw [hstopped] at hlast
          rw [hnothing, List.prefix_nil.mp hlast]
          exact List.nil_prefix

/-- All that is written after a connection was disconnected is the frame that its writer
held. -/
theorem sent_go_disconnect (hcodec : h.connection.codec = .json)
    (hlost : h.connection.connected = false → h.connection.Ending) (hheld : h.isHeld = true)
    (us : List Use) : ∃ last, last <+: h.connection.writer.frames ∧
      (h.go (.disconnect :: us)).connection.wire.sent = h.connection.wire.sent ++ last := by
  have hevent : h.event? .disconnect = some .disconnect := if_pos hheld
  have hafter : (h.after .disconnect).connection = h.connection.disconnect :=
    connection_after_of_event hevent
  obtain ⟨hends, hwriter, hwire⟩ := ending_disconnect hlost
  have hcodec' : (h.after .disconnect).connection.codec = .json :=
    (same_go [.disconnect]).codec.trans hcodec
  obtain ⟨last, hlast, hsent⟩ := sent_go_of_ending hcodec' (hafter ▸ hends) us
  rw [hafter, hwriter] at hlast
  rw [hafter, hwire] at hsent
  exact ⟨last, hlast, hsent⟩

/-! ## All runs -/

/-- The frames that are written are those of messages that were sent, in the same order
and each once at most.  A message whose request was settled before the writer took it is
not taken any more, and what was taken cannot be withdrawn.  After a connection was
disconnected, at most the frame that its writer held is written. -/
theorem written_as_sent {device : DeviceId} {wireCapacity : Nat} {config : Config} {now : Instant}
    {c : Connection} (hopen : open? device .json wireCapacity config now = some c)
    {h : Held} (hstart : h = ⟨c, 1⟩) (us : List Use)
    (hxids : ((h.sentIn us).map Envelope.xid).Nodup) :
    ((h.takenIn us).Sublist (h.sentIn us) ∧ ((h.takenIn us).map Envelope.xid).Nodup ∧
      (h.go us).connection.wire.sent <+: (h.takenIn us).map Envelope.toFrame) ∧
    (∀ before t x m between later, us = before ++ .send t x m :: (between ++ later) →
      (h.go before).isHeld = true →
      (((h.go before).connection.send t x m).1.result?
        (h.go (before ++ .send t x m :: between)).connection.registry).isSome = true →
      x ∉ (h.takenIn (before ++ .send t x m :: between)).map Envelope.xid →
      x ∉ (h.takenIn us).map Envelope.xid) ∧
    (∀ e ∈ h.takenIn us, ∀ slot, (Reply.awaited e.xid slot).cancel (h.go us).connection.registry =
      (false, (h.go us).connection.registry)) ∧
    (∀ before later, us = before ++ .disconnect :: later → (h.go before).isHeld = true →
      ∃ last, last <+: (h.go before).connection.writer.frames ∧
        (h.go us).connection.wire.sent = (h.go before).connection.wire.sent ++ last) := by
  subst hstart
  have haccounted := accounted_open hopen
  have htally := (Tally.of_open hopen).go us hxids
  have horder := (List.sublist_append_left _ _).trans htally.order
  refine ⟨⟨horder, hxids.sublist (horder.map _), htally.written⟩, ?_, ?_, ?_⟩
  · intro before t x m between later hus hheld hsettled hnot
    have hsplit : us = (before ++ .send t x m :: between) ++ later := by simp [hus]
    rw [hus, sentIn_append, sentIn, sent, if_pos hheld, List.map_append, List.map_append] at hxids
    obtain ⟨-, hagain, hdisjoint⟩ := List.nodup_append.mp hxids
    have hfirst : x ∉ (sentIn ⟨c, 1⟩ before).map Envelope.xid := fun hmem =>
      hdisjoint x hmem x (List.mem_cons_self ..) rfl
    rw [go_append, go_cons] at hsettled
    rw [hsplit, takenIn_append, List.map_append, List.mem_append, not_or, go_append, go_cons]
    refine ⟨hnot, notMem_takenIn_of_settled (accounted_go haccounted before) hheld ?_
      (List.nodup_cons.mp hagain).1 hsettled⟩
    intro p hp hx
    rcases mem_pending_go hp with ⟨p₀, hp₀, -⟩ | hmem
    · rw [eq_of_open hopen] at hp₀
      cases hp₀
    · exact hfirst (hx ▸ hmem)
  · exact fun e he slot => htally.cancel_taken he slot
  · intro before later hus hheld
    have hup : c.connected = true := by rw [eq_of_open hopen]
    have hcodec : c.codec = .json := by rw [eq_of_open hopen]
    have hcodec' := (same_go (h := ⟨c, 1⟩) before).codec.trans hcodec
    rw [hus, go_append]
    exact sent_go_disconnect hcodec' (ending_of_lost (h := ⟨c, 1⟩) hup before) hheld later

/-- A message is withdrawn while it waits behind another one.  It is never written, and
the other one, which the writer holds when the connection is disconnected, is. -/
theorem written_as_sent_of_withdraw :
    let us : List Use := [.send 0 ⟨1⟩ .barrierRequest, .send 0 ⟨2⟩ .barrierRequest, .writer,
      .withdraw (.awaited ⟨1⟩ 0), .withdraw (.awaited ⟨2⟩ 1), .disconnect, .writer, .writer]
    ∃ c, open? ⟨"openflow:1"⟩ .json 1 {} 0 = some c ∧
      takenIn ⟨c, 1⟩ us = [⟨⟨1⟩, .barrierRequest⟩] ∧ ⟨2⟩ ∉ (takenIn ⟨c, 1⟩ us).map Envelope.xid ∧
      ∃ last, last <+: [Envelope.toFrame ⟨⟨1⟩, .barrierRequest⟩] ∧
        (go ⟨c, 1⟩ us).connection.wire.sent = [] ++ last := by
  intro us
  refine ⟨_, rfl, rfl, ?_⟩
  have hopen : open? ⟨"openflow:1"⟩ .json 1 {} 0 = some _ := rfl
  obtain ⟨-, hsettled, -, hended⟩ := written_as_sent hopen rfl us (by decide)
  exact ⟨hsettled [us[0]] 0 ⟨2⟩ .barrierRequest [us[2], us[3], us[4]] [us[5], us[6], us[7]] rfl rfl
    rfl (by decide), hended [us[0], us[1], us[2], us[3], us[4]] [us[6], us[7]] rfl rfl⟩

end Held

end Connection

end Southbound
