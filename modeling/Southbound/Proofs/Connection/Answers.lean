import Southbound.Proofs.Connection.Ledger
import Southbound.Proofs.Connection.Requests
import Southbound.Proofs.Connection.Results
import Southbound.Proofs.Transaction.Settlement

/-!
# Answers of a device

A result is an *answer* if the device has given it: its reply, or its rejection.  All
other results are made up on this side of the wire: the request was withdrawn, could not
be queued or written, has waited long enough, or its connection has ended.

A connection that takes no frame from its device answers nothing
(`Connection.Unprompted.unanswered`).  A frame that it takes answers the request that is
found under the transaction id of the frame (`Connection.answers?`), wherever the message
of that request is on its way to the wire.  The ledger of the connection can say where, if
each message is marked with the slot that was opened for it (`Connection.requestOf?`).
-/

namespace Southbound

/-! ## Answers -/

/-- Whether the result of a message was given by the device. -/
def isAnswer : Outcome Message → Bool
  | .ok _ => true
  | .error (.deviceRejected _) => true
  | .error _ => false

/-- What comes from the device is an answer. -/
theorem isAnswer_replyOf (m : Message) : isAnswer (Connection.replyOf m) = true := by
  cases m <;> rfl

/-- A codec that refuses no message in the name of the device. -/
def Codec.Candid (codec : Codec) : Prop :=
  ∀ e cause, codec.write e = .error cause → isAnswer (.error cause) = false

/-- Every message can be written as a document. -/
theorem Codec.candid_json : Codec.json.Candid := by
  intro e cause h
  simp only [Codec.json, reduceCtorEq] at h

theorem Codec.candid_numbered (answer : Frame → Message) : (Codec.numbered answer).Candid := by
  intro e cause h
  cases h

/-! ## Registries -/

namespace TransactionRegistry

/-- Between two states of a registry nothing was answered. -/
def Unanswered (r r' : TransactionRegistry) : Prop :=
  ∀ x ∈ r'.settled, isAnswer x.2 = true → x ∈ r.settled

variable {r r' r'' : TransactionRegistry}

theorem Unanswered.of_eq (h : r'.settled = r.settled) : Unanswered r r' := fun _ hx _ => h ▸ hx

theorem Unanswered.trans (h : Unanswered r r') (h' : Unanswered r' r'') : Unanswered r r'' :=
  fun x hx ho => h x (h' x hx ho) ho

end TransactionRegistry

namespace Connection

open TransactionRegistry

variable {c c' : Connection}

/-! ## Connections that take no frame -/

/-- Whether a frame arrives from the device. -/
def Event.isReceive : Event → Bool
  | receive _ => true
  | _ => false

/-- Whatever happens to a connection but a frame from its device, nothing is answered. -/
theorem unanswered_after (hcodec : c.codec.Candid) {e : Event} (he : e.isReceive = false) :
    Unanswered c.registry (c.after e).registry := by
  intro x hx hanswer
  refine (yields_after c e x hx).resolve_right fun hyields => ?_
  generalize x.2 = o at hyields hanswer
  cases hyields with
  | answered _ => cases he
  | unwritten hwrite => exact absurd hanswer (Bool.eq_false_iff.mp (hcodec _ _ hwrite))
  | _ => cases hanswer

/-- What can become of a connection that takes no frame from its device. -/
def Unprompted (c c' : Connection) : Prop :=
  ∃ es : List Event, (∀ e ∈ es, e.isReceive = false) ∧ c' = c.go es

theorem Unprompted.refl (c : Connection) : Unprompted c c := ⟨[], by simp, rfl⟩

theorem Unprompted.once {e : Event} (he : e.isReceive = false) (c : Connection) :
    Unprompted c (c.after e) :=
  ⟨[e], by simpa using he, rfl⟩

/-- A connection that takes no frame from its device answers nothing. -/
theorem Unprompted.unanswered (h : Unprompted c c') (hcodec : c.codec.Candid) :
    Unanswered c.registry c'.registry := by
  obtain ⟨es, hes, rfl⟩ := h
  induction es generalizing c with
  | nil => exact .of_eq rfl
  | cons e es ih =>
      obtain ⟨he, hes⟩ := List.forall_mem_cons.mp hes
      have hcodec' : (c.after e).codec.Candid := (same_after c e).codec ▸ hcodec
      exact (unanswered_after hcodec he).trans (ih hcodec' hes)

/-! ## Frames that are taken -/

/-- The slot of the request that a frame from the device answers, if there is one. -/
def answers? (c : Connection) (f : Frame) : Option Slot :=
  (c.codec.read f).bind fun e => (c.registry.find? e.xid).map Pending.slot

/-- A frame from the device answers its request and no other. -/
theorem settled_receive (c : Connection) (f : Frame) :
    (c.receive f).registry.settled = c.registry.settled ∧ c.answers? f = none ∨
      ∃ slot o, c.answers? f = some slot ∧ isAnswer o = true ∧
        (c.receive f).registry.settled = (slot, o) :: c.registry.settled := by
  rw [receive, answers?]
  cases c.codec.read f with
  | none => exact .inl ⟨rfl, rfl⟩
  | some e =>
      simp only [settle, Option.bind_some]
      cases c.registry.find? e.xid with
      | none => exact .inl ⟨rfl, rfl⟩
      | some p => exact .inr ⟨p.slot, replyOf e.message, rfl, isAnswer_replyOf e.message, rfl⟩

/-- A frame from the device moves no message. -/
theorem writer_receive (c : Connection) (f : Frame) : (c.receive f).writer = c.writer := by
  rw [receive]
  split <;> rfl

/-! ## Messages and their requests -/

/-- The reply to a message that is sent has a new slot, or it is known and is no answer. -/
theorem reply_send (c : Connection) (now : Instant) (x : Xid) (m : Message) :
    (c.send now x m).1 = .awaited x c.registry.slots ∨
      ∃ cause, (c.send now x m).1 = .failed x cause ∧ isAnswer (.error cause) = false ∧
        cause ≠ .cancelled := by
  rcases reply_send_cases c now x m with hslot | hused | hlost
  · exact .inl hslot
  · exact .inr ⟨_, hused, rfl, nofun⟩
  · exact .inr ⟨_, hlost, rfl, nofun⟩

/-- The slot that was opened between two states for a message under its transaction id. -/
def requestOf? (c c' : Connection) (e : Envelope) : Option Slot :=
  (c'.registry.pending.find? fun p => p.xid = e.xid && c.registry.slots ≤ p.slot).map Pending.slot

/-- The slot that was opened for a message is a new one. -/
theorem slot_of_requestOf? {e : Envelope} {slot : Slot} (h : requestOf? c c' e = some slot)
    (hc : c'.registry.Sound) : c.registry.slots ≤ slot ∧ slot < c'.registry.slots := by
  obtain ⟨p, hp, rfl⟩ := Option.map_eq_some_iff.mp h
  have hslot : c.registry.slots ≤ p.slot := by
    have := List.find?_some hp
    simp only [Bool.and_eq_true, decide_eq_true_eq] at this
    exact this.2
  have hused : p.slot ∈ c'.registry.usedSlots :=
    List.mem_append_left _ (List.mem_map_of_mem (List.mem_of_find?_eq_some hp))
  exact ⟨hslot, List.mem_range.mp (hc.slots.mem_iff.mp hused)⟩

/-- A message that is sent joins alone, if it joins. -/
theorem joining_send_sublist (now : Instant) (x : Xid) (m : Message) {μ : Type}
    (mark : Envelope → μ) :
    ((joining mark c (c.send now x m).2).map Prod.snd).Sublist [⟨x, m⟩] := by
  rcases c.outbound_send now x m with hq | hq
  · simp [joining, hq]
  · simp [joining, hq]

theorem mem_joining_send {now : Instant} {x : Xid} {m : Message} {μ : Type} {mark : Envelope → μ}
    {a : μ × Envelope} (h : a ∈ joining mark c (c.send now x m).2) : a.2 = ⟨x, m⟩ :=
  List.mem_singleton.mp ((joining_send_sublist now x m mark).subset (List.mem_map_of_mem h))

end Connection

end Southbound
