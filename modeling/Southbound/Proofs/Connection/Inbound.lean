import Mathlib.Data.List.Nodup
import Southbound.Proofs.Connection.Requests
import Southbound.Proofs.Message.RoundTrip
import Southbound.Proofs.Transaction.Sweep

/-!
# Frames from the device

A device may send what it likes: frames that cannot be read, replies to requests that were
never made, and replies that come late or twice.  Such frames change nothing.  Any other
frame gives one request its result, and the request leaves the registry.  The other
requests, their results and all else of the connection stay as they are
(`Connection.receive_settles_one`).
-/

namespace Southbound

namespace TransactionRegistry

variable {r : TransactionRegistry} {p : Pending} {x : Xid}

theorem settle_of_not_pending (h : r.isPending x = false) (result : Outcome Message) :
    (r.settle x result).2 = r := by
  have hnone : r.find? x = none := by simpa [isPending] using h
  rw [settle, hnone]

/-- The request that is settled leaves, and those registered after and before it stay. -/
theorem Sound.settle_eq (h : r.Sound) (hp : r.find? x = some p) (result : Outcome Message) :
    ∃ later earlier, r.pending = later ++ p :: earlier ∧
      (r.settle x result).2 = { r with
        pending := later ++ earlier
        settled := (p.slot, result) :: r.settled } := by
  obtain ⟨hmem, rfl⟩ := mem_of_find? hp
  obtain ⟨later, earlier, he⟩ := List.append_of_mem hmem
  have hxids := h.xids
  rw [he, List.map_append, List.map_cons, List.nodup_middle, List.nodup_cons, ← List.map_append]
    at hxids
  have hkeep {q : Pending} (hq : q ∈ later ++ earlier) : q.xid ≠ p.xid :=
    fun hsame => hxids.1 (hsame ▸ List.mem_map_of_mem hq)
  have hlater : later.filter (·.xid ≠ p.xid) = later :=
    List.filter_eq_self.mpr fun q hq => by simpa using hkeep (List.mem_append_left _ hq)
  have hearlier : earlier.filter (·.xid ≠ p.xid) = earlier :=
    List.filter_eq_self.mpr fun q hq => by simpa using hkeep (List.mem_append_right _ hq)
  refine ⟨later, earlier, he, ?_⟩
  rw [TransactionRegistry.settle, hp]
  simp only
  rw [he, List.filter_append, List.filter_cons_of_neg (by simp), hlater, hearlier]

theorem find?_settle_self (r : TransactionRegistry) (x : Xid) (result : Outcome Message) :
    (r.settle x result).2.find? x = none := by
  rw [find?, List.find?_eq_none]
  intro q hq
  simpa using xid_ne_of_mem_settle hq

theorem result?_settle_of_ne (hp : r.find? x = some p) {slot : Slot} (hslot : slot ≠ p.slot)
    (result : Outcome Message) : (r.settle x result).2.result? slot = r.result? slot := by
  rw [settle, hp, result?, result?, List.lookup_cons, beq_false_of_ne hslot]

end TransactionRegistry

namespace Connection

/-! ## Connections as they can become -/

/-- A connection that was opened, to which things have happened and whose registry was called. -/
inductive Reachable : Connection → Prop where
  | opened {device : DeviceId} {codec : Codec} {wireCapacity : Nat} {config : Config}
      {now : Instant} {c : Connection} (h : open? device codec wireCapacity config now = some c) :
      Reachable c
  | after {c : Connection} (h : Reachable c) (e : Event) : Reachable (c.after e)
  | called {c : Connection} (h : Reachable c) (call : TransactionRegistry.Call) :
      Reachable { c with registry := (c.registry.perform call).2 }

variable {c : Connection} {p : Pending}

theorem Reachable.sound (h : c.Reachable) : c.registry.Sound := by
  induction h with
  | opened hopen => exact (accounted_open hopen).sound
  | @after c _ e ih =>
      obtain ⟨calls, he, -⟩ := registry_after c e
      exact he ▸ ih.after calls
  | called _ call ih => exact ih.perform call

/-! ## One frame -/

/-- A request gets its result and leaves, and nothing else changes. -/
structure Settles (c : Connection) (p : Pending) (result : Outcome Message)
    (c' : Connection) : Prop where
  waited : c.registry.result? p.slot = none
  /-- The requests that were registered after it and before it stay as they are. -/
  leaves : ∃ later earlier, c.registry.pending = later ++ p :: earlier ∧
    c' = { c with registry := { c.registry with
      pending := later ++ earlier
      settled := (p.slot, result) :: c.registry.settled } }
  found : ∀ x, c'.registry.find? x = if x = p.xid then none else c.registry.find? x
  results : ∀ slot,
    c'.registry.result? slot = if slot = p.slot then some result else c.registry.result? slot

/-- A request that is found under its transaction id is settled alone. -/
theorem settles_of_find? (h : c.registry.Sound) {x : Xid} (hp : c.registry.find? x = some p)
    (result : Outcome Message) :
    c.Settles p result { c with registry := (c.registry.settle x result).2 } := by
  obtain ⟨hmem, rfl⟩ := TransactionRegistry.mem_of_find? hp
  refine ⟨h.result?_of_pending hmem, ?_, fun y => ?_, fun slot => ?_⟩
  · obtain ⟨later, earlier, hpending, he⟩ := h.settle_eq hp result
    exact ⟨later, earlier, hpending, by rw [he]⟩
  · by_cases hy : y = p.xid
    · rw [if_pos hy, hy]
      exact TransactionRegistry.find?_settle_self ..
    · rw [if_neg hy]
      exact TransactionRegistry.find?_settle_of_ne (Ne.symm hy) result
  · by_cases hslot : slot = p.slot
    · rw [if_pos hslot, hslot]
      exact (h.settle _ result).result?_eq_some_iff.mpr
        (TransactionRegistry.settle_of_find? hp result)
    · rw [if_neg hslot]
      exact TransactionRegistry.result?_settle_of_ne hp hslot result

theorem receive_of_unread {f : Frame} (h : c.codec.read f = none) : c.receive f = c := by
  rw [receive, h]

theorem receive_of_read {f : Frame} {e : Envelope} (h : c.codec.read f = some e) :
    c.receive f = { c with registry := (c.registry.settle e.xid (replyOf e.message)).2 } := by
  rw [receive, h]

theorem receive_of_not_pending {f : Frame} {e : Envelope} (h : c.codec.read f = some e)
    (hfree : c.registry.isPending e.xid = false) : c.receive f = c := by
  rw [receive_of_read h, TransactionRegistry.settle_of_not_pending hfree]

/-- What the device rejects fails, and anything else that it sends is the reply. -/
theorem replyOf_cases (m : Message) :
    (∃ rejection, m = .error rejection ∧ replyOf m = .error (.deviceRejected rejection)) ∨
      (∀ rejection, m ≠ .error rejection) ∧ replyOf m = .ok m := by
  cases m with
  | error rejection => exact .inl ⟨rejection, rfl, rfl⟩
  | flowMod mod => exact .inr ⟨nofun, rfl⟩
  | groupMod mod => exact .inr ⟨nofun, rfl⟩
  | barrierRequest => exact .inr ⟨nofun, rfl⟩
  | ack => exact .inr ⟨nofun, rfl⟩
  | barrierReply => exact .inr ⟨nofun, rfl⟩

/-- A frame that cannot be read changes nothing, nor does one under a transaction id that no
request has.  Any other frame settles the request under its transaction id: as rejected if it
is an error, and with its message otherwise.  No other request changes, and nothing else of the
connection does.  Another frame under the same transaction id changes nothing then. -/
theorem receive_settles_one (h : c.Reachable) (f : Frame) :
    (c.codec.read f = none → c.receive f = c) ∧
    ∀ e, c.codec.read f = some e →
      (c.registry.isPending e.xid = false → c.receive f = c) ∧
      (c.registry.isPending e.xid = true → ∃ p ∈ c.registry.pending, p.xid = e.xid ∧
        ((∃ rejection, e.message = .error rejection ∧
            c.Settles p (.error (.deviceRejected rejection)) (c.receive f)) ∨
          (∀ rejection, e.message ≠ .error rejection) ∧
            c.Settles p (.ok e.message) (c.receive f))) ∧
      ∀ g e', c.codec.read g = some e' → e'.xid = e.xid →
        (c.receive f).receive g = c.receive f := by
  refine ⟨receive_of_unread, fun e he => ⟨receive_of_not_pending he, fun hpending => ?_, ?_⟩⟩
  · obtain ⟨p, hp⟩ := Option.isSome_iff_exists.mp hpending
    obtain ⟨hmem, hxid⟩ := TransactionRegistry.mem_of_find? hp
    have hsettles := settles_of_find? h.sound hp (replyOf e.message)
    rw [← receive_of_read he] at hsettles
    refine ⟨p, hmem, hxid, ?_⟩
    rcases replyOf_cases e.message with ⟨rejection, hm, hresult⟩ | ⟨hm, hresult⟩
    · exact .inl ⟨rejection, hm, hresult ▸ hsettles⟩
    · exact .inr ⟨hm, hresult ▸ hsettles⟩
  · intro g e' hg hxid
    have hcodec : (c.receive f).codec = c.codec := by rw [receive_of_read he]
    refine receive_of_not_pending (hcodec ▸ hg) ?_
    rw [receive_of_read he, hxid, TransactionRegistry.isPending,
      TransactionRegistry.find?_settle_self]
    rfl

/-! ## A reply that comes twice -/

namespace Repeated

/-- A connection as it is opened. -/
def fresh : Connection where
  registry := { device := ⟨"openflow:1"⟩ }
  capacity := 1024
  wire := { capacity := 64 }

/-- Two requests wait. -/
def waiting : Connection :=
  (fresh.after (.send 0 (some ⟨1⟩) .barrierRequest)).after (.send 0 (some ⟨2⟩) .barrierRequest)

/-- The reply to the second request. -/
def reply : Frame := Envelope.toFrame ⟨⟨2⟩, .barrierReply⟩

theorem reachable_waiting : waiting.Reachable := by
  have hopen : open? ⟨"openflow:1"⟩ .json 64 {} 0 = some fresh := rfl
  exact ((Reachable.opened hopen).after _).after _

theorem read_reply : waiting.codec.read reply = some ⟨⟨2⟩, .barrierReply⟩ :=
  Envelope.ofFrame?_toFrame _

end Repeated

/-- The reply to the second of two requests settles that request, and changes nothing when it
comes again. -/
theorem receive_settles_one_of_repeated :
    Repeated.waiting.Reachable ∧ Repeated.waiting.registry.isPending ⟨2⟩ = true ∧
      Repeated.waiting.Settles ⟨⟨2⟩, 1, some 30000, false⟩ (.ok .barrierReply)
        (Repeated.waiting.receive Repeated.reply) ∧
      (Repeated.waiting.receive Repeated.reply).receive Repeated.reply =
        Repeated.waiting.receive Repeated.reply := by
  have h := (receive_settles_one Repeated.reachable_waiting Repeated.reply).2 _ Repeated.read_reply
  have hpending : Repeated.waiting.registry.isPending ⟨2⟩ = true := by decide
  refine ⟨Repeated.reachable_waiting, hpending, ?_, h.2.2 Repeated.reply _ Repeated.read_reply rfl⟩
  obtain ⟨p, hp, hxid, hsettles⟩ := h.2.1 hpending
  obtain rfl : p = ⟨⟨2⟩, 1, some 30000, false⟩ := by
    have hfind := Repeated.reachable_waiting.sound.find?_of_mem hp
    rw [hxid] at hfind
    exact (Option.some.inj hfind).symm
  rcases hsettles with ⟨rejection, hm, -⟩ | ⟨-, hsettles⟩
  · cases hm
  · exact hsettles

end Connection

end Southbound
