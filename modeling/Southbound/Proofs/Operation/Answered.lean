import Mathlib.Data.List.Forall2
import Southbound.Proofs.Operation.Discipline

/-!
# Records and the answers that they rest on

An operation records something of its device, or forgets it, when the device has answered
the messages that are about it.  As a discipline of programs (`answered`): what is known
is which messages were sent and what came of them (`Heard`), and an effect that changes
what is recorded may come next only if its messages count as done
(`Effect.RestsOn`).

A message counts as done if the device has confirmed it (`GroupExistsRule.confirms`).  In
a batch one that was withdrawn counts too (`Request.Counts`): `batchOutcome` passes over
its failure, so the batch can succeed without it.  A message that is waited for alone has
to be confirmed.

A request that succeeds speaks for all its messages (`Request.Fulfilled`): each of them was
sent and counts as done.
-/

namespace Southbound

/-! ## Messages that count as done -/

/-- Whether the result of a message says that it was done, or that the group which it adds
was there already. -/
def GroupExistsRule.confirms (rule : GroupExistsRule) : Message → Outcome Message → Bool
  | _, .ok _ => true
  | .groupMod ⟨.add, _⟩, .error (.deviceRejected r) => rule.matches r
  | _, .error _ => false

/-- Whether the group of a flow was to be added. -/
def Dependency.isPush : Dependency → Bool
  | pushed _ => true
  | alreadyPresent _ => true
  | _ => false

namespace Request

/-- The changes of flows that a request makes. -/
def flowMods : Request → List FlowMod
  | addFlow _ f => [.add f]
  | updateFlow _ old updated => FlowMod.updatePlan old.toStrict updated.toStrict
  | removeFlow _ f => [.delete f.toStrict]
  | _ => []

/-- Whether the changes of flows that a request makes are followed by a barrier. -/
def flowBarrier : Request → Bool
  | addFlow _ f => f.barrier
  | updateFlow _ _ updated => updated.barrier
  | removeFlow _ f => f.barrier
  | _ => false

def isGroupBatch : Request → Bool
  | addGroups _ _ _ => true
  | removeGroups _ _ _ => true
  | _ => false

/-- Whether a message that a request sends is waited for in a batch. -/
def inBatch (r : Request) : Message → Bool
  | .flowMod _ => r.flowBarrier || r.flowMods.length != 1
  | .groupMod _ => r.isGroupBatch
  | _ => false

/-- The changes of groups that a request makes. -/
def groupMods : Request → List GroupMod
  | addGroup _ g => [⟨.add, g⟩]
  | updateGroup _ g => [⟨.modify, g⟩]
  | removeGroup _ g => [⟨.delete, g⟩]
  | addGroups _ gs _ => gs.map (⟨.add, ·⟩)
  | removeGroups _ gs _ => gs.map (⟨.delete, ·⟩)
  | _ => []

/-- Whether a barrier comes after the changes that a request makes. -/
def barrierAfter : Request → Bool
  | addGroups _ _ barrierAfter => barrierAfter
  | removeGroups _ _ barrierAfter => barrierAfter
  | barrier _ => true
  | r => r.flowBarrier

/-- The messages that a request is for. -/
def messages (r : Request) : List Message :=
  r.flowMods.map .flowMod ++ r.groupMods.map .groupMod ++
    if r.barrierAfter then [.barrierRequest] else []

/-- Whether a message that a request sends may be withdrawn without harm to the request. -/
def passesOver (r : Request) : Message → Bool
  | .barrierRequest => match r with
    | barrier _ => false
    | _ => true
  | m => r.inBatch m

/-- A request that has succeeded speaks for its messages: each of them is done, and so is one
that adds a group if the group of a flow was to be added. -/
def Fulfilled (r : Request) (v : Result) (done : Promise → Message → Prop) : Prop :=
  (∀ m ∈ r.messages, ∃ p, done p m) ∧
    ∀ outcome, v = .flow outcome → outcome.dependency.isPush = true →
      ∃ p g, done p (.groupMod ⟨.add, g⟩)

end Request

/-- What is known of the messages that a program has sent. -/
structure Heard where
  sent : Promise → Message → Prop
  /-- What came of a message. -/
  known : Promise → Outcome Message → Prop

/-- Whatever was known is still known. -/
structure Heard.Grows (k k' : Heard) : Prop where
  sent : ∀ p m, k.sent p m → k'.sent p m
  known : ∀ p o, k.known p o → k'.known p o

/-- A message counts as done: the device has confirmed it, or it was withdrawn from a
batch. -/
def Request.Counts (r : Request) (rule : GroupExistsRule) (known : Promise → Outcome Message → Prop)
    (p : Promise) (m : Message) : Prop :=
  ∃ o, known p o ∧ (rule.confirms m o = true ∨ r.inBatch m = true ∧ o = .error .cancelled)

/-- A change of what is recorded rests on messages that are done: that of a flow on all
changes of flows that the request makes, and that of a group on a change of that group. -/
def Effect.RestsOn (r : Request) (done : Promise → Message → Prop) : Effect → Prop
  | .recordFlow _ _ => r.flowMods ≠ [] ∧ ∀ mod ∈ r.flowMods, ∃ p, done p (.flowMod mod)
  | .forgetFlow _ => r.flowMods ≠ [] ∧ ∀ mod ∈ r.flowMods, ∃ p, done p (.flowMod mod)
  | .recordGroup g => ∃ p mod, mod.command ≠ .delete ∧ mod.group.id = g ∧ done p (.groupMod mod)
  | .forgetGroup g => ∃ p mod, mod.command = .delete ∧ mod.group.id = g ∧ done p (.groupMod mod)
  | _ => True

/-- A message was sent and counts as done. -/
def Heard.Done (k : Heard) (r : Request) (rule : GroupExistsRule) (p : Promise) (m : Message) :
    Prop :=
  k.sent p m ∧ r.Counts rule k.known p m

/-- A message was sent and is not in the way of success. -/
def Heard.Over (k : Heard) (r : Request) (rule : GroupExistsRule) (p : Promise) (m : Message) :
    Prop :=
  k.sent p m ∧ ∃ o, k.known p o ∧
    (rule.confirms m o = true ∨ r.passesOver m = true ∧ o = .error .cancelled)

/-- What is recorded changes only when the messages on which the change rests are done. -/
def answered (rule : GroupExistsRule) (r : Request) : Discipline Heard where
  may k e := e.RestsOn r (k.Done r rule)
  next k
    | .send m => fun p k' => k.Grows k' ∧ k'.sent p m
    | .await p => fun o k' => k.Grows k' ∧ k'.known p o
    | .gather ps last => fun results k' =>
      k.Grows k' ∧ List.Forall₂ (fun p x => k'.known p x.2) ps results.1 ∧
        ∀ p ∈ last, ∃ x, results.2 = some x ∧ k'.known p x.2
    | _ => fun _ k' => k.Grows k'

variable {rule : GroupExistsRule} {r : Request} {k k' k'' : Heard}

theorem Heard.Grows.refl (k : Heard) : k.Grows k := ⟨fun _ _ => id, fun _ _ => id⟩

theorem Heard.Grows.trans (h : k.Grows k') (h' : k'.Grows k'') : k.Grows k'' :=
  ⟨fun p m hp => h'.sent p m (h.sent p m hp), fun p o hp => h'.known p o (h.known p o hp)⟩

theorem Effect.RestsOn.mono {e : Effect} {done done' : Promise → Message → Prop}
    (h : e.RestsOn r done) (hdone : ∀ p m, done p m → done' p m) : e.RestsOn r done' := by
  cases e with
  | recordFlow f descriptor =>
      exact ⟨h.1, fun mod hmod => (h.2 mod hmod).imp fun p => hdone p _⟩
  | forgetFlow f => exact ⟨h.1, fun mod hmod => (h.2 mod hmod).imp fun p => hdone p _⟩
  | recordGroup g =>
      obtain ⟨p, mod, hcommand, hid, hp⟩ := h
      exact ⟨p, mod, hcommand, hid, hdone p _ hp⟩
  | forgetGroup g =>
      obtain ⟨p, mod, hcommand, hid, hp⟩ := h
      exact ⟨p, mod, hcommand, hid, hdone p _ hp⟩
  | _ => trivial

theorem Heard.Done.mono {p : Promise} {m : Message} (h : k.Done r rule p m) (hk : k.Grows k') :
    k'.Done r rule p m := by
  obtain ⟨hsent, o, ho, hcounts⟩ := h
  exact ⟨hk.sent p m hsent, o, hk.known p o ho, hcounts⟩

/-- What may be known after more was known before, may be known after less was known. -/
theorem next_of_grows {e : Effect} {a : e.Answer} (hk : k.Grows k')
    (h : (answered rule r).next k' e a k'') : (answered rule r).next k e a k'' := by
  cases e with
  | send m => exact ⟨hk.trans h.1, h.2⟩
  | await p => exact ⟨hk.trans h.1, h.2⟩
  | gather ps last => exact ⟨hk.trans h.1, h.2⟩
  | _ => exact hk.trans h

/-- To know more does no harm. -/
theorem Program.Follows.mono_heard {α : Type} {p : Program α} {post : Heard → α → Prop}
    (h : p.Follows (answered rule r) k post) (hk : k.Grows k')
    (hpost : ∀ a, post k a → post k' a) : p.Follows (answered rule r) k' post := by
  cases p with
  | done a => exact hpost a h
  | step e next =>
      obtain ⟨hmay, hnext⟩ := h
      exact ⟨Effect.RestsOn.mono hmay fun _ _ hdone => hdone.mono hk,
        fun a k'' hk'' => hnext a k'' (next_of_grows hk hk'')⟩

theorem Heard.Over.mono {p : Promise} {m : Message} (h : k.Over r rule p m) (hk : k.Grows k') :
    k'.Over r rule p m := by
  obtain ⟨hsent, o, ho, hover⟩ := h
  exact ⟨hk.sent p m hsent, o, hk.known p o ho, hover⟩

/-- A message that is done is not in the way of success. -/
theorem Heard.Done.over {p : Promise} {m : Message} (h : k.Done r rule p m) :
    k.Over r rule p m := by
  obtain ⟨hsent, o, ho, hcounts⟩ := h
  refine ⟨hsent, o, ho, hcounts.imp_right fun ⟨hbatch, hcancelled⟩ => ⟨?_, hcancelled⟩⟩
  cases m with
  | barrierRequest => cases hbatch
  | _ => exact hbatch

/-- What holds of the changes of a request and of its barrier holds of its messages. -/
theorem Request.forall_messages {done : Message → Prop}
    (hmods : ∀ mod ∈ r.flowMods, done (.flowMod mod))
    (hgroups : ∀ mod ∈ r.groupMods, done (.groupMod mod))
    (hbarrier : r.barrierAfter = true → done .barrierRequest) : ∀ m ∈ r.messages, done m := by
  intro m hm
  rw [messages, List.mem_append, List.mem_append] at hm
  rcases hm with (hm | hm) | hm
  · obtain ⟨mod, hmod, rfl⟩ := List.mem_map.mp hm
    exact hmods mod hmod
  · obtain ⟨mod, hmod, rfl⟩ := List.mem_map.mp hm
    exact hgroups mod hmod
  · split at hm
    · next hb => exact List.mem_singleton.mp hm ▸ hbarrier hb
    · cases hm

theorem Request.Fulfilled.mono {v : Result} {done done' : Promise → Message → Prop}
    (h : r.Fulfilled v done) (hdone : ∀ p m, done p m → done' p m) : r.Fulfilled v done' :=
  ⟨fun m hm => (h.1 m hm).imp fun p => hdone p m, fun outcome hv hpush =>
    (h.2 outcome hv hpush).imp fun p => .imp fun _ => hdone p _⟩

end Southbound
