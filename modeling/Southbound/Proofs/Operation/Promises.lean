import Southbound.Proofs.Operation.Discipline

/-!
# Waiting for what was sent

Operations wait only for results of messages that they have sent themselves.  As a
discipline of programs (`ownPromises`): what is known is whose results may be waited
for, and a message that is sent adds its own.

To know of more promises does no harm (`Program.Obeys.mono_promises`), so it is enough
to follow each operation from its start, whatever was sent before.  The work of every
request follows the discipline, with nothing sent at its start
(`Request.work_obeys_ownPromises`).
-/

namespace Southbound

/-- Results are waited for only if their messages were sent. -/
def ownPromises : Discipline (Promise → Prop) where
  may k
    | .await p => k p
    | .gather members last => (∀ p ∈ members, k p) ∧ ∀ p ∈ last, k p
    | _ => True
  next k
    | .send _ => fun p k' => (∀ q, k q → k' q) ∧ k' p
    | _ => fun _ k' => ∀ q, k q → k' q

section Knowledge

variable {k k' : Promise → Prop}

/-- To know of more promises does no harm. -/
theorem Program.Obeys.mono_promises {α : Type} {p : Program α} (h : p.Obeys ownPromises k)
    (hk : ∀ q, k q → k' q) : p.Obeys ownPromises k' := by
  induction p generalizing k k' with
  | done a => trivial
  | step e next ih =>
      obtain ⟨hmay, hnext⟩ := h
      refine ⟨?_, fun a k'' hk'' => ih a (hnext a k'' ?_) fun _ => id⟩
      · cases e with
        | await p => exact hk p hmay
        | gather members last =>
            exact ⟨fun p hp => hk p (hmay.1 p hp), fun p hp => hk p (hmay.2 p hp)⟩
        | _ => trivial
      · cases e with
        | send m => exact ⟨fun q hq => hk''.1 q (hk q hq), hk''.2⟩
        | _ => exact fun q hq => hk'' q (hk q hq)

theorem Work.Obeys.mono_promises {w : Work} (h : w.Obeys ownPromises k) (hk : ∀ q, k q → k' q) :
    w.Obeys ownPromises k' := by
  cases w with
  | operate c rest => exact Program.Obeys.mono_promises h hk
  | observe f => trivial
  | clear => trivial

end Knowledge

namespace Operation

variable {k : Promise → Prop}

/-! ## Batches -/

/-- Messages that are sent one after another can all be waited for. -/
theorem owns_sendAll (ms : List Message) :
    Operation.Follows ownPromises k (sendAll ms) fun k' ps => ∀ p ∈ ps, k' p := by
  have hall : Operation.Follows ownPromises k (sendAll ms) fun k' ps =>
      (∀ q, k q → k' q) ∧ ∀ p ∈ ps, k' p := by
    induction ms generalizing k with
    | nil => exact follows_pure ⟨fun _ => id, List.forall_mem_nil _⟩
    | cons m ms ih =>
        refine follows_bind (follows_lift trivial fun p k' hk' => ?_)
        refine follows_bind (ih.mono fun k'' ps hk'' => follows_pure ⟨?_, ?_⟩)
        · exact fun q hq => hk''.1 q (hk'.1 q hq)
        · exact List.forall_mem_cons.mpr ⟨hk''.1 p hk'.2, hk''.2⟩
  exact hall.mono fun _ _ h => h.2

theorem owns_settleBatch {ps : List Promise} {last : Option Promise} (hps : ∀ p ∈ ps, k p)
    (hlast : ∀ p ∈ last, k p) :
    Operation.Follows ownPromises k (settleBatch ps last) fun _ _ => True := by
  refine follows_bind (follows_lift ⟨hps, hlast⟩ fun results k' _ => ?_)
  exact follows_ofOutcome fun _ _ => trivial

theorem owns_composeWithBarrier {ps : List Promise} (hps : ∀ p ∈ ps, k p) (barrierAfter : Bool) :
    Operation.Follows ownPromises k (composeWithBarrier ps barrierAfter) fun _ _ => True := by
  cases barrierAfter with
  | false => exact owns_settleBatch hps nofun
  | true =>
      refine follows_bind (follows_lift trivial fun p k' hk' => ?_)
      refine owns_settleBatch (fun q hq => hk'.1 q (hps q hq)) fun q hq => ?_
      cases hq
      exact hk'.2

theorem owns_batchResult (ms : List Message) (barrierAfter : Bool) :
    Operation.Follows ownPromises k (batchResult ms barrierAfter) fun _ _ => True := by
  refine follows_bind ((owns_sendAll ms).mono fun k' ps hps => ?_)
  exact follows_lift_run (owns_composeWithBarrier hps barrierAfter).obeys

/-- The reply to a message that was just sent. -/
theorem owns_request {β : Type} {m : Message} {f : Promise → Message → Operation β}
    (hf : ∀ k p m, Operation.Follows ownPromises k (f p m) fun _ _ => True) :
    Operation.Follows ownPromises k (do let p ← send m; let a ← reply p; f p a)
      fun _ _ => True := by
  refine follows_bind (follows_lift trivial fun p k' hk' => ?_)
  exact follows_bind (follows_reply hk'.2 fun _ k'' _ a _ => hf k'' p a)

theorem owns_barrier : Operation.Follows ownPromises k barrier fun _ _ => True :=
  owns_request fun _ _ _ => follows_ofOutcome fun _ _ => trivial

/-! ## Groups -/

theorem owns_pushGroup (rule : GroupExistsRule) (g : Group) :
    Operation.Follows ownPromises k (pushGroup rule g) fun _ _ => True := by
  have hrecord (k : Promise → Prop) (existed : Bool) :
      Operation.Follows ownPromises k (do recordGroup g.id; return existed) fun _ _ => True :=
    follows_bind (follows_lift trivial fun _ _ _ => follows_pure trivial)
  refine follows_bind (follows_lift trivial fun p k' hk' => ?_)
  refine follows_bind (follows_lift hk'.2 fun result k'' _ => ?_)
  split
  · exact hrecord k'' false
  · split
    · exact hrecord k'' true
    · exact follows_bind (follows_throw _)
  · exact follows_bind (follows_throw _)

theorem owns_addGroup (rule : GroupExistsRule) (g : Group) :
    Operation.Follows ownPromises k (addGroup rule g) fun _ _ => True :=
  follows_bind ((owns_pushGroup rule g).mono fun _ _ _ => follows_pure trivial)

theorem owns_updateGroup (g : Group) :
    Operation.Follows ownPromises k (updateGroup g) fun _ _ => True :=
  owns_request fun _ _ _ => follows_lift trivial fun _ _ _ => trivial

theorem owns_removeGroup (g : Group) :
    Operation.Follows ownPromises k (removeGroup g) fun _ _ => True :=
  owns_request fun _ _ _ => follows_lift trivial fun _ _ _ => trivial

theorem owns_forGroups {f : GroupId → Operation Unit} (gs : List GroupId)
    (hf : ∀ k g, Operation.Follows ownPromises k (f g) fun _ _ => True) :
    Operation.Follows ownPromises k (forGroups f gs) fun _ _ => True :=
  follows_forGroups (fun _ => True) (fun k g _ => hf k g) trivial

theorem owns_addGroups (rule : GroupExistsRule) (gs : List Group) (barrierAfter : Bool) :
    Operation.Follows ownPromises k (addGroups rule gs barrierAfter) fun _ _ => True := by
  refine follows_bind (follows_ofOutcome fun _ _ => ?_)
  refine follows_bind ((owns_batchResult _ barrierAfter).mono fun k' result _ => ?_)
  refine follows_bind ((owns_forGroups _ fun _ _ => ?_).mono fun _ _ _ =>
    follows_ofOutcome fun _ _ => trivial)
  exact follows_lift trivial fun _ _ _ => trivial

theorem owns_removeGroups (gs : List Group) (barrierAfter : Bool) :
    Operation.Follows ownPromises k (removeGroups gs barrierAfter) fun _ _ => True := by
  refine follows_bind (follows_ofOutcome fun _ _ => ?_)
  refine follows_bind ((owns_batchResult _ barrierAfter).mono fun k' result _ => ?_)
  refine follows_bind ((owns_forGroups _ fun _ _ => ?_).mono fun _ _ _ =>
    follows_ofOutcome fun _ _ => trivial)
  exact follows_lift trivial fun _ _ _ => trivial

/-! ## Flows -/

theorem owns_ensureGroup (rule : GroupExistsRule) (d : DeviceId) (f : Flow) :
    Operation.Follows ownPromises k (ensureGroup rule d f) fun _ _ => True := by
  rw [ensureGroup]
  split
  · exact follows_pure trivial
  · next g _ =>
      refine follows_bind (follows_lift trivial fun there k' _ => ?_)
      cases there with
      | true => exact follows_pure trivial
      | false =>
          refine follows_bind (follows_lift trivial fun found k'' _ => ?_)
          split
          · exact follows_throw _
          · exact follows_throw _
          · exact follows_bind ((owns_pushGroup rule _).mono fun _ _ _ => follows_pure trivial)

theorem owns_sendFlowMods (mods : List FlowMod) (barrierAfter : Bool) :
    Operation.Follows ownPromises k (sendFlowMods mods barrierAfter) fun _ _ => True := by
  refine follows_bind ((owns_sendAll _).mono fun k' ps hps => ?_)
  split
  · next p =>
      have hp : k' p := hps p (List.mem_singleton.mpr rfl)
      exact follows_bind (follows_reply hp fun _ _ _ _ _ => follows_pure trivial)
  · exact owns_composeWithBarrier hps barrierAfter

theorem owns_addFlow (policy : OperationPolicy) (path : FlowPath) (f : Flow) :
    Operation.Follows ownPromises k (addFlow policy path f) fun _ _ => True := by
  refine follows_bind ((owns_ensureGroup policy.rule path.device f).mono fun _ _ _ => ?_)
  refine follows_bind ((owns_sendFlowMods _ f.barrier).mono fun _ _ _ => ?_)
  exact follows_bind (follows_lift trivial fun _ _ _ => follows_pure trivial)

theorem owns_updateFlow (policy : OperationPolicy) (path : FlowPath) (old updated : Flow) :
    Operation.Follows ownPromises k (updateFlow policy path old updated) fun _ _ => True := by
  refine follows_bind ((owns_ensureGroup policy.rule path.device _).mono fun _ _ _ => ?_)
  refine follows_bind ((owns_sendFlowMods _ _).mono fun _ _ _ => ?_)
  refine follows_bind (follows_lift trivial fun _ _ _ => ?_)
  exact follows_bind (follows_lift trivial fun _ _ _ => follows_pure trivial)

theorem owns_removeFlow (policy : OperationPolicy) (path : FlowPath) (f : Flow) :
    Operation.Follows ownPromises k (removeFlow policy path f) fun _ _ => True := by
  have hrest (k : Promise → Prop) : Operation.Follows ownPromises k
      (do
        sendFlowMods [.delete f.toStrict] f.toStrict.barrier
        forgetFlow f.toStrict
        return (⟨path.descriptor, .noDependency⟩ : FlowOutcome)) fun _ _ => True := by
    refine follows_bind ((owns_sendFlowMods _ _).mono fun _ _ _ => ?_)
    exact follows_bind (follows_lift trivial fun _ _ _ => follows_pure trivial)
  rw [removeFlow]
  split
  · exact follows_bind (follows_lift trivial fun _ k' _ => hrest k')
  · exact hrest k

end Operation

/-! ## Requests -/

/-- Whatever is asked of a device, nothing is waited for that was not sent for it. -/
theorem Request.work_obeys_ownPromises (policy : OperationPolicy) (c : ConnectionId) (r : Request) :
    (r.work policy c).Obeys ownPromises fun _ => False := by
  cases r with
  | addFlow path f => exact Work.obeys_ofFlow (Operation.owns_addFlow policy path f)
  | updateFlow path old updated =>
      exact Work.obeys_ofFlow (Operation.owns_updateFlow policy path old updated)
  | removeFlow path f => exact Work.obeys_ofFlow (Operation.owns_removeFlow policy path f)
  | addGroup d g => exact Work.obeys_ofUnit (Operation.owns_addGroup policy.rule g)
  | updateGroup d g => exact Work.obeys_ofUnit (Operation.owns_updateGroup g)
  | removeGroup d g => exact Work.obeys_ofUnit (Operation.owns_removeGroup g)
  | addGroups d gs barrierAfter =>
      exact Work.obeys_ofUnit (Operation.owns_addGroups policy.rule gs barrierAfter)
  | removeGroups d gs barrierAfter =>
      exact Work.obeys_ofUnit (Operation.owns_removeGroups gs barrierAfter)
  | barrier d => exact Work.obeys_ofUnit Operation.owns_barrier
  | observe d f => trivial

end Southbound
