import Southbound.Proofs.Operation.Discipline

/-!
# Refusals

Some failures say that a request was refused (`Failure.isRefusal`): its flow is in another table
than its path names, requests are not accepted, its device is not attached, or it is a batch
without members.

The work of a batch without members is over before it does anything
(`Request.work_of_emptyBatch?`).  All other work ends with such a failure only if a message that
it has sent fails so, as a discipline of programs (`unrefusing`, `Request.work_unrefused`).
-/

namespace Southbound

/-! ## Failures that are refusals -/

/-- Whether a failure says that a request was refused. -/
def Failure.isRefusal : Failure → Bool
  | invalidTableId _ _ => true
  | invalidRequest _ => true
  | notConnected _ => true
  | shuttingDown => true
  | _ => false

variable {α β : Type}

/-- An outcome that is no refusal. -/
def Unrefused (o : Outcome α) : Prop := ∀ cause, o = .error cause → cause.isRefusal = false

theorem unrefused_ok (a : α) : Unrefused (.ok a : Outcome α) := nofun

theorem unrefused_error {cause : Failure} (h : cause.isRefusal = false) :
    Unrefused (.error cause : Outcome α) := by
  rintro _ ⟨⟩
  exact h

/-! ## Checks on requests -/

namespace Request

/-- The failure of a request for a flow that is in another table than its path names.  Of an
update, the flow that is to be installed counts. -/
def misplaced? : Request → Option Failure
  | addFlow path f => misplacement? path f
  | updateFlow path _ updated => misplacement? path updated
  | removeFlow path f => misplacement? path f
  | _ => none
where
  misplacement? (path : FlowPath) (f : Flow) : Option Failure :=
    if path.table = f.table then none else some (.invalidTableId path.table f.table)

/-- The failure of a request for a batch without members. -/
def emptyBatch? : Request → Option Failure
  | addGroups _ [] _ => some (.invalidRequest "Batch for add-groups-batch has no entries")
  | removeGroups _ [] _ => some (.invalidRequest "Batch for remove-groups-batch has no entries")
  | _ => none

variable {r : Request} {f : Failure}

theorem check_eq (r : Request) : r.check = r.misplaced?.elim (.ok ()) .error := by
  have htable (path : FlowPath) (f : Flow) :
      (checkTableId path f).mapError RequestFault.toFailure =
        (misplaced?.misplacement? path f).elim (.ok ()) .error := by
    rw [checkTableId, misplaced?.misplacement?]
    split <;> rfl
  cases r with
  | addFlow path f => exact htable path f
  | updateFlow path old updated => exact htable path updated
  | removeFlow path f => exact htable path f
  | _ => rfl

theorem isRefusal_of_misplaced? (h : r.misplaced? = some f) : f.isRefusal = true := by
  have htable {path : FlowPath} {flow : Flow}
      (h : misplaced?.misplacement? path flow = some f) : f.isRefusal = true := by
    rw [misplaced?.misplacement?] at h
    split at h
    · cases h
    · cases h
      rfl
  cases r with
  | addFlow path flow => exact htable h
  | updateFlow path old updated => exact htable h
  | removeFlow path flow => exact htable h
  | _ => cases h

theorem isRefusal_of_emptyBatch? (h : r.emptyBatch? = some f) : f.isRefusal = true := by
  unfold emptyBatch? at h
  split at h <;> cases h <;> rfl

/-- The work of a batch without members is over before it does anything. -/
theorem work_of_emptyBatch? (h : r.emptyBatch? = some f) (policy : OperationPolicy)
    (c : ConnectionId) : r.work policy c = .operate c (.done (.error f)) := by
  unfold emptyBatch? at h
  split at h <;> cases h <;> rfl

end Request

/-! ## The discipline -/

/-- A message that has failed before it was queued was not refused. -/
def Promise.Unrefused (p : Promise) : Prop :=
  ∀ x cause, p.reply = .failed x cause → cause.isRefusal = false

/-- No message that a program sends is refused. -/
def unrefusing : Discipline Unit where
  may _ _ := True
  next _
    | .send _ => fun p _ => p.Unrefused
    | .await p => fun o _ => p.Unrefused → Southbound.Unrefused o
    | _ => fun _ _ => True

namespace Operation

/-- An operation that is not refused, as long as no message is that it sends, and whose value,
if it has one, has a property. -/
def Tried (o : Operation α) (post : α → Prop) : Prop :=
  Program.Follows unrefusing () o.run fun _ r => Unrefused r ∧ ∀ a, r = .ok a → post a

variable {o : Operation α} {post post' : α → Prop}

theorem Tried.mono (h : o.Tried post) (hpost : ∀ a, post a → post' a) : o.Tried post' :=
  Program.Follows.mono h fun _ _ hr => ⟨hr.1, fun a ha => hpost a (hr.2 a ha)⟩

theorem tried_ofOutcome {r : Outcome α} (hr : Unrefused r) (h : ∀ a, r = .ok a → post a) :
    (ofOutcome r).Tried post := ⟨hr, h⟩

theorem tried_pure {a : α} (h : post a) : Operation.Tried (pure a) post :=
  tried_ofOutcome (unrefused_ok a) fun _ ha => by cases ha; exact h

theorem tried_throw {cause : Failure} (h : cause.isRefusal = false) :
    Operation.Tried (throw cause) post :=
  tried_ofOutcome (unrefused_error h) nofun

/-- One operation after another. -/
theorem tried_bind {f : α → Operation β} {post : β → Prop}
    (h : o.Tried fun a => (f a).Tried post) : Operation.Tried (o >>= f) post := by
  refine Program.Follows.bind (Program.Follows.mono h fun _ r hr => ?_)
  cases r with
  | ok a => exact hr.2 a rfl
  | error cause => exact tried_throw (hr.1 cause rfl)

/-- A single effect, whatever it answers. -/
theorem tried_lift {e : Effect} {post : e.Answer → Prop}
    (hpost : ∀ a, unrefusing.next () e a () → post a) :
    Operation.Tried (ExceptT.lift (.perform e)) post :=
  ⟨trivial, fun a _ ha => ⟨unrefused_ok a, fun b hb => by cases hb; exact hpost a ha⟩⟩

/-- A single effect whose answer does not matter. -/
theorem tried_lift_any (e : Effect) {post : e.Answer → Prop} (hpost : ∀ a, post a) :
    Operation.Tried (ExceptT.lift (.perform e)) post :=
  tried_lift fun a _ => hpost a

/-- The reply to a message. -/
theorem tried_reply {p : Promise} (hp : p.Unrefused) : (reply p).Tried fun _ => True :=
  ⟨trivial, fun _ _ ho => ⟨ho hp, fun _ _ => trivial⟩⟩

/-- The operation goes on with the outcome of another, which is not refused. -/
theorem tried_lift_run (h : o.Tried post) :
    Operation.Tried (ExceptT.lift o.run) Southbound.Unrefused := by
  refine Program.Follows.bind (Program.Follows.mono h fun _ r hr => ⟨unrefused_ok r, ?_⟩)
  intro b hb
  cases hb
  exact hr.1

/-! ## Batches -/

theorem tried_send (m : Message) : (send m).Tried Promise.Unrefused := tried_lift fun _ hp => hp

theorem tried_sendAll (ms : List Message) : (sendAll ms).Tried fun ps => ∀ p ∈ ps, p.Unrefused := by
  induction ms with
  | nil => exact tried_pure (List.forall_mem_nil _)
  | cons m ms ih =>
      refine tried_bind ((tried_send m).mono fun p hp => ?_)
      exact tried_bind (ih.mono fun ps hps => tried_pure (List.forall_mem_cons.mpr ⟨hp, hps⟩))

theorem unrefused_batchOutcome (members : List Settled) (barrier : Option Settled) :
    Unrefused (batchOutcome members barrier) := by
  rw [batchOutcome]
  split
  · exact unrefused_ok ()
  · exact unrefused_error rfl

theorem tried_settleBatch (ps : List Promise) (p : Option Promise) :
    (settleBatch ps p).Tried fun _ => True := by
  refine tried_bind (tried_lift_any _ fun results => ?_)
  exact tried_ofOutcome (unrefused_batchOutcome results.1 results.2) fun _ _ => trivial

theorem tried_composeWithBarrier (ps : List Promise) (barrierAfter : Bool) :
    (composeWithBarrier ps barrierAfter).Tried fun _ => True := by
  cases barrierAfter with
  | false => exact tried_settleBatch ps none
  | true => exact tried_bind (tried_lift_any _ fun p => tried_settleBatch ps p)

theorem tried_batchResult (ms : List Message) (barrierAfter : Bool) :
    (batchResult ms barrierAfter).Tried Southbound.Unrefused :=
  tried_bind ((tried_sendAll ms).mono fun ps _ => tried_lift_run (tried_composeWithBarrier ps _))

theorem unrefused_expectBarrierReply (x : Xid) (m : Message) :
    Unrefused (expectBarrierReply x m) := by
  cases m with
  | barrierReply => exact unrefused_ok ()
  | _ => exact unrefused_error rfl

theorem tried_barrier : barrier.Tried fun _ => True := by
  refine tried_bind ((tried_send _).mono fun p hp => ?_)
  refine tried_bind ((tried_reply hp).mono fun m _ => ?_)
  exact tried_ofOutcome (unrefused_expectBarrierReply p.xid m) fun _ _ => trivial

/-! ## Groups -/

theorem tried_pushGroup (rule : GroupExistsRule) (g : Group) :
    (pushGroup rule g).Tried fun _ => True := by
  have hrecord (existed : Bool) :
      Operation.Tried (do recordGroup g.id; return existed) fun _ => True :=
    tried_bind (tried_lift_any _ fun _ => tried_pure trivial)
  refine tried_bind ((tried_send _).mono fun p hp => ?_)
  refine tried_bind (tried_lift fun result hresult => ?_)
  split
  · exact hrecord false
  · split
    · exact hrecord true
    · exact tried_bind (tried_throw rfl)
  · next cause _ => exact tried_bind (tried_throw (hresult hp cause rfl))

theorem tried_addGroup (rule : GroupExistsRule) (g : Group) :
    (addGroup rule g).Tried fun _ => True :=
  tried_bind ((tried_pushGroup rule g).mono fun _ _ => tried_pure trivial)

/-- A group is changed by one message, and what is known of it follows. -/
theorem tried_change (m : Message) (e : Effect) :
    Operation.Tried (do
      let p ← send m
      let _ ← reply p
      ExceptT.lift (.perform e)) fun _ => True := by
  refine tried_bind ((tried_send m).mono fun p hp => ?_)
  exact tried_bind ((tried_reply hp).mono fun _ _ => tried_lift_any e fun _ => trivial)

theorem tried_forGroups {f : GroupId → Operation Unit} (hf : ∀ g, (f g).Tried fun _ => True)
    (gs : List GroupId) : (forGroups f gs).Tried fun _ => True := by
  induction gs with
  | nil => exact tried_pure trivial
  | cons g gs ih => exact tried_bind ((hf g).mono fun _ _ => ih)

/-- A batch fails as such, or not at all. -/
theorem unrefused_absorb (rule : GroupExistsRule) {result : Outcome Unit} (h : Unrefused result) :
    Unrefused (rule.absorb result) := by
  unfold GroupExistsRule.absorb
  split
  · split
    · exact unrefused_ok ()
    · exact unrefused_error rfl
  · exact h

/-- A batch whose members are recorded or forgotten, whatever becomes of its result. -/
theorem tried_batch (ms : List Message) (barrierAfter : Bool) {f : GroupId → Operation Unit}
    (hf : ∀ g, (f g).Tried fun _ => True) (ids : Outcome Unit → List GroupId)
    {seen : Outcome Unit → Outcome Unit} (hseen : ∀ o, Unrefused o → Unrefused (seen o)) :
    Operation.Tried (do
      let result ← batchResult ms barrierAfter
      forGroups f (ids result)
      ofOutcome (seen result)) fun _ => True := by
  refine tried_bind ((tried_batchResult ms barrierAfter).mono fun result hresult => ?_)
  refine tried_bind ((tried_forGroups hf (ids result)).mono fun _ _ => ?_)
  exact tried_ofOutcome (hseen result hresult) fun _ _ => trivial

theorem unrefused_checkNonEmpty {gs : List α} (operation : String) (hgs : gs ≠ []) :
    Unrefused ((checkNonEmpty operation gs).mapError RequestFault.toFailure) := by
  cases gs with
  | nil => exact absurd rfl hgs
  | cons g gs => exact unrefused_ok ()

theorem tried_addGroups (rule : GroupExistsRule) {gs : List Group} (hgs : gs ≠ [])
    (barrierAfter : Bool) : (addGroups rule gs barrierAfter).Tried fun _ => True := by
  refine tried_bind (tried_ofOutcome (unrefused_checkNonEmpty _ hgs) fun _ _ => ?_)
  exact tried_batch _ barrierAfter (fun _ => tried_lift_any _ fun _ => trivial)
    (fun result => accepted (gs.map Group.id) (rule.absorb result)) fun _ => unrefused_absorb rule

theorem tried_removeGroups {gs : List Group} (hgs : gs ≠ []) (barrierAfter : Bool) :
    (removeGroups gs barrierAfter).Tried fun _ => True := by
  refine tried_bind (tried_ofOutcome (unrefused_checkNonEmpty _ hgs) fun _ _ => ?_)
  exact tried_batch _ barrierAfter (fun _ => tried_lift_any _ fun _ => trivial)
    (accepted (gs.map Group.id)) fun _ => id

/-! ## Flows -/

theorem isRefusal_storageFailure (cause : Failure) : (storageFailure cause).isRefusal = false := by
  cases cause <;> rfl

theorem tried_ensureGroup (rule : GroupExistsRule) (d : DeviceId) (f : Flow) :
    (ensureGroup rule d f).Tried fun _ => True := by
  rw [ensureGroup]
  split
  · exact tried_pure trivial
  · refine tried_bind (tried_lift_any _ fun there => ?_)
    cases there with
    | true => exact tried_pure trivial
    | false =>
        refine tried_bind (tried_lift_any _ fun found => ?_)
        split
        · next cause => exact tried_throw (isRefusal_storageFailure cause)
        · exact tried_throw rfl
        · next group => exact tried_bind ((tried_pushGroup rule group).mono fun _ _ =>
            tried_pure trivial)

theorem tried_sendFlowMods (mods : List FlowMod) (barrierAfter : Bool) :
    (sendFlowMods mods barrierAfter).Tried fun _ => True := by
  refine tried_bind ((tried_sendAll _).mono fun ps hps => ?_)
  split
  · exact tried_bind ((tried_reply (hps _ (.head _))).mono fun _ _ => tried_pure trivial)
  · exact tried_composeWithBarrier ps barrierAfter

theorem tried_addFlow (policy : OperationPolicy) (path : FlowPath) (f : Flow) :
    (addFlow policy path f).Tried fun _ => True := by
  refine tried_bind ((tried_ensureGroup policy.rule path.device f).mono fun _ _ => ?_)
  refine tried_bind ((tried_sendFlowMods _ f.barrier).mono fun _ _ => ?_)
  exact tried_bind (tried_lift_any _ fun _ => tried_pure trivial)

theorem tried_updateFlow (policy : OperationPolicy) (path : FlowPath) (old updated : Flow) :
    (updateFlow policy path old updated).Tried fun _ => True := by
  refine tried_bind ((tried_ensureGroup policy.rule path.device _).mono fun _ _ => ?_)
  refine tried_bind ((tried_sendFlowMods _ _).mono fun _ _ => ?_)
  refine tried_bind (tried_lift_any _ fun _ => ?_)
  exact tried_bind (tried_lift_any _ fun _ => tried_pure trivial)

theorem tried_removeFlow (policy : OperationPolicy) (path : FlowPath) (f : Flow) :
    (removeFlow policy path f).Tried fun _ => True := by
  have hrest : Operation.Tried (do
      sendFlowMods [.delete f.toStrict] f.toStrict.barrier
      forgetFlow f.toStrict
      return (⟨path.descriptor, .noDependency⟩ : FlowOutcome)) fun _ => True := by
    refine tried_bind ((tried_sendFlowMods _ _).mono fun _ _ => ?_)
    exact tried_bind (tried_lift_any _ fun _ => tried_pure trivial)
  rw [removeFlow]
  split
  · exact tried_bind (tried_lift_any _ fun _ => hrest)
  · exact hrest

end Operation

/-! ## Requests -/

/-- Work whose program, if it has one, is not refused as long as no message is that it sends. -/
def Work.Unrefused (w : Work) : Prop := w.Follows unrefusing () fun _ o => Southbound.Unrefused o

theorem Work.unrefused_map {o : Operation α} {post : α → Prop} (h : o.Tried post)
    (c : ConnectionId) (f : α → Result) :
    Work.Unrefused (.operate c (Functor.map f o).run) := by
  have hmap : Operation.Tried (Functor.map f o) fun _ => True :=
    Operation.tried_bind (h.mono fun _ _ => Operation.tried_pure trivial)
  exact Program.Follows.mono hmap fun _ _ hr => hr.1

/-- Whatever is asked of a device but a batch without members, it is not refused by the work that
it makes. -/
theorem Request.work_unrefused {r : Request} (h : r.emptyBatch? = none) (policy : OperationPolicy)
    (c : ConnectionId) : (r.work policy c).Unrefused := by
  cases r with
  | addFlow path f => exact Work.unrefused_map (Operation.tried_addFlow policy path f) c _
  | updateFlow path old updated =>
      exact Work.unrefused_map (Operation.tried_updateFlow policy path old updated) c _
  | removeFlow path f => exact Work.unrefused_map (Operation.tried_removeFlow policy path f) c _
  | addGroup d g => exact Work.unrefused_map (Operation.tried_addGroup policy.rule g) c _
  | updateGroup d g => exact Work.unrefused_map (Operation.tried_change _ (.recordGroup g.id)) c _
  | removeGroup d g => exact Work.unrefused_map (Operation.tried_change _ (.forgetGroup g.id)) c _
  | addGroups d gs barrierAfter =>
      have hgs : gs ≠ [] := by
        rintro rfl
        cases h
      exact Work.unrefused_map (Operation.tried_addGroups policy.rule hgs barrierAfter) c _
  | removeGroups d gs barrierAfter =>
      have hgs : gs ≠ [] := by
        rintro rfl
        cases h
      exact Work.unrefused_map (Operation.tried_removeGroups hgs barrierAfter) c _
  | barrier d => exact Work.unrefused_map Operation.tried_barrier c _
  | observe d f => trivial

end Southbound
