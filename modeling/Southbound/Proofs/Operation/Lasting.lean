import Southbound.Proofs.System.Steps

/-!
# What is recorded lasts

No operation undoes what it has recorded itself: it does not forget a group that it has
recorded, nor forget or replace a flow.  As a discipline of programs (`lasting`): what is
known is what was done before, and nothing is done that could undo it
(`Effect.undoes`).

The work of every request follows the discipline (`Request.work_obeys_lasting`).  So what
is left of a program spares whatever the program has recorded (`Program.Obeys.spares`).
-/

namespace Southbound

/-- Whether an effect can remove or replace what another has recorded. -/
def Effect.undoes : Effect → Effect → Bool
  | .forgetGroup _, .recordGroup _ => true
  | .forgetFlow _, .recordFlow _ _ => true
  | .recordFlow _ _, .recordFlow _ _ => true
  | _, _ => false

def Effect.recordsGroup : Effect → Bool
  | .recordGroup _ => true
  | _ => false

def Effect.recordsFlow : Effect → Bool
  | .recordFlow _ _ => true
  | _ => false

/-- Nothing is done that could undo what was done before. -/
def lasting : Discipline (Effect → Prop) where
  may done e := ∀ e', done e' → e.undoes e' = false
  next done e _ done' := ∀ e', done' e' → done e' ∨ e' = e

/-- Nothing is done that could undo one effect. -/
def sparing (e : Effect) : Discipline Unit where
  may _ e' := e'.undoes e = false
  next _ _ _ _ := True

/-- What is left of a program spares what was done before. -/
theorem Program.Obeys.spares {α : Type} {p : Program α} {done : Effect → Prop} {e : Effect}
    (h : p.Obeys lasting done) (he : done e) : p.Obeys (sparing e) () := by
  induction p with
  | done a => trivial
  | step e' next ih =>
      obtain ⟨hmay, hnext⟩ := h
      exact ⟨hmay e he, fun a _ _ => ih a (hnext a done fun _ => .inl)⟩

/-! ## Programs that send and wait -/

section Transport

variable {K : Type} {D : Discipline K} {k : K}

/-- What sending and waiting keeps, a program that only sends and waits keeps. -/
theorem Program.Follows.of_transport {α : Type} {p : Program α} (inv : K → Prop)
    (hmay : ∀ k e, inv k → e.isTransport = true → D.may k e)
    (hnext : ∀ k e a k', inv k → e.isTransport = true → D.next k e a k' → inv k')
    (hp : p.Obeys transport ()) (hk : inv k) : p.Follows D k fun k' _ => inv k' := by
  induction p generalizing k with
  | done a => exact hk
  | step e next ih =>
      obtain ⟨he, hrest⟩ := hp
      exact ⟨hmay k e hk he, fun a k' hk' => ih a (hrest a () trivial) (hnext k e a k' hk he hk')⟩

end Transport

/-! ## Operations -/

/-- None of the effects that were done is one of these. -/
def Lacks (p : Effect → Bool) (done : Effect → Prop) : Prop := ∀ e, done e → p e = false

section Lacks

variable {p : Effect → Bool} {k k' : Effect → Prop}

theorem Lacks.next {e : Effect} {a : e.Answer} (h : Lacks p k) (he : p e = false)
    (hk' : lasting.next k e a k') : Lacks p k' := by
  intro e' he'
  rcases hk' e' he' with hold | rfl
  · exact h e' hold
  · exact he

theorem may_forgetGroup {g : GroupId} (h : Lacks Effect.recordsGroup k) :
    lasting.may k (.forgetGroup g) := by
  intro e he
  cases e with
  | recordGroup g => cases h _ he
  | _ => rfl

theorem may_forgetFlow {f : Flow} (h : Lacks Effect.recordsFlow k) :
    lasting.may k (.forgetFlow f) := by
  intro e he
  cases e with
  | recordFlow f descriptor => cases h _ he
  | _ => rfl

theorem may_recordFlow {f : Flow} {descriptor : FlowDescriptor} (h : Lacks Effect.recordsFlow k) :
    lasting.may k (.recordFlow f descriptor) := by
  intro e he
  cases e with
  | recordFlow f descriptor => cases h _ he
  | _ => rfl

end Lacks

namespace Operation

variable {p : Effect → Bool} {k : Effect → Prop}

/-- An operation that only sends and waits records nothing. -/
theorem lasts_transport {α : Type} {o : Operation α}
    (ho : Operation.Follows transport () o fun _ _ => True)
    (hp : ∀ e, e.isTransport = true → p e = false) (hk : Lacks p k) :
    Operation.Follows lasting k o fun k' _ => Lacks p k' := by
  refine Program.Follows.mono (Program.Follows.of_transport (Lacks p) ?_ ?_ ho.obeys hk)
    fun k' r hk' a _ => hk'
  · intro k e _ he e' _
    cases e with
    | send m => rfl
    | await q => rfl
    | gather members last => rfl
    | _ => cases he
  · exact fun k e a k' hk he hk' => hk.next (hp e he) hk'

theorem recordsGroup_transport (e : Effect) (he : e.isTransport = true) :
    e.recordsGroup = false := by
  cases e with
  | recordGroup g => cases he
  | _ => rfl

theorem recordsFlow_transport (e : Effect) (he : e.isTransport = true) : e.recordsFlow = false := by
  cases e with
  | recordFlow f descriptor => cases he
  | _ => rfl

theorem lasts_barrier (hk : Lacks Effect.recordsFlow k) :
    Operation.Follows lasting k barrier fun k' _ => Lacks Effect.recordsFlow k' :=
  lasts_transport (follows_barrier System.transport_patient) recordsFlow_transport hk

/-! ### Groups -/

theorem lasts_pushGroup (rule : GroupExistsRule) (g : Group) (hk : Lacks Effect.recordsFlow k) :
    Operation.Follows lasting k (pushGroup rule g) fun k' _ => Lacks Effect.recordsFlow k' := by
  have hrecord {k : Effect → Prop} (hk : Lacks Effect.recordsFlow k) (existed : Bool) :
      Operation.Follows lasting k (do recordGroup g.id; return existed)
        fun k' _ => Lacks Effect.recordsFlow k' :=
    follows_bind (follows_lift (fun _ _ => rfl) fun _ _ hk' => follows_pure (hk.next rfl hk'))
  refine follows_bind (follows_lift (fun _ _ => rfl) fun q k' hk' => ?_)
  refine follows_bind (follows_lift (fun _ _ => rfl) fun result k'' hk'' => ?_)
  have hlacks := (hk.next rfl hk').next rfl hk''
  split
  · exact hrecord hlacks false
  · split
    · exact hrecord hlacks true
    · exact follows_bind (follows_throw _)
  · exact follows_bind (follows_throw _)

theorem lasts_addGroup (rule : GroupExistsRule) (g : Group) (hk : Lacks Effect.recordsFlow k) :
    Operation.Follows lasting k (addGroup rule g) fun _ _ => True :=
  follows_bind ((lasts_pushGroup rule g hk).mono fun _ _ _ => follows_pure trivial)

/-- A message is sent, and its reply waited for. -/
theorem lasts_request {β : Type} {m : Message} {f : Promise → Message → Operation β}
    (hp : ∀ e, e.isTransport = true → p e = false) (hk : Lacks p k)
    (hf : ∀ k q m, Lacks p k → Operation.Follows lasting k (f q m) fun _ _ => True) :
    Operation.Follows lasting k (do let q ← send m; let a ← reply q; f q a) fun _ _ => True := by
  refine follows_bind (follows_lift (fun _ _ => rfl) fun q k' hk' => ?_)
  refine follows_bind (follows_reply (fun _ _ => rfl) fun a k'' hk'' m _ => ?_)
  exact hf k'' q m ((hk.next (hp _ rfl) hk').next (hp _ rfl) hk'')

theorem lasts_updateGroup (g : Group) (hk : Lacks Effect.recordsFlow k) :
    Operation.Follows lasting k (updateGroup g) fun _ _ => True :=
  lasts_request recordsFlow_transport hk fun _ _ _ _ =>
    follows_lift (fun _ _ => rfl) fun _ _ _ => trivial

theorem lasts_removeGroup (g : Group) (hk : Lacks Effect.recordsGroup k) :
    Operation.Follows lasting k (removeGroup g) fun _ _ => True :=
  lasts_request recordsGroup_transport hk fun _ _ _ hk =>
    follows_lift (may_forgetGroup hk) fun _ _ _ => trivial

/-- A batch is sent and waited for. -/
theorem lasts_batchResult (ms : List Message) (barrierAfter : Bool)
    (hp : ∀ e, e.isTransport = true → p e = false) (hk : Lacks p k) :
    Operation.Follows lasting k (batchResult ms barrierAfter) fun k' _ => Lacks p k' :=
  lasts_transport (follows_batchResult System.transport_patient (fun _ => True) barrierAfter
    (fun _ _ _ _ => rfl) (fun _ _ _ _ _ _ => trivial) trivial) hp hk

theorem lasts_addGroups (rule : GroupExistsRule) (gs : List Group) (barrierAfter : Bool)
    (hk : Lacks Effect.recordsFlow k) :
    Operation.Follows lasting k (addGroups rule gs barrierAfter) fun _ _ => True := by
  refine follows_bind (follows_ofOutcome fun _ _ => ?_)
  refine follows_bind ((lasts_batchResult _ barrierAfter recordsFlow_transport hk).mono
    fun k' result _ => ?_)
  refine follows_bind ((follows_forGroups (fun _ => True) (fun _ _ _ => ?_) trivial).mono
    fun _ _ _ => follows_ofOutcome fun _ _ => trivial)
  exact follows_lift (fun _ _ => rfl) fun _ _ _ => trivial

theorem lasts_removeGroups (gs : List Group) (barrierAfter : Bool)
    (hk : Lacks Effect.recordsGroup k) :
    Operation.Follows lasting k (removeGroups gs barrierAfter) fun _ _ => True := by
  refine follows_bind (follows_ofOutcome fun _ _ => ?_)
  refine follows_bind ((lasts_batchResult _ barrierAfter recordsGroup_transport hk).mono
    fun k' result hk' => ?_)
  refine follows_bind ((follows_forGroups (Lacks Effect.recordsGroup) (fun _ _ hk => ?_) hk').mono
    fun _ _ _ => follows_ofOutcome fun _ _ => trivial)
  exact follows_lift (may_forgetGroup hk) fun _ _ hk' => hk.next rfl hk'

/-! ### Flows -/

theorem lasts_ensureGroup (rule : GroupExistsRule) (d : DeviceId) (f : Flow)
    (hk : Lacks Effect.recordsFlow k) :
    Operation.Follows lasting k (ensureGroup rule d f) fun k' _ => Lacks Effect.recordsFlow k' := by
  rw [ensureGroup]
  split
  · exact follows_pure hk
  · refine follows_bind (follows_lift (fun _ _ => rfl) fun there k' hk' => ?_)
    have hlacks := hk.next rfl hk'
    cases there with
    | true => exact follows_pure hlacks
    | false =>
        refine follows_bind (follows_lift (fun _ _ => rfl) fun found k'' hk'' => ?_)
        split
        · exact follows_throw _
        · exact follows_throw _
        · exact follows_bind ((lasts_pushGroup rule _ (hlacks.next rfl hk'')).mono
            fun _ _ hk => follows_pure hk)

theorem lasts_sendFlowMods (mods : List FlowMod) (barrierAfter : Bool)
    (hk : Lacks Effect.recordsFlow k) :
    Operation.Follows lasting k (sendFlowMods mods barrierAfter)
      fun k' _ => Lacks Effect.recordsFlow k' :=
  lasts_transport (follows_sendFlowMods System.transport_patient (fun _ => True) barrierAfter
    (fun _ _ _ _ => rfl) (fun _ _ _ _ _ _ => trivial) trivial) recordsFlow_transport hk

theorem lasts_addFlow (policy : OperationPolicy) (path : FlowPath) (f : Flow)
    (hk : Lacks Effect.recordsFlow k) :
    Operation.Follows lasting k (addFlow policy path f) fun _ _ => True := by
  refine follows_bind ((lasts_ensureGroup policy.rule path.device f hk).mono fun _ _ hk => ?_)
  refine follows_bind ((lasts_sendFlowMods _ f.barrier hk).mono fun _ _ hk => ?_)
  exact follows_bind (follows_lift (may_recordFlow hk) fun _ _ _ => follows_pure trivial)

theorem lasts_updateFlow (policy : OperationPolicy) (path : FlowPath) (old updated : Flow)
    (hk : Lacks Effect.recordsFlow k) :
    Operation.Follows lasting k (updateFlow policy path old updated) fun _ _ => True := by
  refine follows_bind ((lasts_ensureGroup policy.rule path.device _ hk).mono fun _ _ hk => ?_)
  refine follows_bind ((lasts_sendFlowMods _ _ hk).mono fun _ _ hk => ?_)
  refine follows_bind (follows_lift (may_forgetFlow hk) fun _ k' hk' => ?_)
  refine follows_bind (follows_lift (may_recordFlow (hk.next rfl hk')) fun _ _ _ => ?_)
  exact follows_pure trivial

theorem lasts_removeFlow (policy : OperationPolicy) (path : FlowPath) (f : Flow)
    (hk : Lacks Effect.recordsFlow k) :
    Operation.Follows lasting k (removeFlow policy path f) fun _ _ => True := by
  have hrest {k : Effect → Prop} (hk : Lacks Effect.recordsFlow k) :
      Operation.Follows lasting k
        (do
          sendFlowMods [.delete f.toStrict] f.toStrict.barrier
          forgetFlow f.toStrict
          return (⟨path.descriptor, .noDependency⟩ : FlowOutcome)) fun _ _ => True := by
    refine follows_bind ((lasts_sendFlowMods _ _ hk).mono fun _ _ hk => ?_)
    exact follows_bind (follows_lift (may_forgetFlow hk) fun _ _ _ => follows_pure trivial)
  rw [removeFlow]
  split
  · exact follows_bind (follows_lift (fun _ _ => rfl) fun _ k' hk' => hrest (hk.next rfl hk'))
  · exact hrest hk

end Operation

/-! ## Requests -/

/-- Whatever is asked of a device, nothing of it undoes what it has recorded. -/
theorem Request.work_obeys_lasting (policy : OperationPolicy) (c : ConnectionId) (r : Request) :
    (r.work policy c).Obeys lasting fun _ => False := by
  have hlacks (p : Effect → Bool) : Lacks p fun _ => False := fun _ => False.elim
  cases r with
  | addFlow path f => exact Work.obeys_ofFlow (Operation.lasts_addFlow policy path f (hlacks _))
  | updateFlow path old updated =>
      exact Work.obeys_ofFlow (Operation.lasts_updateFlow policy path old updated (hlacks _))
  | removeFlow path f =>
      exact Work.obeys_ofFlow (Operation.lasts_removeFlow policy path f (hlacks _))
  | addGroup d g => exact Work.obeys_ofUnit (Operation.lasts_addGroup policy.rule g (hlacks _))
  | updateGroup d g => exact Work.obeys_ofUnit (Operation.lasts_updateGroup g (hlacks _))
  | removeGroup d g => exact Work.obeys_ofUnit (Operation.lasts_removeGroup g (hlacks _))
  | addGroups d gs barrierAfter =>
      exact Work.obeys_ofUnit (Operation.lasts_addGroups policy.rule gs barrierAfter (hlacks _))
  | removeGroups d gs barrierAfter =>
      exact Work.obeys_ofUnit (Operation.lasts_removeGroups gs barrierAfter (hlacks _))
  | barrier d => exact Work.obeys_ofUnit (Operation.lasts_barrier (hlacks _))
  | observe d f => trivial

end Southbound
