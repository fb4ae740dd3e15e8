import Southbound.Proofs.Operation.Discipline

/-!
# A group before its flow

Operations that install a flow first make sure of the group that the flow depends
on.  As a discipline of programs (`groupFirst`): a message that installs a flow may be
sent only if the group of the flow is the one that the registry has shown or was
given just before.

Whatever else a program does, it may have to wait for, and what the registry shows
then need not be so any more.  So all is forgotten but over messages that are sent,
for which nobody waits.

The work of every request follows the discipline, with nothing known at its start
(`Request.work_obeys_groupFirst`).
-/

namespace Southbound

/-- The flow that a message installs, if it does. -/
def Message.installed? : Message → Option Flow
  | .flowMod ⟨.add, f, _, _, _⟩ => some f
  | .flowMod ⟨.modify, f, _, _, _⟩ => some f
  | .flowMod ⟨.modifyStrict, f, _, _, _⟩ => some f
  | _ => none

/-- A message that installs a flow with a group comes right after the registry has
shown the group to be there, or was told so. -/
def groupFirst : Discipline (Option GroupId) where
  may k
    | .send m => ∀ f g, m.installed? = some f → f.groupDependency = some g → k = some g
    | _ => True
  next k
    | .send _ => fun _ k' => k' = k
    | .hasGroup g => fun there k' => k' = if there then some g else none
    | .recordGroup g => fun _ k' => k' = some g
    | .readGroup g => fun found k' => k' = none ∧ ∀ group, found = .ok (some group) → group.id = g
    | _ => fun _ k' => k' = none

theorem groupFirst_patient : groupFirst.Patient where
  barrier _ := by
    intro f g hf
    cases hf
  await _ _ := trivial
  gather _ _ _ := trivial

/-- Anything but the installation of a flow may be sent at any time. -/
theorem groupFirst_may_send {k : Option GroupId} {m : Message} (h : m.installed? = none) :
    groupFirst.may k (.send m) := by
  intro f g hf
  rw [h] at hf
  cases hf

theorem installed?_delete (f : Flow) : (Message.flowMod (.delete f)).installed? = none := by
  rw [FlowMod.delete, FlowMod.ofFlow]
  split
  · rfl
  · rfl

/-- What an in-place change or a replacement installs is the updated flow. -/
theorem installed?_of_mem_updatePlan {old updated f : Flow} {m : FlowMod}
    (hm : m ∈ FlowMod.updatePlan old updated) (hf : (Message.flowMod m).installed? = some f) :
    f = updated := by
  rw [FlowMod.updatePlan] at hm
  split at hm
  · rw [List.mem_singleton] at hm
    subst hm
    rw [FlowMod.modify, FlowMod.ofFlow] at hf
    split at hf
    · exact (Option.some.inj hf).symm
    · exact (Option.some.inj hf).symm
  · rw [List.mem_cons, List.mem_singleton] at hm
    rcases hm with rfl | rfl
    · rw [installed?_delete] at hf
      cases hf
    · exact (Option.some.inj hf).symm

namespace Operation

variable {k : Option GroupId}

/-- A group that is pushed is the one that the registry was given last. -/
theorem follows_pushGroup (rule : GroupExistsRule) (group : Group) :
    Operation.Follows groupFirst k (pushGroup rule group) fun k' _ => k' = some group.id := by
  have hrecord (k : Option GroupId) (existed : Bool) :
      Operation.Follows groupFirst k (do recordGroup group.id; return existed) fun k' _ =>
        k' = some group.id :=
    follows_bind (follows_lift trivial fun _ k' hk' => follows_pure hk')
  refine follows_bind (follows_lift (groupFirst_may_send rfl) fun p k' _ => ?_)
  refine follows_bind (follows_lift trivial fun result k'' _ => ?_)
  split
  · exact hrecord k'' false
  · split
    · exact hrecord k'' true
    · exact follows_bind (follows_throw _)
  · exact follows_bind (follows_throw _)

/-- A group that is looked up and pushed is the one that the registry was given
last. -/
theorem follows_resolveGroup (rule : GroupExistsRule) (d : DeviceId) (g : GroupId) :
    Operation.Follows groupFirst k (resolveGroup rule d g) fun k' _ => k' = some g := by
  refine follows_bind (follows_lift trivial fun found k' hfound => ?_)
  split
  · exact follows_throw _
  · exact follows_throw _
  · next group =>
      have hid : group.id = g := hfound.2 group rfl
      refine follows_bind ((follows_pushGroup rule group).mono fun k'' existed hk'' => ?_)
      exact follows_pure (hid ▸ hk'')

/-- After a flow's group was made sure of, the registry has shown it or was given
it. -/
theorem follows_ensureGroup (rule : GroupExistsRule) (d : DeviceId) (f : Flow) :
    Operation.Follows groupFirst k (ensureGroup rule d f) fun k' _ =>
      ∀ g, f.groupDependency = some g → k' = some g := by
  rw [ensureGroup]
  cases hf : f.groupDependency with
  | none => exact follows_pure fun g hg => by cases hg
  | some g =>
      refine follows_bind (follows_lift trivial fun there k' hk' => ?_)
      cases there with
      | true =>
          refine follows_pure fun g' hg' => ?_
          rw [← hg']
          exact hk'
      | false =>
          refine (follows_resolveGroup rule d g).mono fun k'' _ hk'' g' hg' => ?_
          rw [← hg']
          exact hk''

/-- Flows may be installed whose group the registry has shown or was given just
before. -/
theorem follows_installs {mods : List FlowMod} {f : Flow} (barrierAfter : Bool)
    (hmods : ∀ m ∈ mods, ∀ f', (Message.flowMod m).installed? = some f' → f' = f)
    (hk : ∀ g, f.groupDependency = some g → k = some g) :
    Operation.Follows groupFirst k (sendFlowMods mods barrierAfter) fun _ _ => True := by
  refine follows_sendFlowMods groupFirst_patient (· = k) barrierAfter ?_ ?_ rfl
  · rintro k' rfl m hm f' g hf' hg
    rw [hmods m hm f' hf'] at hg
    exact hk g hg
  · rintro k' m p k'' rfl hk''
    exact hk''

theorem follows_addFlow (policy : OperationPolicy) (path : FlowPath) (f : Flow) :
    Operation.Follows groupFirst k (addFlow policy path f) fun _ _ => True := by
  refine follows_bind ((follows_ensureGroup policy.rule path.device f).mono fun k' _ hk' => ?_)
  refine follows_bind ((follows_installs f.barrier ?_ hk').mono fun k'' _ _ => ?_)
  · intro m hm f' hf'
    rw [List.mem_singleton.mp hm] at hf'
    exact (Option.some.inj hf').symm
  · exact follows_bind (follows_lift trivial fun _ _ _ => follows_pure trivial)

theorem follows_updateFlow (policy : OperationPolicy) (path : FlowPath) (old updated : Flow) :
    Operation.Follows groupFirst k (updateFlow policy path old updated) fun _ _ => True := by
  refine follows_bind ((follows_ensureGroup policy.rule path.device updated.toStrict).mono
    fun k' _ hk' => ?_)
  refine follows_bind ((follows_installs updated.toStrict.barrier ?_ hk').mono fun k'' _ _ => ?_)
  · exact fun m hm f' hf' => installed?_of_mem_updatePlan hm hf'
  · refine follows_bind (follows_lift trivial fun _ _ _ => ?_)
    exact follows_bind (follows_lift trivial fun _ _ _ => follows_pure trivial)

theorem follows_removeFlow (policy : OperationPolicy) (path : FlowPath) (f : Flow) :
    Operation.Follows groupFirst k (removeFlow policy path f) fun _ _ => True := by
  have hremove (k : Option GroupId) : Operation.Follows groupFirst k (do
      sendFlowMods [.delete f.toStrict] f.toStrict.barrier
      forgetFlow f.toStrict
      return (⟨path.descriptor, .noDependency⟩ : FlowOutcome)) fun _ _ => True := by
    refine follows_bind ((follows_sendFlowMods groupFirst_patient (fun _ => True) _ ?_
      (fun _ _ _ _ _ _ => trivial) trivial).mono fun k' _ _ => ?_)
    · intro k' _ m hm
      rw [List.mem_singleton.mp hm]
      exact groupFirst_may_send (installed?_delete _)
    · exact follows_bind (follows_lift trivial fun _ _ _ => follows_pure trivial)
  rw [removeFlow]
  dsimp only
  split
  · exact follows_bind (follows_lift trivial fun _ k' _ => hremove k')
  · exact hremove k

/-- Changes of groups install no flow. -/
theorem follows_groupMods (gs : List Group) (command : GroupCommand) (barrierAfter : Bool) :
    Operation.Follows groupFirst k
      (batchResult (gs.map fun g => .groupMod ⟨command, g⟩) barrierAfter) fun _ _ => True := by
  refine follows_batchResult groupFirst_patient (fun _ => True) barrierAfter ?_
    (fun _ _ _ _ _ _ => trivial) trivial
  intro k' _ m hm
  obtain ⟨g, -, rfl⟩ := List.mem_map.mp hm
  exact groupFirst_may_send rfl

theorem follows_addGroup (rule : GroupExistsRule) (group : Group) :
    Operation.Follows groupFirst k (addGroup rule group) fun _ _ => True :=
  follows_bind ((follows_pushGroup rule group).mono fun _ _ _ => follows_pure trivial)

theorem follows_updateGroup (group : Group) :
    Operation.Follows groupFirst k (updateGroup group) fun _ _ => True := by
  refine follows_bind (follows_lift (groupFirst_may_send rfl) fun p k' _ => ?_)
  refine follows_bind (follows_reply trivial fun _ k'' _ m _ => ?_)
  exact follows_lift trivial fun _ _ _ => trivial

theorem follows_removeGroup (group : Group) :
    Operation.Follows groupFirst k (removeGroup group) fun _ _ => True := by
  refine follows_bind (follows_lift (groupFirst_may_send rfl) fun p k' _ => ?_)
  refine follows_bind (follows_reply trivial fun _ k'' _ m _ => ?_)
  exact follows_lift trivial fun _ _ _ => trivial

theorem follows_addGroups (rule : GroupExistsRule) (gs : List Group) (barrierAfter : Bool) :
    Operation.Follows groupFirst k (addGroups rule gs barrierAfter) fun _ _ => True := by
  refine follows_bind (follows_ofOutcome fun _ _ => ?_)
  refine follows_bind ((follows_groupMods gs .add barrierAfter).mono fun k' result _ => ?_)
  refine follows_bind ((follows_forGroups (fun _ => True) (fun k'' g _ => ?_) trivial).mono
    fun _ _ _ => follows_ofOutcome fun _ _ => trivial)
  exact follows_lift trivial fun _ _ _ => trivial

theorem follows_removeGroups (gs : List Group) (barrierAfter : Bool) :
    Operation.Follows groupFirst k (removeGroups gs barrierAfter) fun _ _ => True := by
  refine follows_bind (follows_ofOutcome fun _ _ => ?_)
  refine follows_bind ((follows_groupMods gs .delete barrierAfter).mono fun k' result _ => ?_)
  refine follows_bind ((follows_forGroups (fun _ => True) (fun k'' g _ => ?_) trivial).mono
    fun _ _ _ => follows_ofOutcome fun _ _ => trivial)
  exact follows_lift trivial fun _ _ _ => trivial

end Operation

/-! ## Requests -/

/-- Whatever is asked of a device, a flow with a group is sent right after the
registry has shown the group or was given it. -/
theorem Request.work_obeys_groupFirst (policy : OperationPolicy) (c : ConnectionId) (r : Request) :
    (r.work policy c).Obeys groupFirst none := by
  cases r with
  | addFlow path f => exact Work.obeys_ofFlow (Operation.follows_addFlow policy path f)
  | updateFlow path old updated =>
      exact Work.obeys_ofFlow (Operation.follows_updateFlow policy path old updated)
  | removeFlow path f =>
      exact Work.obeys_ofFlow (Operation.follows_removeFlow policy path f)
  | addGroup d g => exact Work.obeys_ofUnit (Operation.follows_addGroup policy.rule g)
  | updateGroup d g => exact Work.obeys_ofUnit (Operation.follows_updateGroup g)
  | removeGroup d g => exact Work.obeys_ofUnit (Operation.follows_removeGroup g)
  | addGroups d gs barrierAfter =>
      exact Work.obeys_ofUnit (Operation.follows_addGroups policy.rule gs barrierAfter)
  | removeGroups d gs barrierAfter =>
      exact Work.obeys_ofUnit (Operation.follows_removeGroups gs barrierAfter)
  | barrier d =>
      exact Work.obeys_ofUnit (Operation.follows_barrier groupFirst_patient)
  | observe d f => trivial

end Southbound
