import Southbound.Proofs.Operation.Batches

/-!
# Operations and the answers that they wait for

The work of every request follows the discipline `answered`, with nothing known at its
start: what is recorded changes only when the messages of the request that the change rests
on are done, and if the request succeeds, it speaks for all its messages
(`Request.work_follows_answered`).
-/

namespace Southbound

variable {rule : GroupExistsRule} {r : Request} {k : Heard}

namespace Operation

/-! ## Groups -/

/-- A group is recorded when the device has confirmed it. -/
theorem hears_pushGroup (rule : GroupExistsRule) (group : Group) :
    Operation.Follows (answered rule r) k (pushGroup rule group) fun k' _ =>
      ∃ p, k'.Done r rule p (.groupMod ⟨.add, group⟩) := by
  have hrecord {k' : Heard} {p : Promise} {o : Outcome Message}
      (hsent : k'.sent p (.groupMod ⟨.add, group⟩)) (ho : k'.known p o)
      (hconfirms : rule.confirms (.groupMod ⟨.add, group⟩) o = true) (existed : Bool) :
      Operation.Follows (answered rule r) k' (do recordGroup group.id; return existed)
        fun k'' _ => ∃ p, k''.Done r rule p (.groupMod ⟨.add, group⟩) := by
    have hdone : k'.Done r rule p (.groupMod ⟨.add, group⟩) := ⟨hsent, o, ho, .inl hconfirms⟩
    refine follows_bind (follows_lift ⟨p, ⟨.add, group⟩, nofun, rfl, hdone⟩ fun _ k'' hk'' => ?_)
    exact follows_pure ⟨p, hdone.mono hk''⟩
  refine follows_bind (follows_lift trivial fun p k' hk' => ?_)
  refine follows_bind (follows_lift trivial fun result k'' hk'' => ?_)
  have hsent := hk''.1.sent p _ hk'.2
  split
  · exact hrecord hsent hk''.2 rfl false
  · split
    · next hmatches => exact hrecord hsent hk''.2 hmatches true
    · exact follows_bind (follows_throw _)
  · exact follows_bind (follows_throw _)

theorem hears_addGroup (rule : GroupExistsRule) (group : Group) :
    Operation.Follows (answered rule r) k (addGroup rule group) fun k' _ =>
      ∃ p, k'.Done r rule p (.groupMod ⟨.add, group⟩) :=
  follows_bind ((hears_pushGroup rule group).mono fun _ _ hdone => follows_pure hdone)

theorem hears_updateGroup (group : Group) :
    Operation.Follows (answered rule r) k (updateGroup group) fun k' _ =>
      ∃ p, k'.Done r rule p (.groupMod ⟨.modify, group⟩) := by
  refine follows_bind (follows_lift trivial fun p k' hk' => ?_)
  refine follows_bind (follows_reply trivial fun o k'' hk'' m hm => ?_)
  subst hm
  have hdone : k''.Done r rule p (.groupMod ⟨.modify, group⟩) :=
    ⟨hk''.1.sent p _ hk'.2, _, hk''.2, .inl rfl⟩
  exact follows_lift ⟨p, ⟨.modify, group⟩, nofun, rfl, hdone⟩ fun _ _ hk => ⟨p, hdone.mono hk⟩

theorem hears_removeGroup (group : Group) :
    Operation.Follows (answered rule r) k (removeGroup group) fun k' _ =>
      ∃ p, k'.Done r rule p (.groupMod ⟨.delete, group⟩) := by
  refine follows_bind (follows_lift trivial fun p k' hk' => ?_)
  refine follows_bind (follows_reply trivial fun o k'' hk'' m hm => ?_)
  subst hm
  have hdone : k''.Done r rule p (.groupMod ⟨.delete, group⟩) :=
    ⟨hk''.1.sent p _ hk'.2, _, hk''.2, .inl rfl⟩
  exact follows_lift ⟨p, ⟨.delete, group⟩, rfl, rfl, hdone⟩ fun _ _ hk => ⟨p, hdone.mono hk⟩

theorem hears_addGroups (hbatch : r.isGroupBatch = true) (gs : List Group) (barrierAfter : Bool) :
    Operation.Follows (answered rule r) k (addGroups rule gs barrierAfter) fun k' _ =>
      (∀ g ∈ gs, ∃ p, k'.Done r rule p (.groupMod ⟨.add, g⟩)) ∧
        (barrierAfter = true → ∃ p, k'.Over r rule p .barrierRequest) := by
  refine follows_bind (follows_ofOutcome fun _ _ => ?_)
  refine follows_bind ((hears_batchResult .add gs barrierAfter).mono fun k' result hk' => ?_)
  obtain ⟨results, last, rfl, hbatched⟩ := hk'
  refine follows_bind ((follows_forGroups_of_mem k'.Grows (fun k'' g hg hgrows => ?_)
    (.refl k')).mono fun k'' _ hgrows => follows_ofOutcome fun _ hok => ?_)
  · obtain ⟨p, group, o, i, x, hid, hp, ho, hx, haccepted⟩ := hbatched.exists_accepted hg
    have hfailed : ∀ cause total failures, o = .error cause →
        batchOutcome results last = .error (.batch total failures) →
        ⟨.member i, some x, cause⟩ ∈ failures →
        rule.confirms (.groupMod ⟨.add, group⟩) o = true := by
      rintro cause total failures rfl hout hmem
      cases habsorbs : rule.absorbs ⟨.member i, some x, cause⟩ with
      | true => exact (rule.confirms_of_absorbs habsorbs).2 group
      | false =>
          obtain ⟨rest, habsorb, hrest⟩ := rule.absorb_batch total hmem habsorbs
          rw [hout] at haccepted
          exact absurd hrest (haccepted total rest _ _ habsorb)
    have hdone : k'.Done r rule p (.groupMod ⟨.add, group⟩) :=
      ⟨hp, o, ho, member_counts last hx hbatch hfailed⟩
    exact follows_lift ⟨p, ⟨.add, group⟩, nofun, hid, hdone.mono hgrows⟩ fun _ _ => hgrows.trans
  · -- The batch has succeeded, so all failures are absorbed.
    refine hbatched.succeeded hbatch (fun f total failures hout hf => ?_) hgrows
    refine rule.confirms_of_absorbs (by_contra fun hnot => ?_)
    obtain ⟨rest, habsorb, -⟩ := rule.absorb_batch total hf (Bool.eq_false_iff.mpr hnot)
    rw [hout, habsorb] at hok
    cases hok

theorem hears_removeGroups (hbatch : r.isGroupBatch = true) (gs : List Group)
    (barrierAfter : Bool) :
    Operation.Follows (answered rule r) k (removeGroups gs barrierAfter) fun k' _ =>
      (∀ g ∈ gs, ∃ p, k'.Done r rule p (.groupMod ⟨.delete, g⟩)) ∧
        (barrierAfter = true → ∃ p, k'.Over r rule p .barrierRequest) := by
  refine follows_bind (follows_ofOutcome fun _ _ => ?_)
  refine follows_bind ((hears_batchResult .delete gs barrierAfter).mono fun k' result hk' => ?_)
  obtain ⟨results, last, rfl, hbatched⟩ := hk'
  refine follows_bind ((follows_forGroups_of_mem k'.Grows (fun k'' g hg hgrows => ?_)
    (.refl k')).mono fun k'' _ hgrows => follows_ofOutcome fun _ hok => ?_)
  · obtain ⟨p, group, o, i, x, hid, hp, ho, hx, haccepted⟩ := hbatched.exists_accepted hg
    have hdone : k'.Done r rule p (.groupMod ⟨.delete, group⟩) :=
      ⟨hp, o, ho, member_counts last hx hbatch fun cause total failures _ hout hmem =>
        absurd hmem (haccepted total failures _ _ hout)⟩
    exact follows_lift ⟨p, ⟨.delete, group⟩, rfl, hid, hdone.mono hgrows⟩ fun _ _ => hgrows.trans
  · refine hbatched.succeeded hbatch (fun f total failures hout _ => ?_) hgrows
    rw [hok] at hout
    cases hout

/-! ## Flows -/

theorem hears_ensureGroup (rule : GroupExistsRule) (d : DeviceId) (f : Flow) :
    Operation.Follows (answered rule r) k (ensureGroup rule d f) fun k' dependency =>
      dependency.isPush = true → ∃ p g, k'.Done r rule p (.groupMod ⟨.add, g⟩) := by
  rw [ensureGroup]
  split
  · exact follows_pure nofun
  · refine follows_bind (follows_lift trivial fun there k' _ => ?_)
    cases there with
    | true => exact follows_pure nofun
    | false =>
        refine follows_bind (follows_lift trivial fun found k'' hk'' => ?_)
        split
        · exact follows_throw _
        · exact follows_throw _
        · next group =>
            exact follows_bind ((hears_pushGroup rule group).mono fun _ _ hdone =>
              follows_pure fun _ => hdone.imp fun _ hp => ⟨group, hp⟩)

/-- Changes of flows that have succeeded are done. -/
theorem hears_sendFlowMods {mods : List FlowMod} {barrierAfter : Bool} (hmods : r.flowMods = mods)
    (hbarrier : r.flowBarrier = barrierAfter) (hpasses : r.passesOver .barrierRequest = true) :
    Operation.Follows (answered rule r) k (sendFlowMods mods barrierAfter) fun k' _ =>
      k.Grows k' ∧ (∀ mod ∈ mods, ∃ p, k'.Done r rule p (.flowMod mod)) ∧
        (barrierAfter = true → ∃ p, k'.Over r rule p .barrierRequest) := by
  refine follows_bind ((hears_sendAll _).mono fun k' ps hk' => ?_)
  have hsent := hk'.2
  rw [List.forall₂_map_right_iff] at hsent
  split
  · next p =>
      -- The only change is waited for alone.
      obtain ⟨mod, rest, hp, hrest, rfl⟩ := List.forall₂_cons_left_iff.mp hsent
      cases hrest
      refine follows_bind (follows_reply trivial fun o k'' hk'' m hm => follows_pure ?_)
      subst hm
      refine ⟨hk'.1.trans hk''.1, fun mod' hmod' => ?_, nofun⟩
      cases List.mem_singleton.mp hmod'
      exact ⟨p, hk''.1.sent p _ hp, _, hk''.2, .inl rfl⟩
  · next hseveral =>
      have hbatch (mod : FlowMod) : r.inBatch (.flowMod mod) = true := by
        simp only [Request.inBatch, hmods, hbarrier, Bool.or_eq_true, bne_iff_ne]
        by_contra hone
        obtain ⟨hopen, hlength⟩ := not_or.mp hone
        obtain ⟨p, rfl⟩ := List.length_eq_one_iff.mp (hsent.length_eq.trans (not_not.mp hlength))
        exact hseveral p rfl (Bool.eq_false_iff.mpr hopen)
      refine Program.Follows.mono (hears_composeWithBarrier ps barrierAfter) ?_
      rintro k'' result ⟨hgrows, results, last, rfl, hknown, hlast⟩ a hok
      refine ⟨hk'.1.trans hgrows, fun mod hmod => ?_, barrier_over results hlast hpasses ?_⟩
      · obtain ⟨i, hi⟩ := List.mem_iff_getElem?.mp hmod
        obtain ⟨p, hp, hpsent⟩ := exists_getElem?_of_forall₂ hsent hi
        obtain ⟨⟨x, o⟩, hx, ho⟩ := exists_getElem?_of_forall₂ hknown.flip hp
        refine ⟨p, hgrows.sent p _ hpsent, o, ho, member_counts last hx (hbatch mod) ?_⟩
        intro cause total failures _ hout
        cases hout.symm.trans hok
      · intro x cause total failures hout
        cases hout.symm.trans hok

/-- What an operation on a flow has done when it succeeds. -/
theorem fulfilled_of_flow {outcome : FlowOutcome} (hgroups : r.groupMods = [])
    (hbarrier : r.barrierAfter = r.flowBarrier)
    (hpush : outcome.dependency.isPush = true → ∃ p g, k.Done r rule p (.groupMod ⟨.add, g⟩))
    (hmods : ∀ mod ∈ r.flowMods, ∃ p, k.Done r rule p (.flowMod mod))
    (hover : r.flowBarrier = true → ∃ p, k.Over r rule p .barrierRequest) :
    r.Fulfilled (.flow outcome) (k.Over r rule) := by
  refine ⟨Request.forall_messages (fun mod hmod => (hmods mod hmod).imp fun _ hdone => hdone.over)
    (by simp [hgroups]) (hbarrier ▸ hover), fun outcome' hv hpush' => ?_⟩
  cases hv
  exact (hpush hpush').imp fun p => .imp fun g hdone => hdone.over

theorem hears_addFlow (policy : OperationPolicy) (path : FlowPath) (f : Flow) :
    let r : Request := .addFlow path f
    Operation.Follows (answered policy.rule r) k (addFlow policy path f) fun k' outcome =>
      r.Fulfilled (.flow outcome) (k'.Over r policy.rule) := by
  intro r
  refine follows_bind ((hears_ensureGroup policy.rule path.device f).mono
    fun k₁ dependency hpush => ?_)
  refine follows_bind ((hears_sendFlowMods (r := r) rfl rfl rfl).mono fun k₂ _ hk₂ => ?_)
  obtain ⟨hgrows, hdone, hover⟩ := hk₂
  refine follows_bind (follows_lift ⟨nofun, hdone⟩ fun _ k₃ hk₃ => follows_pure ?_)
  exact (fulfilled_of_flow rfl rfl (fun hp => (hpush hp).imp fun p =>
    .imp fun g h => h.mono hgrows) hdone hover).mono fun p m h => h.mono hk₃

theorem hears_updateFlow (policy : OperationPolicy) (path : FlowPath) (old updated : Flow) :
    let r : Request := .updateFlow path old updated
    Operation.Follows (answered policy.rule r) k (updateFlow policy path old updated)
      fun k' outcome => r.Fulfilled (.flow outcome) (k'.Over r policy.rule) := by
  intro r
  have hplan : r.flowMods ≠ [] := by
    show FlowMod.updatePlan old.toStrict updated.toStrict ≠ []
    rw [FlowMod.updatePlan]
    split <;> nofun
  refine follows_bind ((hears_ensureGroup policy.rule path.device _).mono
    fun k₁ dependency hpush => ?_)
  refine follows_bind ((hears_sendFlowMods (r := r) rfl rfl rfl).mono fun k₂ _ hk₂ => ?_)
  obtain ⟨hgrows, hdone, hover⟩ := hk₂
  refine follows_bind (follows_lift ⟨hplan, hdone⟩ fun _ k₃ hk₃ => ?_)
  have hdone' (mod : FlowMod) (hmod : mod ∈ r.flowMods) :=
    (hdone mod hmod).imp fun p hp => hp.mono hk₃
  refine follows_bind (follows_lift ⟨hplan, hdone'⟩ fun _ k₄ hk₄ => follows_pure ?_)
  exact (fulfilled_of_flow rfl rfl (fun hp => (hpush hp).imp fun p =>
    .imp fun g h => h.mono hgrows) hdone hover).mono fun p m h => h.mono (hk₃.trans hk₄)

theorem hears_removeFlow (policy : OperationPolicy) (path : FlowPath) (f : Flow) :
    let r : Request := .removeFlow path f
    Operation.Follows (answered policy.rule r) k (removeFlow policy path f) fun k' outcome =>
      r.Fulfilled (.flow outcome) (k'.Over r policy.rule) := by
  intro r
  have hrest (k : Heard) : Operation.Follows (answered policy.rule r) k
      (do
        sendFlowMods [.delete f.toStrict] f.toStrict.barrier
        forgetFlow f.toStrict
        return (⟨path.descriptor, .noDependency⟩ : FlowOutcome))
      fun k' outcome => r.Fulfilled (.flow outcome) (k'.Over r policy.rule) := by
    refine follows_bind ((hears_sendFlowMods (r := r) rfl rfl rfl).mono fun k₁ _ hk₁ => ?_)
    obtain ⟨-, hdone, hover⟩ := hk₁
    have hfulfilled :
        r.Fulfilled (.flow ⟨path.descriptor, .noDependency⟩) (k₁.Over r policy.rule) :=
      fulfilled_of_flow rfl rfl nofun hdone hover
    refine follows_bind (follows_lift ⟨nofun, hdone⟩ fun _ k₂ hk₂ => follows_pure ?_)
    exact hfulfilled.mono fun p m h => h.mono hk₂
  rw [removeFlow]
  split
  · exact follows_bind (follows_lift trivial fun _ k' _ => hrest k')
  · exact hrest k

theorem hears_barrier : Operation.Follows (answered rule r) k barrier fun k' _ =>
    ∃ p, k'.Over r rule p .barrierRequest := by
  refine follows_bind (follows_lift trivial fun p k' hk' => ?_)
  refine follows_bind (follows_reply trivial fun o k'' hk'' m hm => ?_)
  subst hm
  exact follows_ofOutcome fun _ _ => ⟨p, hk''.1.sent p _ hk'.2, _, hk''.2, .inl rfl⟩

end Operation

/-! ## Requests -/

/-- A request that changes groups and has succeeded. -/
theorem Request.fulfilled_done (hmods : r.flowMods = [])
    (hgroups : ∀ mod ∈ r.groupMods, ∃ p, k.Done r rule p (.groupMod mod))
    (hover : r.barrierAfter = true → ∃ p, k.Over r rule p .barrierRequest) :
    r.Fulfilled .done (k.Over r rule) :=
  ⟨Request.forall_messages (by simp [hmods])
    (fun mod hmod => (hgroups mod hmod).imp fun _ hdone => hdone.over) hover,
    fun _ hv => nomatch hv⟩

/-- Whatever is asked of a device, what is recorded of it changes only when the messages of
the request that the change rests on are done, and if the request succeeds it speaks for all
its messages. -/
theorem Request.work_follows_answered (policy : OperationPolicy) (c : ConnectionId) (r : Request)
    (k : Heard) : (r.work policy c).Follows (answered policy.rule r) k fun k' result =>
      ∀ v, result = .ok v → r.Fulfilled v (k'.Over r policy.rule) := by
  cases r with
  | addFlow path f => exact Work.follows_ofFlow (Operation.hears_addFlow policy path f)
  | updateFlow path old updated =>
      exact Work.follows_ofFlow (Operation.hears_updateFlow policy path old updated)
  | removeFlow path f => exact Work.follows_ofFlow (Operation.hears_removeFlow policy path f)
  | addGroup d g =>
      refine Work.follows_ofUnit ((Operation.hears_addGroup policy.rule g).mono fun _ _ hdone => ?_)
      exact fulfilled_done rfl (by simpa [groupMods] using hdone) nofun
  | updateGroup d g =>
      refine Work.follows_ofUnit ((Operation.hears_updateGroup g).mono fun _ _ hdone => ?_)
      exact fulfilled_done rfl (by simpa [groupMods] using hdone) nofun
  | removeGroup d g =>
      refine Work.follows_ofUnit ((Operation.hears_removeGroup g).mono fun _ _ hdone => ?_)
      exact fulfilled_done rfl (by simpa [groupMods] using hdone) nofun
  | addGroups d gs barrierAfter =>
      refine Work.follows_ofUnit ((Operation.hears_addGroups rfl gs barrierAfter).mono
        fun _ _ hdone => ?_)
      exact fulfilled_done rfl (by simpa [groupMods] using hdone.1) hdone.2
  | removeGroups d gs barrierAfter =>
      refine Work.follows_ofUnit ((Operation.hears_removeGroups rfl gs barrierAfter).mono
        fun _ _ hdone => ?_)
      exact fulfilled_done rfl (by simpa [groupMods] using hdone.1) hdone.2
  | barrier d =>
      refine Work.follows_ofUnit (Operation.hears_barrier.mono fun _ _ hover => ?_)
      exact fulfilled_done rfl (by simp [groupMods]) fun _ => hover
  | observe d f => trivial

end Southbound
