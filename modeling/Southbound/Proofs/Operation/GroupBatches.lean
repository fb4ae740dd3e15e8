import Southbound.Proofs.Operation.BatchFailures
import Southbound.Proofs.Operation.Batches
import Southbound.Proofs.Operation.Recording

/-!
# Groups that are changed, alone or in a batch

An operation that changes one group sends the change, waits for what comes of it, and if the
device has confirmed it records what is known of the group now.  A batch of changes sends all
of them and waits for all.

A batch is told which of its members have failed, and takes for accepted those of which it is
not told.  These are exactly the members that the device has confirmed
(`accepted_eq_confirmedMods`), so a batch records what its members would record one by one.
Its outcome follows a rule of its own (`GroupsCome`): the word of a device that a group is
there already does not count as a failure.

All this is said of batches of which nothing was withdrawn.
-/

namespace Southbound

/-! ## Changes that were confirmed -/

/-- What is recorded of a group when the device has confirmed a change of it. -/
def GroupMod.deed (mod : GroupMod) : Deed :=
  if mod.command = .delete then ⟨.forgetGroup mod.group.id, ()⟩ else ⟨.recordGroup mod.group.id, ()⟩

/-- Those of some changes that the device has confirmed, as their results say. -/
def confirmedMods (rule : GroupExistsRule) (mods : List GroupMod)
    (outcomes : List (Outcome Message)) : List GroupMod :=
  ((mods.zip outcomes).filter fun x => rule.confirms (.groupMod x.1) x.2).map Prod.fst

variable {rule : GroupExistsRule} {mods mods' : List GroupMod} {mod : GroupMod} {g : GroupId}
  {outcomes outcomes' : List (Outcome Message)} {o : Outcome Message} {results : List Settled}
  {closing : Option Settled} {key : Flow → FlowKey} {R : Records} {h : List Deed}
  {result : Outcome Unit} {f : BatchFailure Failure} {total : Nat}

theorem confirmedMods_cons : confirmedMods rule (mod :: mods) (o :: outcomes) =
    confirmedMods rule [mod] [o] ++ confirmedMods rule mods outcomes := by
  rw [confirmedMods, List.zip_cons_cons, List.filter_cons]
  by_cases ho : rule.confirms (.groupMod mod) o = true
  · simp [confirmedMods, ho]
  · simp [confirmedMods, ho]

theorem mem_confirmedMods : mod ∈ confirmedMods rule mods outcomes ↔ ∃ (i : Nat) (o : _),
    mods[i]? = some mod ∧ outcomes[i]? = some o ∧ rule.confirms (.groupMod mod) o = true := by
  simp only [confirmedMods, List.mem_map, List.mem_filter, Prod.exists, exists_and_right,
    exists_eq_right]
  constructor
  · rintro ⟨o, hmem, ho⟩
    obtain ⟨i, hi⟩ := List.mem_iff_getElem?.mp hmem
    obtain ⟨hmod, houtcome⟩ := List.getElem?_zip_eq_some.mp hi
    exact ⟨i, o, hmod, houtcome, ho⟩
  · rintro ⟨i, o, hmod, houtcome, ho⟩
    exact ⟨o, List.mem_of_getElem? (List.getElem?_zip_eq_some.mpr ⟨hmod, houtcome⟩), ho⟩

theorem command_of_mem_confirmedMods {command : GroupCommand} {gs : List Group}
    (hmod : mod ∈ confirmedMods rule (gs.map (⟨command, ·⟩)) outcomes) : mod.command = command := by
  obtain ⟨i, o, hi, -⟩ := mem_confirmedMods.mp hmod
  obtain ⟨group, -, rfl⟩ := List.mem_map.mp (List.mem_of_getElem? hi)
  rfl

/-- The groups of changes with one command that the device has confirmed. -/
theorem exists_mem_confirmedMods {command : GroupCommand} {gs : List Group} :
    (∃ mod ∈ confirmedMods rule (gs.map (⟨command, ·⟩)) (results.map Prod.snd),
        mod.group.id = g) ↔
      ∃ (i : Nat) (group : Group) (x : Xid) (o : Outcome Message), gs[i]? = some group ∧
        group.id = g ∧ results[i]? = some (x, o) ∧
          rule.confirms (.groupMod ⟨command, group⟩) o = true := by
  constructor
  · rintro ⟨mod, hmod, rfl⟩
    obtain ⟨i, o, hi, ho, hconfirms⟩ := mem_confirmedMods.mp hmod
    rw [List.getElem?_map] at hi ho
    obtain ⟨group, hgroup, rfl⟩ := Option.map_eq_some_iff.mp hi
    obtain ⟨⟨x, o'⟩, hx, rfl⟩ := Option.map_eq_some_iff.mp ho
    exact ⟨i, group, x, o', hgroup, rfl, hx, hconfirms⟩
  · rintro ⟨i, group, x, o, hgroup, rfl, hx, hconfirms⟩
    refine ⟨⟨command, group⟩, mem_confirmedMods.mpr ⟨i, o, ?_, ?_, hconfirms⟩, rfl⟩
    · rw [List.getElem?_map, hgroup]
      rfl
    · rw [List.getElem?_map, hx]
      rfl

/-- Only of an addition can a device confirm by a failure that it is done. -/
theorem GroupExistsRule.confirms_eq_isOk (hmod : mod.command ≠ .add) :
    rule.confirms (.groupMod mod) o = o.isOk := by
  obtain ⟨command, group⟩ := mod
  cases o with
  | ok m => rfl
  | error cause =>
      cases command with
      | add => exact absurd rfl hmod
      | _ => cases cause <;> rfl

/-- The groups of additions that the device has confirmed. -/
theorem exists_added_iff {gs : List Group} :
    (∃ mod ∈ confirmedMods rule (gs.map (⟨.add, ·⟩)) (results.map Prod.snd), mod.group.id = g) ↔
      ∃ (i : Nat) (group : Group) (x : Xid) (o : Outcome Message), gs[i]? = some group ∧
        group.id = g ∧ results[i]? = some (x, o) ∧ ∃ existed, rule.verdict o = .ok existed := by
  refine exists_mem_confirmedMods.trans ?_
  simp only [GroupExistsRule.confirms_iff]

/-- The groups of removals that the device has confirmed. -/
theorem exists_removed_iff {gs : List Group} :
    (∃ mod ∈ confirmedMods rule (gs.map (⟨.delete, ·⟩)) (results.map Prod.snd),
        mod.group.id = g) ↔
      ∃ (i : Nat) (group : Group) (x : Xid) (m : Message), gs[i]? = some group ∧
        group.id = g ∧ results[i]? = some (x, .ok m) := by
  refine exists_mem_confirmedMods.trans ?_
  refine exists_congr fun i => exists_congr fun group => exists_congr fun x => ?_
  constructor
  · rintro ⟨o, hgroup, hid, ho, hconfirms⟩
    rw [GroupExistsRule.confirms_eq_isOk (by simp)] at hconfirms
    cases o with
    | ok m => exact ⟨m, hgroup, hid, ho⟩
    | error cause => cases hconfirms
  · rintro ⟨m, hgroup, hid, hm⟩
    exact ⟨.ok m, hgroup, hid, hm, rfl⟩

/-- Changes of groups leave the flows alone. -/
theorem recordAll_deed_snd (R : Records) (mods : List GroupMod) :
    (recordAll key R (mods.map GroupMod.deed)).2 = R.2 := by
  induction mods generalizing R with
  | nil => rfl
  | cons mod mods ih =>
      rw [List.map_cons, recordAll_cons, ih, GroupMod.deed]
      split <;> rfl

/-- What records something sends nothing. -/
theorem messagesOf_of_isRecord (hrecords : ∀ deed ∈ h, deed.effect.isRecord = true) :
    messagesOf h = [] := by
  refine List.filterMap_eq_nil_iff.mpr fun deed hdeed => ?_
  obtain ⟨q, a⟩ := deed
  cases q with
  | send m => cases hrecords _ hdeed
  | _ => rfl

theorem GroupMod.isRecord_deed (mod : GroupMod) : mod.deed.effect.isRecord = true := by
  rw [deed]
  split <;> rfl

/-- What changes of groups make of the groups does not depend on the flows. -/
theorem recordAll_deed_fst_congr {R R' : Records} (hR : R.1 = R'.1) (mods : List GroupMod) :
    (recordAll key R (mods.map GroupMod.deed)).1 =
      (recordAll key R' (mods.map GroupMod.deed)).1 := by
  induction mods generalizing R R' with
  | nil => exact hR
  | cons mod mods ih =>
      refine ih ?_
      rw [GroupMod.deed]
      split
      · exact congrArg (List.filter (· ≠ mod.group.id)) hR
      · exact congrArg (insertGroup mod.group.id) hR

/-- Groups that were added are recorded besides those that were there. -/
theorem mem_recordAll_added (hadds : ∀ mod ∈ mods, mod.command ≠ .delete) :
    g ∈ (recordAll key R (mods.map GroupMod.deed)).1 ↔ g ∈ R.1 ∨ ∃ mod ∈ mods, mod.group.id = g := by
  induction mods generalizing R with
  | nil => simp
  | cons mod mods ih =>
      obtain ⟨hmod, hmods⟩ := List.forall_mem_cons.mp hadds
      rw [List.map_cons, recordAll_cons, ih hmods, GroupMod.deed, if_neg hmod, Deed.record,
        mem_insertGroup]
      simp only [List.mem_cons, exists_eq_or_imp]
      rw [or_right_comm, or_comm, eq_comm (a := g), or_comm (a := g ∈ R.1)]

/-- Groups that were removed are not recorded any more. -/
theorem mem_recordAll_removed (hremoves : ∀ mod ∈ mods, mod.command = .delete) :
    g ∈ (recordAll key R (mods.map GroupMod.deed)).1 ↔
      g ∈ R.1 ∧ ¬∃ mod ∈ mods, mod.group.id = g := by
  induction mods generalizing R with
  | nil => simp
  | cons mod mods ih =>
      obtain ⟨hmod, hmods⟩ := List.forall_mem_cons.mp hremoves
      rw [List.map_cons, recordAll_cons, ih hmods, GroupMod.deed, if_pos hmod, Deed.record,
        List.mem_filter, and_assoc, decide_eq_true_eq, ne_comm]
      simp only [List.mem_cons, exists_eq_or_imp, not_or, ne_eq]

/-! ## What a batch of changes comes to -/

/-- A failure that is left of a batch of changes of groups: that of a member which the device
has not confirmed, or that of the barrier. -/
inductive Remains (rule : GroupExistsRule) (mods : List GroupMod) (results : List Settled)
    (closing : Option Settled) : BatchFailure Failure → Prop where
  | member {i : Nat} {mod : GroupMod} {x : Xid} {cause : Failure} : mods[i]? = some mod →
      results[i]? = some (x, .error cause) → rule.confirms (.groupMod mod) (.error cause) = false →
      Remains rule mods results closing ⟨.member i, some x, cause⟩
  | barrier {x : Xid} {o : Outcome Message} {cause : Failure} :
      closing = some (x, o) → BarrierFault x o cause →
      Remains rule mods results closing ⟨.barrier, some x, .barrierFailed cause⟩

/-- What the results of a batch of changes of groups come to. -/
inductive GroupsCome (rule : GroupExistsRule) (mods : List GroupMod) (results : List Settled)
    (closing : Option Settled) : Outcome Unit → Prop where
  | succeeded :
      (∀ (i : Nat) mod x o, mods[i]? = some mod → results[i]? = some (x, o) →
        rule.confirms (.groupMod mod) o = true) →
      (∀ x, closing = some x → x.2 = .ok .barrierReply) →
      GroupsCome rule mods results closing (.ok ())
  | failed {failures : List (BatchFailure Failure)} :
      failures ≠ [] → (∀ f, f ∈ failures ↔ Remains rule mods results closing f) →
      failures.Pairwise (fun f g => f.step.Before g.step) →
      GroupsCome rule mods results closing
        (.error (.batch (results.length + closing.toList.length) failures))

/-- A batch of changes of groups has succeeded exactly if nothing of it stands in the way. -/
theorem GroupsCome.eq_ok_iff (hcome : GroupsCome rule mods results closing result) :
    result = .ok () ↔
      (∀ (i : Nat) mod x o, mods[i]? = some mod → results[i]? = some (x, o) →
        rule.confirms (.groupMod mod) o = true) ∧
      ∀ x, closing = some x → x.2 = .ok .barrierReply := by
  cases hcome with
  | succeeded hmembers hbarrier => exact ⟨fun _ => ⟨hmembers, hbarrier⟩, fun _ => rfl⟩
  | failed hne hmem _ =>
      refine ⟨nofun, fun ⟨hmembers, hbarrier⟩ => ?_⟩
      obtain ⟨f, hf⟩ := List.exists_mem_of_ne_nil _ hne
      cases (hmem f).mp hf with
      | member hmod hresult hfailed =>
          rw [hmembers _ _ _ _ hmod hresult] at hfailed
          cases hfailed
      | barrier hclosing hfault =>
          obtain rfl := hbarrier _ hclosing
          cases hfault with
          | unexpected hm => exact absurd rfl hm

/-- Nothing in a batch was withdrawn. -/
def NoneWithdrawn (results : List Settled) (closing : Option Settled) : Prop :=
  ∀ x ∈ results ++ closing.toList, x.2 ≠ .error .cancelled

/-- What a batch with some failures comes to. -/
def outcomeOf (total : Nat) : List (BatchFailure Failure) → Outcome Unit
  | [] => .ok ()
  | failures => .error (.batch total failures)

theorem batchOutcome_eq (results : List Settled) (closing : Option Settled) :
    batchOutcome results closing =
      outcomeOf (results.length + closing.toList.length) (failuresOf results closing) := by
  by_cases hnil : failuresOf results closing = []
  · rw [batchOutcome_of_nil hnil, hnil, outcomeOf]
  · rw [batchOutcome_of_ne_nil hnil, outcomeOf]
    exact hnil

theorem GroupExistsRule.absorb_outcomeOf (rule : GroupExistsRule) (total : Nat)
    (failures : List (BatchFailure Failure)) :
    rule.absorb (outcomeOf total failures) =
      outcomeOf total (failures.filter (!rule.absorbs ·)) := by
  cases failures with
  | nil => rfl
  | cons f failures => rfl

/-- A batch comes to what is left of its failures. -/
theorem groupsCome_of_remains {failures : List (BatchFailure Failure)}
    (hnone : NoneWithdrawn results closing)
    (hmem : ∀ f, f ∈ failures ↔ Remains rule mods results closing f)
    (hpairwise : failures.Pairwise fun f g => f.step.Before g.step) :
    GroupsCome rule mods results closing
      (outcomeOf (results.length + closing.toList.length) failures) := by
  obtain ⟨hmembers, hbarrier⟩ := List.forall_mem_append.mp hnone
  cases failures with
  | cons f failures => exact .failed (List.cons_ne_nil _ _) hmem hpairwise
  | nil =>
      have hnot (f : BatchFailure Failure) (hf : Remains rule mods results closing f) : False :=
        List.not_mem_nil ((hmem f).mpr hf)
      refine .succeeded (fun i mod x o hmod hresult => ?_) fun x hx => ?_
      · cases o with
        | ok m => rfl
        | error cause =>
            by_contra hfailed
            exact hnot _ (.member hmod hresult (Bool.eq_false_iff.mpr hfailed))
      · obtain ⟨x, o⟩ := x
        cases o with
        | ok m =>
            by_contra hm
            exact hnot _ (.barrier hx (.unexpected fun hreply => hm (congrArg _ hreply)))
        | error cause =>
            have hcause : cause ≠ .cancelled := fun hcause =>
              hbarrier (x, .error cause) (by simp [hx]) (congrArg _ hcause)
            exact (hnot _ (.barrier hx (.failed hcause))).elim

/-- The failures that remain are those that stand in the way, without the members that the
device has confirmed. -/
theorem remains_iff (hlength : results.length = mods.length) (hnone : NoneWithdrawn results closing)
    {drops : BatchFailure Failure → Bool}
    (hmember : ∀ mod ∈ mods, ∀ i x cause,
      drops ⟨.member i, x, cause⟩ = rule.confirms (.groupMod mod) (.error cause))
    (hbarrier : ∀ x cause, drops ⟨.barrier, x, cause⟩ = false) :
    f ∈ (failuresOf results closing).filter (!drops ·) ↔ Remains rule mods results closing f := by
  rw [List.mem_filter, mem_failuresOf, Bool.not_eq_true']
  constructor
  · rintro ⟨⟨hresult, -⟩ | ⟨hclosing, hfault⟩, hkept⟩
    · obtain ⟨hi, -⟩ := List.getElem?_eq_some_iff.mp hresult
      have hmod := List.getElem?_eq_getElem (hlength ▸ hi)
      rw [hmember _ (List.mem_of_getElem? hmod)] at hkept
      exact .member hmod hresult hkept
    · exact .barrier hclosing hfault
  · rintro (⟨hmod, hresult, hfailed⟩ | ⟨hclosing, hfault⟩)
    · refine ⟨.member hresult ?_, (hmember _ (List.mem_of_getElem? hmod) ..).trans hfailed⟩
      rintro rfl
      exact hnone _ (List.mem_append_left _ (List.mem_of_getElem? hresult)) rfl
    · exact ⟨.barrier hclosing hfault, hbarrier ..⟩

/-- A batch of additions succeeds also for the groups that are there already. -/
theorem groupsCome_absorb (hadds : ∀ mod ∈ mods, mod.command = .add)
    (hlength : results.length = mods.length) (hnone : NoneWithdrawn results closing) :
    GroupsCome rule mods results closing (rule.absorb (batchOutcome results closing)) := by
  rw [batchOutcome_eq, rule.absorb_outcomeOf]
  refine groupsCome_of_remains hnone (fun f => remains_iff hlength hnone ?_ fun _ _ => rfl)
    ((pairwise_failuresOf results closing).filter _)
  rintro ⟨command, group⟩ hmod i x cause
  cases hadds _ hmod
  cases cause <;> rfl

theorem groupsCome_batchOutcome (hremoves : ∀ mod ∈ mods, mod.command = .delete)
    (hlength : results.length = mods.length) (hnone : NoneWithdrawn results closing) :
    GroupsCome rule mods results closing (batchOutcome results closing) := by
  have hall : failuresOf results closing =
      (failuresOf results closing).filter fun f => !(fun _ => false) f := by simp
  rw [batchOutcome_eq]
  refine groupsCome_of_remains hnone (fun f => ?_) (pairwise_failuresOf results closing)
  rw [hall]
  refine remains_iff hlength hnone ?_ fun _ _ => rfl
  rintro ⟨command, group⟩ hmod i x cause
  cases hremoves _ hmod
  cases cause <;> rfl

/-- A batch is told of just those members that they failed which the device has not confirmed. -/
theorem mem_failedMembers {failures : List (BatchFailure Failure)}
    (hmem : ∀ f, f ∈ failures ↔ Remains rule mods results closing f) {i : Nat} {x : Xid}
    (hmod : mods[i]? = some mod) (hresult : results[i]? = some (x, o)) :
    i ∈ (Failure.batch total failures).failedMembers ↔
      ¬rule.confirms (.groupMod mod) o = true := by
  rw [Failure.failedMembers, List.mem_filterMap]
  constructor
  · rintro ⟨f, hf, hstep⟩
    cases (hmem f).mp hf with
    | barrier _ _ => cases hstep
    | member hmod' hresult' hfailed =>
        cases hstep
        cases hmod.symm.trans hmod'
        cases hresult.symm.trans hresult'
        exact Bool.eq_false_iff.mp hfailed
  · intro hfailed
    cases o with
    | ok m => exact absurd rfl hfailed
    | error cause =>
        exact ⟨_, (hmem _).mpr (.member hmod hresult (Bool.eq_false_iff.mpr hfailed)), rfl⟩

/-- The groups of those members are left of which it is not said that they failed. -/
theorem filterMap_eq_confirmedMods {failed : List Nat} {k : Nat}
    (hlength : outcomes.length = mods.length)
    (hfailed : ∀ i mod o, mods[i]? = some mod → outcomes[i]? = some o →
      (i + k ∈ failed ↔ ¬rule.confirms (.groupMod mod) o = true)) :
    ((mods.map (·.group.id)).zipIdx k).filterMap
        (fun x => if failed.contains x.2 then none else some x.1) =
      (confirmedMods rule mods outcomes).map (·.group.id) := by
  induction mods generalizing outcomes k with
  | nil => rfl
  | cons mod mods ih =>
      cases outcomes with
      | nil => cases hlength
      | cons o outcomes =>
          have hfirst := hfailed 0 mod o rfl rfl
          have hrest := ih (k := k + 1) (Nat.succ.inj hlength) fun i mod o hmod ho => by
            have hshift := hfailed (i + 1) mod o hmod ho
            rwa [Nat.add_right_comm, Nat.add_assoc] at hshift
          rw [Nat.zero_add] at hfirst
          rw [List.map_cons, List.zipIdx_cons, List.filterMap_cons, hrest, confirmedMods_cons]
          by_cases ho : rule.confirms (.groupMod mod) o = true
          · have hkept : k ∉ failed := fun hk => hfirst.mp hk ho
            simp [confirmedMods, ho, hkept]
          · have hgone : k ∈ failed := hfirst.mpr ho
            simp [confirmedMods, ho, hgone]

/-- The groups for which a batch takes its members for accepted are those of the changes that
the device has confirmed. -/
theorem accepted_eq_confirmedMods (hcome : GroupsCome rule mods results closing result)
    (hlength : results.length = mods.length) :
    accepted (mods.map (·.group.id)) result =
      (confirmedMods rule mods (results.map Prod.snd)).map (·.group.id) := by
  have hresults {i : Nat} {o : Outcome Message} (ho : (results.map Prod.snd)[i]? = some o) :
      ∃ x, results[i]? = some (x, o) := by
    rw [List.getElem?_map] at ho
    obtain ⟨⟨x, o'⟩, hx, rfl⟩ := Option.map_eq_some_iff.mp ho
    exact ⟨x, hx⟩
  have hlength : (results.map Prod.snd).length = mods.length := by rw [List.length_map, hlength]
  cases hcome with
  | succeeded hmembers _ =>
      have hnone (i : Nat) (mod : GroupMod) (o : Outcome Message) (hmod : mods[i]? = some mod)
          (ho : (results.map Prod.snd)[i]? = some o) :
          i + 0 ∈ ([] : List Nat) ↔ ¬rule.confirms (.groupMod mod) o = true := by
        obtain ⟨x, hx⟩ := hresults ho
        simp [hmembers i mod x o hmod hx]
      exact filterMap_eq_confirmedMods hlength hnone
  | @failed failures _ hmem _ =>
      refine filterMap_eq_confirmedMods hlength fun i mod o hmod ho => ?_
      obtain ⟨x, hx⟩ := hresults ho
      exact mem_failedMembers hmem hmod hx

/-! ## What operations on groups do -/

namespace Operation

/-- An operation whose outcome is waited for, whatever it is. -/
theorem does_lift_run {α : Type} {o : Operation α} {r : Outcome (Outcome α)} :
    Does (ExceptT.lift o.run) h r ↔ ∃ a, o.Does h a ∧ r = .ok a := by
  have hrun : Does (ExceptT.lift o.run) h r ↔
      (o.run.bind fun a => .done (.ok a)).Comes h (.done r) := Iff.rfl
  rw [hrun, Program.comes_bind]
  constructor
  · rintro ⟨h₁, a, h₂, rfl, ho, hend⟩
    obtain ⟨rfl, rfl⟩ := Program.comes_done.mp hend
    rw [List.append_nil]
    exact ⟨a, ho, rfl⟩
  · rintro ⟨a, ho, rfl⟩
    exact ⟨h, a, [], (List.append_nil h).symm, ho, .here _⟩

/-- Each message is sent with the promise at its place. -/
theorem mem_sends_of_getElem? {ms : List Message} {ps : List Promise} {m : Message} {p : Promise}
    {i : Nat} (hm : ms[i]? = some m) (hp : ps[i]? = some p) :
    (⟨.send m, p⟩ : Deed) ∈ sends ms ps := by
  refine List.mem_of_getElem? (i := i) ?_
  rw [sends, List.getElem?_zipWith, hm, hp]

/-- What is done in one deed for each group of a list. -/
theorem does_forGroups {f : GroupId → Operation Unit} {deed : GroupId → Deed}
    (hf : ∀ g h r, (f g).Does h r ↔ h = [deed g] ∧ r = .ok ()) {gs : List GroupId}
    {r : Outcome Unit} : (forGroups f gs).Does h r ↔ h = gs.map deed ∧ r = .ok () := by
  induction gs generalizing h with
  | nil => exact does_pure
  | cons g gs ih =>
      rw [forGroups, does_bind]
      constructor
      · rintro (⟨h₁, ⟨⟩, h₂, rfl, hfirst, hrest⟩ | ⟨e, hfirst, -⟩)
        · obtain ⟨rfl, -⟩ := (hf ..).mp hfirst
          obtain ⟨rfl, rfl⟩ := ih.mp hrest
          exact ⟨rfl, rfl⟩
        · obtain ⟨-, herror⟩ := (hf ..).mp hfirst
          cases herror
      · rintro ⟨rfl, rfl⟩
        exact .inl ⟨[deed g], (), _, rfl, (hf ..).mpr ⟨rfl, rfl⟩, ih.mpr ⟨rfl, rfl⟩⟩

/-- A batch sends its messages, the barrier last, and waits for all of them. -/
theorem does_batchResult {ms : List Message} {barrierAfter : Bool} {r : Outcome (Outcome Unit)}
    (hdoes : (batchResult ms barrierAfter).Does h r) :
    ∃ (ps : List Promise) (barrier : Option Promise) (results : List Settled)
      (closing : Option Settled), ps.length = ms.length ∧ barrier.isSome = barrierAfter ∧
        h = sends (ms ++ if barrierAfter then [.barrierRequest] else []) (ps ++ barrier.toList) ++
          [⟨.gather ps barrier, (results, closing)⟩] ∧
        r = .ok (batchOutcome results closing) := by
  rw [batchResult] at hdoes
  rcases does_bind.mp hdoes with ⟨h₁, ps, h₂, rfl, hsend, hwait⟩ | ⟨e, hsend, -⟩
  · obtain ⟨ps', hlength, rfl, hps⟩ := does_sendAll.mp hsend
    cases hps
    obtain ⟨a, hcompose, rfl⟩ := does_lift_run.mp hwait
    obtain ⟨results, closing, rfl, ⟨rfl, rfl⟩ | ⟨rfl, p, rfl⟩⟩ :=
      does_composeWithBarrier.mp hcompose
    · exact ⟨ps, none, results, closing, hlength, rfl, by simp, rfl⟩
    · refine ⟨ps, some p, results, closing, hlength, rfl, ?_, rfl⟩
      rw [if_pos rfl, sends, sends, List.zipWith_append hlength.symm, Option.toList_some]
      simp
  · obtain ⟨ps, -, -, hps⟩ := does_sendAll.mp hsend
    cases hps

/-- The way in which additions and removals of several groups are put together. -/
theorem does_groupBatch {ms : List Message} {barrierAfter : Bool} {ids : List GroupId}
    {f : GroupId → Operation Unit} {deed : GroupId → Deed} {fault : Outcome Unit}
    {settle : Outcome Unit → Outcome Unit}
    (hf : ∀ g h r, (f g).Does h r ↔ h = [deed g] ∧ r = .ok ()) (hfault : fault = .ok ())
    {r : Outcome Unit}
    (hdoes : Does (do
      ofOutcome fault
      let result ← batchResult ms barrierAfter
      forGroups f (accepted ids (settle result))
      ofOutcome (settle result)) h r) :
    ∃ (ps : List Promise) (barrier : Option Promise) (results : List Settled)
      (closing : Option Settled), ps.length = ms.length ∧ barrier.isSome = barrierAfter ∧
        h = sends (ms ++ if barrierAfter then [.barrierRequest] else []) (ps ++ barrier.toList) ++
          ⟨.gather ps barrier, (results, closing)⟩ ::
            (accepted ids (settle (batchOutcome results closing))).map deed ∧
        r = settle (batchOutcome results closing) := by
  rcases does_ofOutcome_bind.mp hdoes with ⟨⟨⟩, -, hrest⟩ | ⟨e, he, -⟩
  · rcases does_bind.mp hrest with ⟨h₁, a, h₂, rfl, hbatch, hrecord⟩ | ⟨e, hbatch, -⟩
    · obtain ⟨ps, barrier, results, closing, hlength, hbarrier, rfl, ha⟩ := does_batchResult hbatch
      cases ha
      refine ⟨ps, barrier, results, closing, hlength, hbarrier, ?_⟩
      rcases does_bind.mp hrecord with ⟨h₃, ⟨⟩, h₄, rfl, hfor, hend⟩ | ⟨e, hfor, -⟩
      · obtain ⟨rfl, -⟩ := (does_forGroups hf).mp hfor
        obtain ⟨rfl, rfl⟩ := does_ofOutcome.mp hend
        exact ⟨by simp, rfl⟩
      · obtain ⟨-, herror⟩ := (does_forGroups hf).mp hfor
        cases herror
    · obtain ⟨ps, barrier, results, closing, -, -, -, herror⟩ := does_batchResult hbatch
      cases herror
  · rw [hfault] at he
    cases he

theorem does_recordGroup {g : GroupId} {r : Outcome Unit} :
    (recordGroup g).Does h r ↔ h = [⟨.recordGroup g, ()⟩] ∧ r = .ok () := by
  rw [recordGroup, does_lift]
  exact ⟨fun ⟨_, hh, hr⟩ => ⟨hh, hr⟩, fun ⟨hh, hr⟩ => ⟨(), hh, hr⟩⟩

theorem does_forgetGroup {g : GroupId} {r : Outcome Unit} :
    (forgetGroup g).Does h r ↔ h = [⟨.forgetGroup g, ()⟩] ∧ r = .ok () := by
  rw [forgetGroup, does_lift]
  exact ⟨fun ⟨_, hh, hr⟩ => ⟨hh, hr⟩, fun ⟨hh, hr⟩ => ⟨(), hh, hr⟩⟩

/-- A group is changed alone, and what is known of it is recorded when the device has replied. -/
theorem does_replied {m : Message} {f : Operation Unit} {deed : Deed} {r : Outcome Unit}
    (hf : ∀ h r, f.Does h r ↔ h = [deed] ∧ r = .ok ())
    (hdoes : Does (do
      let p ← send m
      let _ ← reply p
      f) h r) :
    ∃ p o, h = ⟨.send m, p⟩ :: ⟨.await p, o⟩ :: (if o.isOk then [deed] else []) ∧
      r = o.map fun _ => () := by
  obtain ⟨p, h', rfl, hrest⟩ := does_lift_bind.mp hdoes
  rcases does_bind.mp hrest with ⟨h₁, m', h₂, rfl, hreply, hrecord⟩ | ⟨e, hreply, rfl⟩
  · obtain rfl := does_reply.mp hreply
    obtain ⟨rfl, rfl⟩ := (hf ..).mp hrecord
    exact ⟨p, .ok m', rfl, rfl⟩
  · obtain rfl := does_reply.mp hreply
    exact ⟨p, .error e, rfl, rfl⟩

end Operation

namespace Request

variable {r : Request} {policy : OperationPolicy} {c c' : ConnectionId}
  {p : Program (Outcome Result)} {v : Outcome Result}

theorem exists_operate_of_groupMods (policy : OperationPolicy) (c : ConnectionId)
    (hr : r.groupMods ≠ []) : ∃ p, r.work policy c = .operate c p := by
  cases r with
  | observe d f => exact absurd rfl hr
  | _ => exact ⟨_, rfl⟩

/-- What is recorded of one change. -/
theorem map_deed_confirmedMods (rule : GroupExistsRule) (mod : GroupMod) (o : Outcome Message) :
    (confirmedMods rule [mod] [o]).map GroupMod.deed =
      if rule.confirms (.groupMod mod) o then [mod.deed] else [] := by
  by_cases ho : rule.confirms (.groupMod mod) o = true <;> simp [confirmedMods, ho]

/-- What a request does that changes one group, and not in a batch.  It succeeds if the device
has confirmed the change. -/
theorem exists_of_alone (hmods : r.groupMods = [mod]) (halone : r.isGroupBatch = false)
    (hwork : r.work policy c = .operate c' p) (hcomes : p.Comes h (.done v)) :
    ∃ q o, h = ⟨.send (.groupMod mod), q⟩ :: ⟨.await q, o⟩ ::
        (confirmedMods policy.rule [mod] [o]).map GroupMod.deed ∧
      (v = .ok .done ↔ policy.rule.confirms (.groupMod mod) o = true) := by
  have hmap {α : Type} (o : Outcome α) : o.map (fun _ => Result.done) = .ok .done ↔ o.isOk = true := by
    cases o <;> simp [Except.map, Except.isOk, Except.toBool]
  simp only [map_deed_confirmedMods]
  cases r with
  | addGroup d g =>
      cases hwork
      cases hmods
      obtain ⟨result, hdoes, rfl⟩ := Operation.does_map.mp hcomes
      -- The group is recorded if the push goes on, and then it is over.
      have hpushed : ∃ existed, (Operation.pushGroup policy.rule g).Does h existed ∧
          result.isOk = existed.isOk := by
        rcases Operation.does_bind.mp hdoes with
          ⟨h₁, existed, h₂, rfl, hpush, hpure⟩ | ⟨e, hpush, rfl⟩
        · obtain ⟨rfl, rfl⟩ := Operation.does_pure.mp hpure
          exact ⟨.ok existed, (List.append_nil h₁).symm ▸ hpush, rfl⟩
        · exact ⟨.error e, hpush, rfl⟩
      obtain ⟨existed, hpush, hsame⟩ := hpushed
      obtain ⟨q, o, rfl, rfl⟩ := Operation.does_pushGroup.mp hpush
      refine ⟨q, o, ?_⟩
      rw [hmap, hsame]
      cases hv : policy.rule.verdict o with
      | ok existed =>
          have hconfirms : policy.rule.confirms (.groupMod ⟨.add, g⟩) o = true :=
            GroupExistsRule.confirms_iff.mpr ⟨existed, hv⟩
          rw [if_pos hconfirms]
          exact ⟨rfl, iff_of_true rfl hconfirms⟩
      | error e =>
          have hnot : ¬policy.rule.confirms (.groupMod ⟨.add, g⟩) o = true := fun ho => by
            obtain ⟨existed, hv'⟩ := GroupExistsRule.confirms_iff.mp ho
            cases hv.symm.trans hv'
          rw [if_neg hnot]
          exact ⟨rfl, iff_of_false Bool.false_ne_true hnot⟩
  | updateGroup d g =>
      cases hwork
      cases hmods
      obtain ⟨result, hdoes, rfl⟩ := Operation.does_map.mp hcomes
      obtain ⟨q, o, rfl, rfl⟩ := Operation.does_replied (fun _ _ => Operation.does_recordGroup) hdoes
      refine ⟨q, o, ?_⟩
      rw [hmap, GroupExistsRule.confirms_eq_isOk (by simp)]
      cases o <;> exact ⟨rfl, Iff.rfl⟩
  | removeGroup d g =>
      cases hwork
      cases hmods
      obtain ⟨result, hdoes, rfl⟩ := Operation.does_map.mp hcomes
      obtain ⟨q, o, rfl, rfl⟩ := Operation.does_replied (fun _ _ => Operation.does_forgetGroup) hdoes
      refine ⟨q, o, ?_⟩
      rw [hmap, GroupExistsRule.confirms_eq_isOk (by simp)]
      cases o <;> exact ⟨rfl, Iff.rfl⟩
  | addGroups d gs b => cases halone
  | removeGroups d gs b => cases halone
  | _ => cases hmods

/-- What a request for a batch of changes of groups has done when it has ended, with these
messages and results. -/
structure BatchStory (rule : GroupExistsRule) (r : Request) (ps : List Promise)
    (barrier : Option Promise) (results : List Settled) (closing : Option Settled)
    (h : List Deed) (v : Outcome Result) : Prop where
  members : ps.length = r.groupMods.length
  closed : barrier.isSome = r.barrierAfter
  deeds : ∃ records, (∀ deed ∈ records, deed.effect.isRecord = true) ∧
    h = Operation.sends r.messages (ps ++ barrier.toList) ++
      ⟨.gather ps barrier, (results, closing)⟩ :: records ∧
    (results.length = r.groupMods.length → NoneWithdrawn results closing →
      records = (confirmedMods rule r.groupMods (results.map Prod.snd)).map GroupMod.deed)
  comes : results.length = r.groupMods.length → NoneWithdrawn results closing →
    ∃ result, v = result.map (fun _ => .done) ∧
      GroupsCome rule r.groupMods results closing result

/-- A batch that is put together of changes which are recorded in one way. -/
theorem batchStory_of_does {rule : GroupExistsRule} {f : GroupId → Operation Unit}
    {deed : GroupId → Deed} {fault : Outcome Unit} {settle : Outcome Unit → Outcome Unit}
    {ids : List GroupId} {ms : List Message} {result : Outcome Unit}
    (hdoes : Operation.Does (do
      Operation.ofOutcome fault
      let result ← Operation.batchResult ms r.barrierAfter
      Operation.forGroups f (accepted ids (settle result))
      Operation.ofOutcome (settle result)) h result)
    (hfault : fault = .ok ()) (hms : r.groupMods.map .groupMod = ms)
    (hids : r.groupMods.map (·.group.id) = ids) (hflows : r.flowMods = [])
    (hf : ∀ g h r, (f g).Does h r ↔ h = [deed g] ∧ r = .ok ())
    (hrecord : ∀ g, (deed g).effect.isRecord = true)
    (hdeed : ∀ mod ∈ r.groupMods, deed mod.group.id = mod.deed)
    (hsettle : ∀ results closing, results.length = r.groupMods.length →
      NoneWithdrawn results closing →
        GroupsCome rule r.groupMods results closing (settle (batchOutcome results closing))) :
    ∃ ps barrier results closing,
      r.BatchStory rule ps barrier results closing h (result.map fun _ => .done) := by
  have hmessages : r.messages = ms ++ if r.barrierAfter then [.barrierRequest] else [] := by
    rw [messages, hflows, hms, List.map_nil, List.nil_append]
  obtain ⟨ps, barrier, results, closing, hlength, hbarrier, rfl, rfl⟩ :=
    Operation.does_groupBatch hf hfault hdoes
  rw [← hms, List.length_map] at hlength
  rw [← hmessages]
  refine ⟨ps, barrier, results, closing, hlength, hbarrier,
    ⟨(accepted ids (settle (batchOutcome results closing))).map deed, ?_, rfl, ?_⟩,
    fun hresults hnone => ⟨_, rfl, hsettle results closing hresults hnone⟩⟩
  · intro deed' hmem
    obtain ⟨g, -, rfl⟩ := List.mem_map.mp hmem
    exact hrecord g
  · intro hresults hnone
    rw [← hids, accepted_eq_confirmedMods (hsettle results closing hresults hnone) hresults,
      List.map_map]
    refine List.map_congr_left fun mod hmod => hdeed mod ?_
    obtain ⟨i, o, hmod, -⟩ := mem_confirmedMods.mp hmod
    exact List.mem_of_getElem? hmod

theorem exists_batchStory (hmods : r.groupMods ≠ []) (hbatch : r.isGroupBatch = true)
    (hwork : r.work policy c = .operate c' p) (hcomes : p.Comes h (.done v)) :
    ∃ ps barrier results closing, r.BatchStory policy.rule ps barrier results closing h v := by
  have hsome (operation : String) {gs : List Group} (hgs : gs ≠ []) :
      (checkNonEmpty operation gs).mapError RequestFault.toFailure = .ok () := by
    cases gs with
    | nil => exact absurd rfl hgs
    | cons g gs => rfl
  have hcommand {command : GroupCommand} {gs : List Group} {mod : GroupMod}
      (hmod : mod ∈ gs.map (⟨command, ·⟩)) : mod.command = command := by
    obtain ⟨g, -, rfl⟩ := List.mem_map.mp hmod
    rfl
  cases r with
  | addGroups d gs b =>
      cases hwork
      obtain ⟨result, hdoes, rfl⟩ := Operation.does_map.mp hcomes
      refine batchStory_of_does hdoes (hsome _ ?_) (List.map_map ..) (List.map_map ..) rfl
        (fun _ _ _ => Operation.does_recordGroup) (fun _ => rfl) (fun mod hmod => ?_)
        fun results closing => groupsCome_absorb fun _ => hcommand
      · rintro rfl
        exact hmods rfl
      · rw [GroupMod.deed, hcommand hmod]
        rfl
  | removeGroups d gs b =>
      cases hwork
      obtain ⟨result, hdoes, rfl⟩ := Operation.does_map.mp hcomes
      refine batchStory_of_does hdoes (hsome _ ?_) (List.map_map ..) (List.map_map ..) rfl
        (fun _ _ _ => Operation.does_forgetGroup) (fun _ => rfl) (fun mod hmod => ?_)
        fun results closing => groupsCome_batchOutcome fun _ => hcommand
      · rintro rfl
        exact hmods rfl
      · rw [GroupMod.deed, hcommand hmod]
        rfl
  | _ => cases hbatch

theorem exists_mod_of_alone (hmods : r.groupMods ≠ []) (halone : r.isGroupBatch = false) :
    ∃ mod, r.groupMods = [mod] := by
  cases r with
  | addGroup d g => exact ⟨_, rfl⟩
  | updateGroup d g => exact ⟨_, rfl⟩
  | removeGroup d g => exact ⟨_, rfl⟩
  | addGroups d gs b => cases halone
  | removeGroups d gs b => cases halone
  | _ => exact absurd rfl hmods

theorem flowMods_of_groupMods (hmods : r.groupMods ≠ []) : r.flowMods = [] := by
  cases r with
  | addFlow path f => exact absurd rfl hmods
  | updateFlow path old updated => exact absurd rfl hmods
  | removeFlow path f => exact absurd rfl hmods
  | _ => rfl

/-- A request that changes groups has as many messages as its batch has promises. -/
theorem BatchStory.length_messages {rule : GroupExistsRule} {ps : List Promise}
    {barrier : Option Promise} (hmods : r.groupMods ≠ [])
    (hs : r.BatchStory rule ps barrier results closing h v) :
    r.messages.length = (ps ++ barrier.toList).length := by
  rw [messages, flowMods_of_groupMods hmods, ← hs.closed]
  cases barrier <;> simp [hs.members]

/-- The promises of a batch are those of its messages. -/
theorem BatchStory.exists_send {rule : GroupExistsRule} {ps : List Promise}
    {barrier : Option Promise} (hmods : r.groupMods ≠ [])
    (hs : r.BatchStory rule ps barrier results closing h v) {i : Nat} {q : Promise}
    (hq : (ps ++ barrier.toList)[i]? = some q) :
    ∃ m, (⟨.send m, q⟩ : Deed) ∈ Operation.sends r.messages (ps ++ barrier.toList) := by
  have hbound : i < r.messages.length := by
    rw [hs.length_messages hmods]
    exact (List.getElem?_eq_some_iff.mp hq).1
  exact ⟨_, Operation.mem_sends_of_getElem? (List.getElem?_eq_getElem hbound) hq⟩

/-- When all its messages are sent, a batch waits for them and then records what it has to. -/
theorem next_of_batch (hmods : r.groupMods ≠ []) (hbatch : r.isGroupBatch = true)
    (hwork : r.work policy c = .operate c' p) {q : Effect}
    {next : q.Answer → Program (Outcome Result)} (hcomes : p.Comes h (.step q next))
    (hsent : messagesOf h = r.messages) :
    (∃ ps barrier, q = .gather ps barrier ∧ ∀ promise ∈ ps ++ barrier.toList,
      ∃ m, (⟨.send m, promise⟩ : Deed) ∈ h) ∨ q.isRecord = true := by
  obtain ⟨rest, v, hrest⟩ := (Program.step q next).exists_end
  obtain ⟨a, more, rfl, -⟩ := Program.comes_step.mp hrest
  obtain ⟨ps, barrier, results, closing, hs⟩ :=
    exists_batchStory hmods hbatch hwork (hcomes.append hrest)
  obtain ⟨records, hrecords, hdeeds, -⟩ := hs.deeds
  -- All messages are sent before the effect.
  have hsplit : ∃ between, h = Operation.sends r.messages (ps ++ barrier.toList) ++ between ∧
      ⟨.gather ps barrier, (results, closing)⟩ :: records = between ++ ⟨q, a⟩ :: more := by
    rcases List.append_eq_append_iff.mp hdeeds with ⟨unsent, hsends, hlater⟩ | hbetween
    · have hall := Operation.messagesOf_sends (hs.length_messages hmods).symm
      rw [hsends, messagesOf_append, hsent] at hall
      have hnone : messagesOf unsent = [] := List.append_right_eq_self.mp hall
      cases unsent with
      | nil =>
          rw [List.append_nil] at hsends
          exact ⟨[], by rw [hsends, List.append_nil], hlater.symm⟩
      | cons deed unsent =>
          have hin : deed ∈ Operation.sends r.messages (ps ++ barrier.toList) := by
            rw [hsends]
            simp
          obtain ⟨m, -, promise, rfl⟩ := Operation.mem_sends hin
          cases hnone
    · exact hbetween
  obtain ⟨between, rfl, hlater⟩ := hsplit
  cases between with
  | nil =>
      cases (List.cons.inj hlater).1
      refine .inl ⟨ps, barrier, rfl, fun promise hpromise => ?_⟩
      obtain ⟨i, hi⟩ := List.mem_iff_getElem?.mp hpromise
      obtain ⟨m, hm⟩ := hs.exists_send hmods hi
      exact ⟨m, List.mem_append_left _ hm⟩
  | cons deed between =>
      refine .inr (hrecords ⟨q, a⟩ ?_)
      rw [(List.cons.inj hlater).2]
      simp

/-- An operation on groups does not look them up. -/
theorem notMem_of_groupMods (hmods : r.groupMods ≠ []) (hwork : r.work policy c = .operate c' p)
    (hcomes : p.Comes h (.done v)) (g : GroupId) (a : Outcome (Option Group)) :
    (⟨.readGroup g, a⟩ : Deed) ∉ h := by
  intro hin
  have hnot {records : List Deed} (hrecords : ∀ deed ∈ records, deed.effect.isRecord = true) :
      (⟨.readGroup g, a⟩ : Deed) ∉ records := by
    intro hin
    cases hrecords _ hin
  cases hbatch : r.isGroupBatch with
  | false =>
      obtain ⟨mod, hmod⟩ := exists_mod_of_alone hmods hbatch
      obtain ⟨q, o, rfl, -⟩ := exists_of_alone hmod hbatch hwork hcomes
      simp only [List.mem_cons, Deed.mk.injEq, reduceCtorEq, false_and, false_or] at hin
      refine hnot (fun deed hdeed => ?_) hin
      obtain ⟨mod', -, rfl⟩ := List.mem_map.mp hdeed
      exact mod'.isRecord_deed
  | true =>
      obtain ⟨ps, barrier, results, closing, hs⟩ := exists_batchStory hmods hbatch hwork hcomes
      obtain ⟨records, hrecords, rfl, -⟩ := hs.deeds
      rcases List.mem_append.mp hin with hin | hin
      · obtain ⟨m, -, p, hsend⟩ := Operation.mem_sends hin
        cases hsend
      · rcases List.mem_cons.mp hin with hgather | hin
        · cases hgather
        · exact hnot hrecords hin

/-- What a batch records are the changes that the device has confirmed. -/
theorem BatchStory.recordAll {rule : GroupExistsRule} {ps : List Promise} {barrier : Option Promise}
    (hs : r.BatchStory rule ps barrier results closing h v)
    (hlength : results.length = r.groupMods.length) (hnone : NoneWithdrawn results closing) :
    recordAll key R h = recordAll key R
      ((confirmedMods rule r.groupMods (results.map Prod.snd)).map GroupMod.deed) := by
  obtain ⟨records, -, rfl, hrecords⟩ := hs.deeds
  have hsends : ∀ deed ∈ Operation.sends r.messages (ps ++ barrier.toList),
      deed.effect.isRecord = false := by
    intro deed hdeed
    obtain ⟨m, -, p, rfl⟩ := Operation.mem_sends hdeed
    rfl
  rw [recordAll_append, recordAll_of_not_isRecord hsends, recordAll_cons,
    Deed.record_of_not_isRecord rfl, hrecords hlength hnone]

end Request

end Southbound
