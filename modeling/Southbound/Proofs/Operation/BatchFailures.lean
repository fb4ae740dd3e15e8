import Mathlib.Data.List.Sort
import Southbound.Operation.Batch

/-!
# What a batch reports

What the results of a batch come to, as a rule of its own (`ComesTo`): the batch has
succeeded if nothing stands in its way, and otherwise it has failed with all that does, once
each, the members in their order and the barrier last.

A member stands in the way if it has failed and was not withdrawn, and a barrier also if it
was answered by anything but the reply to it (`Reports`).  The rule leaves no choice
(`comesTo_iff`).
-/

namespace Southbound

/-! ## The rule -/

/-- Why a barrier with a result stands in the way of its batch. -/
inductive BarrierFault (x : Xid) : Outcome Message → Failure → Prop where
  | failed {cause : Failure} : cause ≠ .cancelled → BarrierFault x (.error cause) cause
  | unexpected {m : Message} : m ≠ .barrierReply →
      BarrierFault x (.ok m) (.unexpectedReply x m.kind)

/-- The failures that a batch with some results reports. -/
inductive Reports (members : List Settled) (barrier : Option Settled) :
    BatchFailure Failure → Prop where
  | member {i : Nat} {x : Xid} {cause : Failure} :
      members[i]? = some (x, .error cause) → cause ≠ .cancelled →
      Reports members barrier ⟨.member i, some x, cause⟩
  | barrier {x : Xid} {o : Outcome Message} {cause : Failure} :
      barrier = some (x, o) → BarrierFault x o cause →
      Reports members barrier ⟨.barrier, some x, .barrierFailed cause⟩

/-- One step of a batch comes before another. -/
inductive BatchStep.Before : BatchStep → BatchStep → Prop where
  | members {i j : Nat} : i < j → Before (.member i) (.member j)
  | barrier (i : Nat) : Before (.member i) .barrier

/-- What the results of a batch come to. -/
inductive ComesTo (members : List Settled) (barrier : Option Settled) : Outcome Unit → Prop where
  | succeeded :
      (∀ x ∈ members, (∃ m, x.2 = .ok m) ∨ x.2 = .error .cancelled) →
      (∀ x, barrier = some x → x.2 = .ok .barrierReply ∨ x.2 = .error .cancelled) →
      ComesTo members barrier (.ok ())
  | failed {failures : List (BatchFailure Failure)} :
      failures ≠ [] → (∀ f, f ∈ failures ↔ Reports members barrier f) →
      failures.Pairwise (fun f g => f.step.Before g.step) →
      ComesTo members barrier
        (.error (.batch (members.length + barrier.toList.length) failures))

variable {members results : List Settled} {barrier : Option Settled} {f : BatchFailure Failure}
  {x : Xid} {o : Outcome Message} {result : Outcome Unit}

theorem BatchStep.Before.irrefl (step : BatchStep) : ¬step.Before step := by
  rintro (hlt | -)
  exact absurd hlt (Nat.lt_irrefl _)

theorem BatchStep.Before.asymm {step step' : BatchStep} (h : step.Before step') :
    ¬step'.Before step := by
  cases h with
  | members hlt =>
      rintro (hlt' | -)
      exact absurd hlt (Nat.lt_asymm hlt')
  | barrier i => exact nofun

/-! ## Members and barriers -/

theorem mem_memberFailures : f ∈ memberFailures results ↔ ∃ i x cause,
    results[i]? = some (x, .error cause) ∧ cause ≠ .cancelled ∧ f = ⟨.member i, some x, cause⟩ := by
  rw [memberFailures, List.mem_filterMap]
  constructor
  · rintro ⟨⟨⟨x, o⟩, i⟩, hmem, hf⟩
    rw [List.mem_zipIdx_iff_getElem?] at hmem
    cases o with
    | ok m => cases hf
    | error cause =>
        refine ⟨i, x, cause, hmem, ?_, ?_⟩
        · rintro rfl
          cases hf
        · cases cause <;> cases hf <;> rfl
  · rintro ⟨i, x, cause, hmem, hne, rfl⟩
    refine ⟨((x, .error cause), i), List.mem_zipIdx_iff_getElem?.mpr hmem, ?_⟩
    cases cause <;> first | rfl | exact absurd rfl hne

/-- The failures of members stand in the order of the members. -/
theorem pairwise_memberFailures (results : List Settled) :
    (memberFailures results).Pairwise fun f g => f.step.Before g.step := by
  have hindices : results.zipIdx.Pairwise fun a b => a.2 < b.2 := by
    rw [← List.pairwise_map (f := Prod.snd), List.zipIdx_map_snd]
    exact List.pairwise_lt_range'
  rw [memberFailures, List.pairwise_filterMap]
  refine hindices.imp ?_
  rintro ⟨⟨x, o⟩, i⟩ ⟨⟨x', o'⟩, j⟩ hlt f hf g hg
  have hi : f.step = .member i := by
    cases o with
    | ok m => cases hf
    | error cause => cases cause <;> cases hf <;> rfl
  have hj : g.step = .member j := by
    cases o' with
    | ok m => cases hg
    | error cause => cases cause <;> cases hg <;> rfl
  rw [hi, hj]
  exact .members hlt

theorem barrierFailure?_eq_some_iff : barrierFailure? (x, o) = some f ↔
    ∃ cause, BarrierFault x o cause ∧ f = ⟨.barrier, some x, .barrierFailed cause⟩ := by
  cases o with
  | ok m =>
      by_cases hm : m = .barrierReply
      · subst hm
        constructor
        · rintro ⟨⟩
        · rintro ⟨cause, hfault, -⟩
          cases hfault with
          | unexpected hne => exact absurd rfl hne
      · have hf : barrierFailure? (x, .ok m) =
            some ⟨.barrier, some x, .barrierFailed (.unexpectedReply x m.kind)⟩ := by
          cases m <;> first | rfl | exact absurd rfl hm
        rw [hf, Option.some_inj]
        constructor
        · rintro rfl
          exact ⟨_, .unexpected hm, rfl⟩
        · rintro ⟨cause, ⟨⟩, rfl⟩
          rfl
  | error cause =>
      by_cases hcause : cause = .cancelled
      · subst hcause
        constructor
        · rintro ⟨⟩
        · rintro ⟨cause, hfault, -⟩
          cases hfault with
          | failed hne => exact absurd rfl hne
      · have hf : barrierFailure? (x, .error cause) =
            some ⟨.barrier, some x, .barrierFailed cause⟩ := by
          cases cause <;> first | rfl | exact absurd rfl hcause
        rw [hf, Option.some_inj]
        constructor
        · rintro rfl
          exact ⟨_, .failed hcause, rfl⟩
        · rintro ⟨cause, ⟨⟩, rfl⟩
          rfl

/-! ## Batches -/

/-- All that stands in the way of a batch. -/
def failuresOf (members : List Settled) (barrier : Option Settled) :
    List (BatchFailure Failure) :=
  memberFailures members ++ (barrier.bind barrierFailure?).toList

theorem mem_failuresOf : f ∈ failuresOf members barrier ↔ Reports members barrier f := by
  rw [failuresOf, List.mem_append, mem_memberFailures, Option.mem_toList,
    Option.bind_eq_some_iff]
  constructor
  · rintro (⟨i, x, cause, hmem, hne, rfl⟩ | ⟨⟨x, o⟩, rfl, hf⟩)
    · exact .member hmem hne
    · obtain ⟨cause, hfault, rfl⟩ := barrierFailure?_eq_some_iff.mp hf
      exact .barrier rfl hfault
  · rintro (⟨hmem, hne⟩ | ⟨hbarrier, hfault⟩)
    · exact .inl ⟨_, _, _, hmem, hne, rfl⟩
    · exact .inr ⟨_, hbarrier, barrierFailure?_eq_some_iff.mpr ⟨_, hfault, rfl⟩⟩

theorem pairwise_failuresOf (members : List Settled) (barrier : Option Settled) :
    (failuresOf members barrier).Pairwise fun f g => f.step.Before g.step := by
  rw [failuresOf, List.pairwise_append]
  refine ⟨pairwise_memberFailures members, ?_, fun f hf g hg => ?_⟩
  · cases barrier.bind barrierFailure? with
    | none => exact .nil
    | some g => exact List.pairwise_singleton ..
  · obtain ⟨i, x, cause, -, -, rfl⟩ := mem_memberFailures.mp hf
    rw [Option.mem_toList] at hg
    obtain ⟨⟨x', o⟩, -, hg⟩ := Option.bind_eq_some_iff.mp hg
    obtain ⟨cause', -, rfl⟩ := barrierFailure?_eq_some_iff.mp hg
    exact .barrier i

theorem batchOutcome_of_nil (h : failuresOf members barrier = []) :
    batchOutcome members barrier = .ok () := by
  rw [failuresOf] at h
  rw [batchOutcome, h]

theorem batchOutcome_of_ne_nil (h : failuresOf members barrier ≠ []) :
    batchOutcome members barrier = .error
      (.batch (members.length + barrier.toList.length) (failuresOf members barrier)) := by
  rw [batchOutcome]
  split
  · next hnil => exact absurd hnil h
  · rfl

theorem comesTo_batchOutcome (members : List Settled) (barrier : Option Settled) :
    ComesTo members barrier (batchOutcome members barrier) := by
  by_cases hnil : failuresOf members barrier = []
  · have hnone (f : BatchFailure Failure) (hf : Reports members barrier f) : False :=
      List.not_mem_nil (hnil ▸ mem_failuresOf.mpr hf)
    rw [batchOutcome_of_nil hnil]
    refine .succeeded (fun x hx => ?_) fun x hx => ?_
    · obtain ⟨x, o⟩ := x
      obtain ⟨i, hi⟩ := List.mem_iff_getElem?.mp hx
      cases o with
      | ok m => exact .inl ⟨m, rfl⟩
      | error cause =>
          by_cases hcause : cause = .cancelled
          · exact .inr (hcause ▸ rfl)
          · exact (hnone _ (.member hi hcause)).elim
    · obtain ⟨x, o⟩ := x
      cases o with
      | ok m =>
          by_cases hm : m = .barrierReply
          · exact .inl (hm ▸ rfl)
          · exact (hnone _ (.barrier hx (.unexpected hm))).elim
      | error cause =>
          by_cases hcause : cause = .cancelled
          · exact .inr (hcause ▸ rfl)
          · exact (hnone _ (.barrier hx (.failed hcause))).elim
  · rw [batchOutcome_of_ne_nil hnil]
    exact .failed hnil (fun f => mem_failuresOf) (pairwise_failuresOf members barrier)

/-- Nothing stands in the way of a batch that has succeeded. -/
theorem ComesTo.not_reports (h : ComesTo members barrier (.ok ())) :
    ¬Reports members barrier f := by
  cases h with
  | succeeded hmembers hbarrier =>
      rintro (⟨hmem, hne⟩ | ⟨hb, hfault⟩)
      · rcases hmembers _ (List.mem_of_getElem? hmem) with ⟨m, hm⟩ | hcancelled
        · cases hm
        · cases hcancelled
          exact hne rfl
      · rcases hbarrier _ hb with hreply | hcancelled
        · cases hreply
          cases hfault with
          | unexpected hne => exact hne rfl
        · cases hcancelled
          cases hfault with
          | failed hne => exact hne rfl

/-- The failures of a batch are determined by their order. -/
theorem eq_of_reports {failures failures' : List (BatchFailure Failure)}
    (hmem : ∀ f, f ∈ failures ↔ f ∈ failures')
    (hfailures : failures.Pairwise fun f g => f.step.Before g.step)
    (hfailures' : failures'.Pairwise fun f g => f.step.Before g.step) : failures = failures' := by
  have hnodup {fs : List (BatchFailure Failure)}
      (hfs : fs.Pairwise fun f g => f.step.Before g.step) : fs.Nodup := by
    refine List.Pairwise.imp ?_ hfs
    rintro f _ hlt rfl
    exact BatchStep.Before.irrefl _ hlt
  refine List.Perm.eq_of_pairwise (fun f g _ _ hfg hgf => absurd hgf hfg.asymm) hfailures
    hfailures' ?_
  exact (List.perm_ext_iff_of_nodup (hnodup hfailures) (hnodup hfailures')).mpr hmem

/-- What a batch comes to is what its results come to by the rule, and nothing else is. -/
theorem comesTo_iff : ComesTo members barrier result ↔ result = batchOutcome members barrier := by
  constructor
  · intro h
    have hthis := comesTo_batchOutcome members barrier
    generalize batchOutcome members barrier = result' at hthis
    cases result with
    | ok u =>
        cases hthis with
        | succeeded _ _ => rfl
        | failed hne hreports _ =>
            obtain ⟨f, hf⟩ := List.exists_mem_of_ne_nil _ hne
            exact absurd ((hreports f).mp hf) h.not_reports
    | error cause =>
        cases h with
        | failed hne hreports hpairwise =>
            cases hthis with
            | succeeded hmembers hbarrier =>
                obtain ⟨f, hf⟩ := List.exists_mem_of_ne_nil _ hne
                exact absurd ((hreports f).mp hf)
                  (ComesTo.succeeded hmembers hbarrier).not_reports
            | failed _ hreports' hpairwise' =>
                rw [eq_of_reports (fun f => (hreports f).trans (hreports' f).symm) hpairwise
                  hpairwise']
  · rintro rfl
    exact comesTo_batchOutcome members barrier

end Southbound
