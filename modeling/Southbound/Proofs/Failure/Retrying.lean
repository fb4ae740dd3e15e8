import Southbound.Config.Basic
import Southbound.Proofs.Operation.GroupBatches

/-!
# Whether to try again

Failures are trees: the failure of a batch gathers those of its requests, and the failure of a
barrier has a cause (`Failure.nested_induction`).  What they come down to are their leaves
(`Failure.LeafOf`).

An operation may be tried again just if every leaf of its failure passes by itself, such as a
lost connection does (`Failure.isRetryable_iff_leaves`).  So one part that will not pass forbids
it at any depth (`Failure.PartOf.isRetryable_eq_false`), and a failure of which some leaves are
lost may still be tried again (`Failure.isRetryable_of_leaves`).

A batch may be tried again just if all that stands in its way may (`isRetryable_batchOutcome`).
Groups that are there already are passed over, and do not count for the advice either
(`isRetryable_absorb_batchOutcome`).
-/

namespace Southbound

variable {rule : GroupExistsRule} {total : Nat} {failures kept : List (BatchFailure Failure)}
  {f : BatchFailure Failure}

namespace Failure

variable {e e' c cause leaf : Failure}

/-! ## Failures as trees -/

/-- A failure that neither gathers others nor has another as its cause. -/
def IsLeaf : Failure → Prop
  | batch _ _ => False
  | barrierFailed _ => False
  | _ => True

/-- A failure is a part of another: it is the whole of it, or a part of one that it gathers, or
of its cause. -/
inductive PartOf : Failure → Failure → Prop where
  | whole (e : Failure) : PartOf e e
  | member {c : Failure} {total : Nat} {failures : List (BatchFailure Failure)}
      {f : BatchFailure Failure} :
      f ∈ failures → PartOf c f.error → PartOf c (.batch total failures)
  | cause {c cause : Failure} : PartOf c cause → PartOf c (.barrierFailed cause)

/-- One of the leaves of a failure. -/
structure LeafOf (leaf e : Failure) : Prop where
  isLeaf : leaf.IsLeaf
  partOf : leaf.PartOf e

theorem sizeOf_lt_batch (total : Nat) (hf : f ∈ failures) :
    sizeOf f.error < sizeOf (batch total failures) := by
  have hlt := List.sizeOf_lt_of_mem hf
  obtain ⟨step, x, cause⟩ := f
  simp only [BatchFailure.mk.sizeOf_spec, batch.sizeOf_spec] at hlt ⊢
  omega

theorem sizeOf_lt_barrierFailed (cause : Failure) : sizeOf cause < sizeOf (barrierFailed cause) := by
  simp only [barrierFailed.sizeOf_spec]
  omega

/-- What holds of leaves, of a batch if it holds of all that it gathers, and of a barrier if it
holds of its cause, holds of every failure. -/
@[elab_as_elim]
theorem nested_induction {motive : Failure → Prop} (leaf : ∀ e, e.IsLeaf → motive e)
    (batch : ∀ total failures, (∀ f ∈ failures, motive f.error) → motive (.batch total failures))
    (barrierFailed : ∀ cause, motive cause → motive (.barrierFailed cause)) (e : Failure) :
    motive e := by
  cases e with
  | batch total failures =>
      exact batch total failures fun f hf =>
        nested_induction leaf batch barrierFailed f.error
  | barrierFailed cause =>
      exact barrierFailed cause (nested_induction leaf batch barrierFailed cause)
  | _ => exact leaf _ trivial
-- The failures of a batch stand in records of a list, so the recursion is on sizes.
termination_by sizeOf e
decreasing_by
  · exact sizeOf_lt_batch total hf
  · exact sizeOf_lt_barrierFailed cause

theorem IsLeaf.leafOf_iff (h : e.IsLeaf) : leaf.LeafOf e ↔ leaf = e := by
  constructor
  · rintro ⟨-, ⟨⟩⟩
    · rfl
    · exact h.elim
    · exact h.elim
  · rintro rfl
    exact ⟨h, .whole leaf⟩

theorem leafOf_batch_iff :
    leaf.LeafOf (batch total failures) ↔ ∃ f ∈ failures, leaf.LeafOf f.error := by
  constructor
  · rintro ⟨hleaf, hpart⟩
    cases hpart with
    | whole => exact hleaf.elim
    | member hf hpart => exact ⟨_, hf, hleaf, hpart⟩
  · rintro ⟨f, hf, hleaf, hpart⟩
    exact ⟨hleaf, .member hf hpart⟩

theorem leafOf_batch_mono (hkept : kept ⊆ failures) (h : leaf.LeafOf (batch total kept)) :
    leaf.LeafOf (batch total failures) := by
  obtain ⟨f, hf, hleaf⟩ := leafOf_batch_iff.mp h
  exact leafOf_batch_iff.mpr ⟨f, hkept hf, hleaf⟩

theorem leafOf_barrierFailed_iff : leaf.LeafOf (barrierFailed cause) ↔ leaf.LeafOf cause := by
  constructor
  · rintro ⟨hleaf, hpart⟩
    cases hpart with
    | whole => exact hleaf.elim
    | cause hpart => exact ⟨hleaf, hpart⟩
  · rintro ⟨hleaf, hpart⟩
    exact ⟨hleaf, .cause hpart⟩

/-! ## Leaves that pass -/

/-- Failures of the moment: the same request may succeed once the device answers, is connected, or
the configuration can be reached. -/
inductive Passing : Failure → Prop where
  | timeout (xid : Xid) : Passing (.timeout xid)
  | connectionLost (device : DeviceId) : Passing (.connectionLost device)
  | notConnected (device : DeviceId) : Passing (.notConnected device)
  | storageError (reason : String) : Passing (.storageError reason)
  | channelError (reason : String) : Passing (.channelError reason)

theorem IsLeaf.isRetryable_iff (h : e.IsLeaf) : e.isRetryable = true ↔ e.Passing := by
  constructor
  · intro hretryable
    cases e with
    | timeout xid => exact .timeout xid
    | connectionLost device => exact .connectionLost device
    | notConnected device => exact .notConnected device
    | storageError reason => exact .storageError reason
    | channelError reason => exact .channelError reason
    | batch total failures => exact h.elim
    | barrierFailed cause => exact h.elim
    | _ => cases hretryable
  · rintro ⟨⟩ <;> rfl

theorem isRetryable_batch :
    (batch total failures).isRetryable = true ↔ ∀ f ∈ failures, f.error.isRetryable = true := by
  rw [isRetryable]
  induction failures with
  | nil => simp [allRetryable]
  | cons f failures ih =>
      have hmember : memberRetryable f = f.error.isRetryable := by
        rw [memberRetryable]
      rw [allRetryable, Bool.and_eq_true, hmember, ih, List.forall_mem_cons]

theorem isRetryable_barrierFailed (cause : Failure) :
    (barrierFailed cause).isRetryable = cause.isRetryable := by
  rw [isRetryable]

/-- A failure may be tried again just if all its leaves pass. -/
theorem isRetryable_iff_leaves (e : Failure) :
    e.isRetryable = true ↔ ∀ leaf : Failure, leaf.LeafOf e → leaf.Passing := by
  induction e using nested_induction with
  | leaf e he => simp only [he.leafOf_iff, forall_eq, he.isRetryable_iff]
  | batch total failures ih =>
      rw [isRetryable_batch]
      constructor
      · intro h leaf hleaf
        obtain ⟨f, hf, hleaf⟩ := leafOf_batch_iff.mp hleaf
        exact (ih f hf).mp (h f hf) leaf hleaf
      · intro h f hf
        exact (ih f hf).mpr fun leaf hleaf => h leaf (leafOf_batch_iff.mpr ⟨f, hf, hleaf⟩)
  | barrierFailed cause ih =>
      simp only [isRetryable_barrierFailed, leafOf_barrierFailed_iff]
      exact ih

theorem isRetryable_of_leaves (h : ∀ leaf : Failure, leaf.LeafOf e' → leaf.LeafOf e)
    (he : e.isRetryable = true) : e'.isRetryable = true :=
  (isRetryable_iff_leaves e').mpr fun leaf hleaf =>
    (isRetryable_iff_leaves e).mp he leaf (h leaf hleaf)

/-! ## Parts that will not pass -/

theorem PartOf.isRetryable (h : c.PartOf e) (he : e.isRetryable = true) :
    c.isRetryable = true := by
  induction h with
  | whole => exact he
  | member hf _ ih => exact ih (isRetryable_batch.mp he _ hf)
  | cause _ ih => exact ih ((isRetryable_barrierFailed _).symm.trans he)

theorem PartOf.isRetryable_eq_false (h : c.PartOf e) (hc : c.isRetryable = false) :
    e.isRetryable = false := by
  cases he : e.isRetryable with
  | false => rfl
  | true => rw [← hc, h.isRetryable he]

/-- Failures of what was asked for: a request or settings that did not stand up to a check. -/
inductive IsFault : Failure → Prop where
  | invalidTableId (path payload : TableId) : IsFault (.invalidTableId path payload)
  | invalidRequest (reason : String) : IsFault (.invalidRequest reason)
  | invalidConfig (reason : String) : IsFault (.invalidConfig reason)

/-- The checks on requests find such faults only, and so does the check on settings. -/
theorem isFault_toFailure (fault : RequestFault) : fault.toFailure.IsFault := by
  cases fault with
  | invalidTableId path payload => exact .invalidTableId path payload
  | emptyBatch operation => exact .invalidRequest _

theorem isFault_of_validate {config : Config} (h : config.validate = .error e) : e.IsFault := by
  rw [Config.validate] at h
  -- One refusal for each of the five checks.
  iterate 5
    split at h
    · cases h
      exact .invalidConfig _
  cases h

theorem IsFault.isRetryable_eq_false (h : e.IsFault) : e.isRetryable = false := by
  cases h <;> rfl

theorem isRetryable_of_isDeviceRejection (h : e.isDeviceRejection = true) :
    e.isRetryable = false := by
  induction e using nested_induction with
  | leaf e he =>
      cases e with
      | deviceRejected rejection => rfl
      | batch total failures => exact he.elim
      | barrierFailed cause => exact he.elim
      | _ => cases h
  | batch total failures ih => cases h
  | barrierFailed cause ih =>
      rw [isRetryable_barrierFailed]
      exact ih h

/-- What the device has rejected, what was withdrawn and what was at fault from the start is
not to be tried again. -/
theorem isRetryable_of_lasting
    (h : e.isDeviceRejection = true ∨ e = .cancelled ∨ e.IsFault) : e.isRetryable = false := by
  rcases h with hrejected | rfl | hfault
  · exact isRetryable_of_isDeviceRejection hrejected
  · rfl
  · exact hfault.isRetryable_eq_false

end Failure

/-! ## Batches -/

open Failure

section Batches

variable {members : List Settled} {barrier : Option Settled} {e e' leaf : Failure}

theorem eq_batch_of_outcomeOf (h : outcomeOf total failures = .error e) :
    e = .batch total failures := by
  cases failures with
  | nil => cases h
  | cons f failures =>
      cases h
      rfl

/-- The failure of a batch may be tried again just if all that stands in the way of the batch
may.  What was withdrawn does not stand in the way. -/
theorem isRetryable_batchOutcome (h : batchOutcome members barrier = .error e) :
    e.isRetryable = true ↔ ∀ f, Reports members barrier f → f.error.isRetryable = true := by
  rw [batchOutcome_eq] at h
  obtain rfl := eq_batch_of_outcomeOf h
  simp only [isRetryable_batch, mem_failuresOf]

/-- What is left of the failure of a batch may be tried again just if all that stands in the way
of the batch may, apart from members that are there already. -/
theorem isRetryable_absorb_batchOutcome
    (h : rule.absorb (batchOutcome members barrier) = .error e) :
    e.isRetryable = true ↔ ∀ f, Reports members barrier f → rule.absorbs f = false →
      f.error.isRetryable = true := by
  rw [batchOutcome_eq, rule.absorb_outcomeOf] at h
  obtain rfl := eq_batch_of_outcomeOf h
  simp only [isRetryable_batch, List.mem_filter, mem_failuresOf, Bool.not_eq_true', and_imp]

/-- What is left of a failure has no other leaves than the whole. -/
theorem GroupExistsRule.leafOf_of_absorb (h : rule.absorb (.error e) = .error e')
    (hleaf : leaf.LeafOf e') : leaf.LeafOf e := by
  cases e with
  | batch total failures =>
      change outcomeOf total (failures.filter (!rule.absorbs ·)) = .error e' at h
      obtain rfl := eq_batch_of_outcomeOf h
      exact leafOf_batch_mono List.filter_sublist.subset hleaf
  | _ =>
      cases h
      exact hleaf

end Batches

/-! ## The advice -/

namespace Failure

/-- Whether a failure may be tried again follows its leaves, to any depth.  It may just if all of
them pass.  So it may not if some part of it is a rejection by the device, a request that was
withdrawn, or a fault of what was asked for.  And a failure that may be tried again still may
when some of the failures that it gathers are dropped, by whatever choice, or passed over
because the groups are there already. -/
theorem retrying_follows_leaves (e : Failure) :
    (e.isRetryable = true ↔ ∀ leaf : Failure, leaf.LeafOf e → leaf.Passing) ∧
    (∀ c : Failure, c.PartOf e → c.isDeviceRejection = true ∨ c = .cancelled ∨ c.IsFault →
      e.isRetryable = false) ∧
    (∀ total failures kept, e = .batch total failures → kept ⊆ failures →
      e.isRetryable = true → (batch total kept).isRetryable = true) ∧
    (∀ (rule : GroupExistsRule) (e' : Failure), rule.absorb (.error e) = .error e' →
      e.isRetryable = true → e'.isRetryable = true) := by
  refine ⟨isRetryable_iff_leaves e, fun c hpart hlasting => ?_, ?_, fun rule e' habsorb => ?_⟩
  · exact hpart.isRetryable_eq_false (isRetryable_of_lasting hlasting)
  · rintro total failures kept rfl hkept
    exact isRetryable_of_leaves fun leaf => leafOf_batch_mono hkept
  · exact isRetryable_of_leaves fun leaf => rule.leafOf_of_absorb habsorb

/-- A batch with a request that has timed out, closed by a barrier that failed because of another
batch, in which the connection was lost. -/
def nestedLosses : Failure :=
  .batch 4 [⟨.member 1, some ⟨11⟩, .timeout ⟨11⟩⟩,
    ⟨.barrier, some ⟨14⟩, .barrierFailed (.batch 2
      [⟨.member 0, none, .connectionLost ⟨"openflow:1"⟩⟩,
        ⟨.barrier, some ⟨9⟩, .barrierFailed (.connectionLost ⟨"openflow:1"⟩)⟩])⟩]

/-- The same batch, where the barrier of the other one was withdrawn. -/
def nestedWithdrawal : Failure :=
  .batch 4 [⟨.member 1, some ⟨11⟩, .timeout ⟨11⟩⟩,
    ⟨.barrier, some ⟨14⟩, .barrierFailed (.batch 2
      [⟨.member 0, none, .connectionLost ⟨"openflow:1"⟩⟩,
        ⟨.barrier, some ⟨9⟩, .barrierFailed .cancelled⟩])⟩]

theorem retrying_follows_leaves_of_nested :
    (nestedLosses.isRetryable = true ∧
      ∀ leaf : Failure, leaf.LeafOf nestedLosses → leaf.Passing) ∧
    (cancelled.PartOf nestedWithdrawal ∧ nestedWithdrawal.isRetryable = false) ∧
    (batch 4 (nestedLosses.batchFailures.drop 1)).isRetryable = true ∧
    ((⟨"GROUPEXISTS", true⟩ : GroupExistsRule).absorb (.error nestedLosses) =
        .error nestedLosses ∧ nestedLosses.isRetryable = true) := by
  obtain ⟨hleaves, -, hdropped, habsorbed⟩ := retrying_follows_leaves nestedLosses
  have hretryable : nestedLosses.isRetryable = true := rfl
  have hpart : cancelled.PartOf nestedWithdrawal :=
    .member (.tail _ (.head _)) (.cause (.member (.tail _ (.head _)) (.cause (.whole _))))
  have hkept : nestedLosses.batchFailures.drop 1 ⊆ nestedLosses.batchFailures :=
    List.drop_subset ..
  refine ⟨⟨hretryable, hleaves.mp hretryable⟩, ⟨hpart, ?_⟩, ?_, rfl, ?_⟩
  · exact (retrying_follows_leaves nestedWithdrawal).2.1 _ hpart (.inr (.inl rfl))
  · exact hdropped _ _ _ rfl hkept hretryable
  · exact habsorbed ⟨"GROUPEXISTS", true⟩ nestedLosses rfl hretryable

end Failure

end Southbound
