import Southbound.Proofs.Operation.FlowPlan
import Southbound.Registry.FlowRegistry
import Southbound.Registry.GroupPresence

/-!
# What operations leave recorded

Of all deeds, four change what is recorded of a device (`Deed.record`), so the deeds of an
operation say what it makes of any records (`recordAll`).

An operation on a flow that fails leaves the flows as they were, and one that succeeds
leaves them as `Request.Rewrites` says.  Either way the groups are as they were, but for one
that the operation has had added (`Finding.recorded`).
-/

namespace Southbound

/-- The groups and the flows that are recorded of a device. -/
abbrev Records := List GroupId × DeviceFlows

/-- Whether an effect changes what is recorded. -/
def Effect.isRecord : Effect → Bool
  | .recordGroup _ => true
  | .forgetGroup _ => true
  | .recordFlow _ _ => true
  | .forgetFlow _ => true
  | _ => false

/-- What is recorded of a device after a deed. -/
def Deed.record (key : Flow → FlowKey) (R : Records) : Deed → Records
  | ⟨.recordGroup g, _⟩ => (insertGroup g R.1, R.2)
  | ⟨.forgetGroup g, _⟩ => (R.1.filter (· ≠ g), R.2)
  | ⟨.recordFlow f descriptor, _⟩ => (R.1, { R.2 with byKey := R.2.byKey.set (key f) descriptor })
  | ⟨.forgetFlow f, _⟩ => (R.1, { R.2 with byKey := R.2.byKey.erase (key f) })
  | _ => R

/-- What is recorded of a device after some deeds. -/
def recordAll (key : Flow → FlowKey) (R : Records) (deeds : List Deed) : Records :=
  deeds.foldl (Deed.record key) R

section Deeds

variable {key : Flow → FlowKey} {R : Records} {h h' : List Deed}

@[simp] theorem recordAll_nil : recordAll key R [] = R := rfl

@[simp] theorem recordAll_append :
    recordAll key R (h ++ h') = recordAll key (recordAll key R h) h' := List.foldl_append

@[simp] theorem recordAll_cons (deed : Deed) :
    recordAll key R (deed :: h) = recordAll key (deed.record key R) h := rfl

theorem Deed.record_of_not_isRecord {deed : Deed} (hdeed : deed.effect.isRecord = false) :
    deed.record key R = R := by
  obtain ⟨q, a⟩ := deed
  cases q <;> first | rfl | cases hdeed

/-- Deeds that change nothing that is recorded. -/
theorem recordAll_of_not_isRecord (hdeeds : ∀ deed ∈ h, deed.effect.isRecord = false) :
    recordAll key R h = R := by
  induction h with
  | nil => rfl
  | cons deed h ih =>
      obtain ⟨hdeed, hrest⟩ := List.forall_mem_cons.mp hdeeds
      rw [recordAll_cons, deed.record_of_not_isRecord hdeed, ih hrest]

end Deeds

/-! ## Operations on flows -/

/-- An addition that is confirmed says that the device has the group. -/
theorem GroupExistsRule.confirms_iff {rule : GroupExistsRule} {g : Group} {o : Outcome Message} :
    rule.confirms (.groupMod ⟨.add, g⟩) o = true ↔ ∃ existed, rule.verdict o = .ok existed := by
  rw [confirms.eq_def, verdict.eq_def]
  cases o with
  | ok m => simp
  | error cause =>
      cases cause with
      | deviceRejected rejection => by_cases hm : rule.matches rejection <;> simp [hm]
      | _ => simp

variable {key : Flow → FlowKey} {R : Records} {policy : OperationPolicy} {r : Request}
  {n : Finding} {h : List Deed} {o : Outcome Result}

/-- The groups when it was found out about the one that a flow needs: it is recorded if the
device has it now. -/
def Finding.recorded (rule : GroupExistsRule) (gs : List GroupId) : Finding → List GroupId
  | .added _ group _ result =>
    match rule.verdict result with
    | .ok _ => insertGroup group.id gs
    | .error _ => gs
  | _ => gs

theorem Finding.recordAll_deeds (rule : GroupExistsRule) (n : Finding) :
    recordAll key R (n.deeds rule) = (n.recorded rule R.1, R.2) := by
  cases n with
  | added g group p result =>
      simp only [deeds, recorded]
      cases rule.verdict result <;> rfl
  | _ => rfl

/-- A dependency is on the group that the flow needs. -/
theorem Finding.group?_of_outcome {rule : GroupExistsRule} {d : DeviceId} {dependency : Dependency}
    (n : Finding) (ho : n.outcome rule d = .ok dependency) : dependency.group? = n.group? := by
  cases hn : n.group? with
  | none =>
      cases n with
      | independent =>
          cases ho
          rfl
      | _ => cases hn
  | some g =>
      rcases eq_of_outcome hn ho with ⟨-, rfl⟩ | ⟨-, -, -, existed, -, -, rfl⟩
      · rfl
      · cases existed <;> rfl

theorem Settles.not_isRecord {mods : List FlowMod} {barrierAfter : Bool} {settled : Outcome Unit}
    (hs : Settles mods barrierAfter h settled) : ∀ deed ∈ h, deed.effect.isRecord = false := by
  have hsends (ps : List Promise) :
      ∀ deed ∈ Operation.sends (mods.map .flowMod) ps, deed.effect.isRecord = false := by
    intro deed hin
    obtain ⟨m, -, p, rfl⟩ := Operation.mem_sends hin
    rfl
  cases hs with
  | alone _ => simp [Effect.isRecord]
  | batch _ _ => exact List.forall_mem_append.mpr ⟨hsends _, by simp [Effect.isRecord]⟩
  | closed _ => exact List.forall_mem_append.mpr ⟨hsends _, by simp [Effect.isRecord]⟩

namespace Request

theorem Marks.not_isRecord (hm : r.Marks policy h) : ∀ deed ∈ h, deed.effect.isRecord = false := by
  cases hm <;> simp [Effect.isRecord]

/-- The flow that a request installs. -/
def installs? : Request → Option Flow
  | addFlow _ f => some f
  | updateFlow _ _ updated => some updated
  | _ => none

/-- The flow that a request takes away. -/
def takesAway? : Request → Option Flow
  | updateFlow _ old _ => some old
  | removeFlow _ f => some f
  | _ => none

/-- What is recorded of the flows of a device before and after a request on a flow. -/
structure Rewrites (r : Request) (key : Flow → FlowKey) (before after : DeviceFlows) : Prop where
  installed : ∀ f, r.installs? = some f → after.byKey.get? (key f) = r.descriptor?
  /-- Nothing is recorded of a flow that was taken away. -/
  takenAway : ∀ f, r.takesAway? = some f → (∀ f', r.installs? = some f' → key f' ≠ key f) →
    after.byKey.get? (key f) = none
  /-- A flow is not lost that is told apart from the installed one by nothing. -/
  kept : ∀ f f', r.takesAway? = some f → r.installs? = some f' → key f' = key f →
    after.byKey.get? (key f) = r.descriptor?
  others : ∀ k, (∀ f, r.installs? = some f ∨ r.takesAway? = some f → key f ≠ k) →
    after.byKey.get? k = before.byKey.get? k
  minted : after.minted = before.minted

/-- What a request on a flow records when it succeeds. -/
theorem recordAll_recording (hkey : ∀ f, key f.toStrict = key f) (hr : r.isFlow = true)
    (R : Records) : (recordAll key R r.recording).1 = R.1 ∧
      r.Rewrites key R.2 (recordAll key R r.recording).2 := by
  cases r with
  | addFlow path f =>
      refine ⟨rfl, ?_, ?_, ?_, fun k hk => ?_, rfl⟩
      · rintro f' ⟨⟩
        exact Table.get?_set_self ..
      · intro f' hnone
        cases hnone
      · intro f' f'' hnone
        cases hnone
      · exact Table.get?_set_of_ne (hk f (.inl rfl)).symm ..
  | removeFlow path f =>
      have hrecord : recordAll key R (removeFlow path f).recording =
          (R.1, { R.2 with byKey := R.2.byKey.erase (key f) }) := by
        rw [recording, recordAll_cons, recordAll_nil, Deed.record, hkey]
      rw [hrecord]
      refine ⟨rfl, ?_, ?_, ?_, fun k hk => ?_, rfl⟩
      · intro f' hnone
        cases hnone
      · rintro f' ⟨⟩ -
        exact Table.get?_erase_self ..
      · intro f' f'' _ hnone
        cases hnone
      · exact Table.get?_erase_of_ne (hk f (.inr rfl)).symm _
  | updateFlow path old updated =>
      -- The old flow is forgotten before the updated one is recorded.
      have hrecord : recordAll key R (updateFlow path old updated).recording =
          (R.1, { R.2 with
            byKey := (R.2.byKey.erase (key old)).set (key updated) path.descriptor }) := by
        rw [recording, recordAll_cons, recordAll_cons, recordAll_nil, Deed.record, Deed.record,
          hkey, hkey]
      rw [hrecord]
      refine ⟨rfl, ?_, ?_, ?_, fun k hk => ?_, rfl⟩
      · rintro f ⟨⟩
        exact Table.get?_set_self ..
      · rintro f ⟨⟩ hne
        exact (Table.get?_set_of_ne (hne updated rfl).symm ..).trans (Table.get?_erase_self ..)
      · rintro f f' ⟨⟩ ⟨⟩ heq
        rw [← heq]
        exact Table.get?_set_self ..
      · exact (Table.get?_set_of_ne (hk updated (.inl rfl)).symm ..).trans
          (Table.get?_erase_of_ne (hk old (.inr rfl)).symm _)
  | _ => cases hr

/-- A request on a flow that has failed leaves the flows as they were. -/
theorem Story.recordAll_of_error {cause : Failure} (hs : r.Story policy n h (.error cause)) :
    recordAll key R h = (n.recorded policy.rule R.1, R.2) := by
  cases hs with
  | unresolved _ => exact n.recordAll_deeds _
  | failed _ hm hsent =>
      rw [recordAll_append, recordAll_append, n.recordAll_deeds,
        recordAll_of_not_isRecord hm.not_isRecord, recordAll_of_not_isRecord hsent.not_isRecord]

/-- A request on a flow that has succeeded has rewritten the flows. -/
theorem Story.recordAll_of_ok (hkey : ∀ f, key f.toStrict = key f) (hr : r.isFlow = true)
    {v : Result} (hs : r.Story policy n h (.ok v)) :
    (recordAll key R h).1 = n.recorded policy.rule R.1 ∧
      r.Rewrites key R.2 (recordAll key R h).2 := by
  cases hs with
  | done _ hm hsent _ =>
      rw [recordAll_append, recordAll_append, recordAll_append, n.recordAll_deeds,
        recordAll_of_not_isRecord hm.not_isRecord, recordAll_of_not_isRecord hsent.not_isRecord]
      exact recordAll_recording hkey hr _

/-- A group is looked up only after it was found to be missing, and before anything else. -/
theorem Story.of_read {before more : List Deed} {g : GroupId} {a : Outcome (Option Group)}
    (hs : r.Story policy n (before ++ ⟨.readGroup g, a⟩ :: more) o) :
    before = [⟨.hasGroup g, false⟩] := by
  obtain ⟨rest, hh, hrest⟩ := hs.eq_deeds_append
  have hmem : (⟨.readGroup g, a⟩ : Deed) ∉ rest := fun hin => nomatch hrest _ hin
  have hin : (⟨.readGroup g, a⟩ : Deed) ∈ n.deeds policy.rule := by
    have hin : (⟨.readGroup g, a⟩ : Deed) ∈ n.deeds policy.rule ++ rest :=
      hh ▸ List.mem_append_cons_self
    exact (List.mem_append.mp hin).resolve_right hmem
  have hsplit {answer : Outcome (Option Group)} {g' : GroupId} {later : List Deed}
      (hdeeds : before ++ ⟨.readGroup g, a⟩ :: more =
        ⟨.hasGroup g', false⟩ :: ⟨.readGroup g', answer⟩ :: later)
      (hlater : ∀ g' a, ⟨.readGroup g', a⟩ ∉ later) : before = [⟨.hasGroup g, false⟩] := by
    match before, hdeeds with
    | [], hdeeds => cases (List.cons.inj hdeeds).1
    | [_], hdeeds =>
        obtain ⟨hfirst, hdeeds⟩ := List.cons.inj hdeeds
        cases (List.cons.inj hdeeds).1
        rw [hfirst]
    | _ :: _ :: _, hdeeds =>
        obtain ⟨-, hdeeds⟩ := List.cons.inj (List.cons.inj hdeeds).2
        exact absurd (hdeeds ▸ List.mem_append_cons_self) (hlater g a)
  have hrest' (g' : GroupId) (a' : Outcome (Option Group)) : ⟨.readGroup g', a'⟩ ∉ rest :=
    fun hin => nomatch hrest _ hin
  cases n with
  | independent => cases hin
  | present g' => simp [Finding.deeds] at hin
  | unread g' cause => exact hsplit hh hrest'
  | unconfigured g' => exact hsplit hh hrest'
  | added g' group p result =>
      refine hsplit hh fun g'' a' hin' => ?_
      rcases List.mem_append.mp hin' with hin' | hin'
      · revert hin'
        cases policy.rule.verdict result <;> simp
      · exact hrest' g'' a' hin'

end Request

end Southbound
