import Southbound.Proofs.Operation.Answered

/-!
# What the results of a batch come to

A batch fails for each of its members that has failed, and for its barrier, but a member or
a barrier that was withdrawn is passed over (`batchOutcome_member`, `batchOutcome_barrier`).
So what is said of a batch says of each member that it was withdrawn, or what came of it
(`member_counts`).  A batch of changes of groups that is done with its results
(`Operation.Batched`) speaks for its members, and if it succeeds also for its barrier
(`Operation.Batched.succeeded`).
-/

namespace Southbound

variable {rule : GroupExistsRule} {r : Request} {k k' : Heard}

/-- What is said of the results of a batch is also said of a member: it has succeeded, or
was withdrawn, or its failure is one of those of the batch. -/
theorem batchOutcome_member {results : List Settled} (last : Option Settled) {i : Nat} {x : Xid}
    {o : Outcome Message} (h : results[i]? = some (x, o)) :
    (∃ m, o = .ok m) ∨ o = .error .cancelled ∨ ∃ cause total failures, o = .error cause ∧
      batchOutcome results last = .error (.batch total failures) ∧
      ⟨.member i, some x, cause⟩ ∈ failures := by
  cases o with
  | ok m => exact .inl ⟨m, rfl⟩
  | error cause =>
      by_cases hcause : cause = .cancelled
      · exact .inr (.inl (hcause ▸ rfl))
      · have hmem : ⟨.member i, some x, cause⟩ ∈ memberFailures results := by
          refine List.mem_filterMap.mpr
            ⟨((x, .error cause), i), List.mem_zipIdx_iff_getElem?.mpr h, ?_⟩
          cases cause <;> first | rfl | exact absurd rfl hcause
        refine .inr (.inr ⟨cause, results.length + last.toList.length,
          memberFailures results ++ (last.bind barrierFailure?).toList, rfl, ?_,
          List.mem_append_left _ hmem⟩)
        rw [batchOutcome]
        split
        · next hnone =>
            rw [(List.append_eq_nil_iff.mp hnone).1] at hmem
            cases hmem
        · rfl

/-- A member of a batch counts as done if it is not its failure that stands in the way. -/
theorem member_counts {results : List Settled} (last : Option Settled) {i : Nat} {x : Xid}
    {o : Outcome Message} {m : Message} (hx : results[i]? = some (x, o))
    (hbatch : r.inBatch m = true)
    (hfailed : ∀ cause total failures, o = .error cause →
      batchOutcome results last = .error (.batch total failures) →
      ⟨.member i, some x, cause⟩ ∈ failures → rule.confirms m o = true) :
    rule.confirms m o = true ∨ r.inBatch m = true ∧ o = .error .cancelled := by
  rcases batchOutcome_member last hx with
    ⟨m, rfl⟩ | rfl | ⟨cause, total, failures, ho, hout, hmem⟩
  · exact .inl rfl
  · exact .inr ⟨hbatch, rfl⟩
  · exact .inl (hfailed cause total failures ho hout hmem)

/-- What is said of the results of a batch is also said of its barrier. -/
theorem batchOutcome_barrier (results : List Settled) (x : Xid) (o : Outcome Message) :
    (∃ m, o = .ok m) ∨ o = .error .cancelled ∨ ∃ cause total failures,
      batchOutcome results (some (x, o)) = .error (.batch total failures) ∧
        ⟨.barrier, some x, cause⟩ ∈ failures := by
  have hfailed {f : BatchFailure Failure} (hf : barrierFailure? (x, o) = some f) :
      ∃ total failures, batchOutcome results (some (x, o)) = .error (.batch total failures) ∧
        f ∈ failures := by
    have hmem : f ∈ memberFailures results ++
        ((some (x, o)).bind barrierFailure?).toList := by simp [hf]
    rw [batchOutcome]
    split
    · next hnone =>
        rw [hnone] at hmem
        cases hmem
    · exact ⟨_, _, rfl, hmem⟩
  cases o with
  | ok m => exact .inl ⟨m, rfl⟩
  | error cause =>
      by_cases hcause : cause = .cancelled
      · exact .inr (.inl (hcause ▸ rfl))
      · have hf : barrierFailure? (x, .error cause) =
            some ⟨.barrier, some x, .barrierFailed cause⟩ := by
          cases cause <;> first | rfl | exact absurd rfl hcause
        obtain ⟨total, failures, hout, hmem⟩ := hfailed hf
        exact .inr (.inr ⟨_, total, failures, hout, hmem⟩)

/-- A failure that is not absorbed is still there. -/
theorem GroupExistsRule.absorb_batch (total : Nat) {failures : List (BatchFailure Failure)}
    {f : BatchFailure Failure} (hf : f ∈ failures) (habsorbs : rule.absorbs f = false) :
    ∃ rest, rule.absorb (.error (.batch total failures)) = .error (.batch total rest) ∧
      f ∈ rest := by
  have hmem : f ∈ failures.filter (!rule.absorbs ·) := List.mem_filter.mpr ⟨hf, by simp [habsorbs]⟩
  refine ⟨_, ?_, hmem⟩
  rw [absorb]
  split
  · next hnone =>
      rw [hnone] at hmem
      cases hmem
  · rfl

/-- A member that is accepted is not among those that failed. -/
theorem exists_of_mem_accepted {ids : List GroupId} {result : Outcome Unit} {g : GroupId}
    (h : g ∈ accepted ids result) : ∃ i, ids[i]? = some g ∧ ∀ total failures x cause,
      result = .error (.batch total failures) → ⟨.member i, x, cause⟩ ∉ failures := by
  obtain ⟨⟨g', i⟩, hmem, hg⟩ := List.mem_filterMap.mp h
  obtain ⟨hfailed, hg⟩ := Option.ite_none_left_eq_some.mp hg
  cases hg
  refine ⟨i, List.mem_zipIdx_iff_getElem?.mp hmem, ?_⟩
  rintro total failures x cause rfl hin
  exact hfailed (List.contains_iff_mem.mpr (List.mem_filterMap.mpr ⟨_, hin, rfl⟩))

/-- What is at a place of the second of two lists is related to what is there in the
first. -/
theorem exists_getElem?_of_forall₂ {α β : Type} {R : α → β → Prop} {as : List α} {bs : List β}
    {i : Nat} {b : β} (h : List.Forall₂ R as bs) (hb : bs[i]? = some b) :
    ∃ a, as[i]? = some a ∧ R a b := by
  obtain ⟨hi, rfl⟩ := List.getElem?_eq_some_iff.mp hb
  have hi' : i < as.length := h.length_eq ▸ hi
  exact ⟨as[i], List.getElem?_eq_getElem hi', h.get hi' hi⟩

/-- A failure that is absorbed is that of a member, and the device's word that the group is
there. -/
theorem GroupExistsRule.confirms_of_absorbs {f : BatchFailure Failure} (h : rule.absorbs f = true) :
    f.step ≠ .barrier ∧
      ∀ g, rule.confirms (.groupMod ⟨.add, g⟩) (.error f.error) = true := by
  obtain ⟨step, x, cause⟩ := f
  cases step with
  | barrier => cases h
  | member i =>
      cases cause with
      | deviceRejected rejection => exact ⟨nofun, fun _ => h⟩
      | _ => cases h

/-- The barrier of a batch of groups may be withdrawn. -/
theorem passesOver_of_isGroupBatch (h : r.isGroupBatch = true) :
    r.passesOver .barrierRequest = true := by
  cases r with
  | barrier d => cases h
  | _ => rfl

/-! ## Batches of messages -/

namespace Operation

/-- Messages that are sent one after another. -/
theorem hears_sendAll (ms : List Message) :
    Operation.Follows (answered rule r) k (sendAll ms) fun k' ps =>
      k.Grows k' ∧ List.Forall₂ k'.sent ps ms := by
  induction ms generalizing k with
  | nil => exact follows_pure ⟨.refl k, .nil⟩
  | cons m ms ih =>
      refine follows_bind (follows_lift trivial fun p k' hk' => ?_)
      refine follows_bind (ih.mono fun k'' ps hk'' => follows_pure ⟨hk'.1.trans hk''.1, ?_⟩)
      exact .cons (hk''.1.sent p m hk'.2) hk''.2

/-- The result with which a batch is closed is that of a barrier that was sent. -/
def ClosedBy (k : Heard) (barrierAfter : Bool) (last : Option Settled) : Prop :=
  barrierAfter = true → ∃ p x, last = some x ∧ k.sent p .barrierRequest ∧ k.known p x.2

/-- A batch comes to what the results of its members and of its barrier come to. -/
theorem hears_composeWithBarrier (ps : List Promise) (barrierAfter : Bool) :
    Program.Follows (answered rule r) k (composeWithBarrier ps barrierAfter).run fun k' result =>
      k.Grows k' ∧ ∃ results last, result = batchOutcome results last ∧
        List.Forall₂ (fun p x => k'.known p x.2) ps results ∧ ClosedBy k' barrierAfter last := by
  cases barrierAfter with
  | false => exact ⟨trivial, fun a k' hk' => ⟨hk'.1, a.1, a.2, rfl, hk'.2.1, nofun⟩⟩
  | true =>
      refine ⟨trivial, fun p k' hk' => ⟨trivial, fun a k'' hk'' => ?_⟩⟩
      obtain ⟨x, hx, hknown⟩ := hk''.2.2 p rfl
      exact ⟨hk'.1.trans hk''.1, a.1, a.2, rfl, hk''.2.1,
        fun _ => ⟨p, x, hx, hk''.1.sent p _ hk'.2, hknown⟩⟩

/-- The barrier of a batch that has not failed is not in the way. -/
theorem barrier_over {barrierAfter : Bool} (results : List Settled) {last : Option Settled}
    (hlast : ClosedBy k barrierAfter last) (hpasses : r.passesOver .barrierRequest = true)
    (hfailed : ∀ x cause total failures,
      batchOutcome results last = .error (.batch total failures) → ⟨.barrier, x, cause⟩ ∉ failures)
    (hbarrier : barrierAfter = true) :
    ∃ p, k.Over r rule p .barrierRequest := by
  obtain ⟨p, ⟨x, o⟩, rfl, hsent, ho⟩ := hlast hbarrier
  refine ⟨p, hsent, o, ho, ?_⟩
  rcases batchOutcome_barrier results x o with ⟨m, rfl⟩ | rfl | ⟨cause, total, failures, hout, hmem⟩
  · exact .inl rfl
  · exact .inr ⟨hpasses, rfl⟩
  · exact absurd hmem (hfailed _ cause total failures hout)

/-! ## Batches of changes of groups -/

/-- What is known of a batch of changes of groups, when it has its results. -/
structure Batched (k : Heard) (command : GroupCommand) (gs : List Group) (barrierAfter : Bool)
    (results : List Settled) (last : Option Settled) : Prop where
  /-- The message of each member was sent, and its result is known. -/
  members : ∃ ps, List.Forall₂ k.sent ps (gs.map fun g => .groupMod ⟨command, g⟩) ∧
    List.Forall₂ (fun p x => k.known p x.2) ps results
  closed : ClosedBy k barrierAfter last

/-- A batch is sent and waited for. -/
theorem hears_batchResult (command : GroupCommand) (gs : List Group) (barrierAfter : Bool) :
    Operation.Follows (answered rule r) k
      (batchResult (gs.map fun g => .groupMod ⟨command, g⟩) barrierAfter) fun k' result =>
        ∃ results last, result = batchOutcome results last ∧
          Batched k' command gs barrierAfter results last := by
  refine follows_bind ((hears_sendAll _).mono fun k' ps hk' => ?_)
  refine follows_lift_run ((hears_composeWithBarrier ps barrierAfter).mono
    fun k'' result hk'' => ?_)
  obtain ⟨hgrows, results, last, rfl, hresults, hlast⟩ := hk''
  exact ⟨results, last, rfl, ⟨ps, hk'.2.imp fun p m => hgrows.sent p m, hresults⟩, hlast⟩

section Batches

variable {gs : List Group} {command : GroupCommand} {barrierAfter : Bool} {results : List Settled}
  {last : Option Settled}

/-- A member of a batch was sent and has a result. -/
theorem Batched.exists_member (h : Batched k command gs barrierAfter results last) {i : Nat}
    {g : Group} (hg : gs[i]? = some g) : ∃ p o x, k.sent p (.groupMod ⟨command, g⟩) ∧
      k.known p o ∧ results[i]? = some (x, o) := by
  obtain ⟨ps, hsent, hknown⟩ := h.members
  have hm : (gs.map fun g => Message.groupMod ⟨command, g⟩)[i]? =
      some (.groupMod ⟨command, g⟩) := by
    rw [List.getElem?_map, hg]
    rfl
  obtain ⟨p, hp, hpsent⟩ := exists_getElem?_of_forall₂ hsent hm
  obtain ⟨⟨x, o⟩, hx, ho⟩ := exists_getElem?_of_forall₂ hknown.flip hp
  exact ⟨p, o, x, hpsent, ho, hx⟩

/-- A member of a batch that is accepted was sent and has a result, and its failure is not
among those of the batch. -/
theorem Batched.exists_accepted {result : Outcome Unit} {g : GroupId}
    (h : Batched k command gs barrierAfter results last)
    (hg : g ∈ accepted (gs.map Group.id) result) :
    ∃ p group o i x, group.id = g ∧ k.sent p (.groupMod ⟨command, group⟩) ∧ k.known p o ∧
      results[i]? = some (x, o) ∧ ∀ total failures x cause,
        result = .error (.batch total failures) → ⟨.member i, x, cause⟩ ∉ failures := by
  obtain ⟨i, hi, haccepted⟩ := exists_of_mem_accepted hg
  rw [List.getElem?_map] at hi
  obtain ⟨group, hgroup, rfl⟩ := Option.map_eq_some_iff.mp hi
  obtain ⟨p, o, x, hp, ho, hx⟩ := h.exists_member hgroup
  exact ⟨p, group, o, i, x, rfl, hp, ho, hx, haccepted⟩

/-- All members of a batch are done if no failure of a member stands in the way. -/
theorem Batched.done (h : Batched k command gs barrierAfter results last)
    (hbatch : r.isGroupBatch = true)
    (hfailed : ∀ (g : Group) i x cause total failures,
      batchOutcome results last = .error (.batch total failures) →
        ⟨.member i, x, cause⟩ ∈ failures →
          rule.confirms (.groupMod ⟨command, g⟩) (.error cause) = true) :
    ∀ g ∈ gs, ∃ p, k.Done r rule p (.groupMod ⟨command, g⟩) := by
  intro g hg
  obtain ⟨i, hi⟩ := List.mem_iff_getElem?.mp hg
  obtain ⟨p, o, x, hp, ho, hx⟩ := h.exists_member hi
  refine ⟨p, hp, o, ho, member_counts last hx hbatch ?_⟩
  rintro cause total failures rfl hout hmem
  exact hfailed g i _ cause total failures hout hmem

/-- A batch speaks for its members and its barrier if all that it fails for are members that
the device has confirmed. -/
theorem Batched.succeeded (h : Batched k command gs barrierAfter results last)
    (hbatch : r.isGroupBatch = true)
    (hfailed : ∀ f total failures, batchOutcome results last = .error (.batch total failures) →
      f ∈ failures → f.step ≠ .barrier ∧
        ∀ g, rule.confirms (.groupMod ⟨command, g⟩) (.error f.error) = true)
    (hk : k.Grows k') :
    (∀ g ∈ gs, ∃ p, k'.Done r rule p (.groupMod ⟨command, g⟩)) ∧
      (barrierAfter = true → ∃ p, k'.Over r rule p .barrierRequest) := by
  constructor
  · intro g hg
    obtain ⟨p, hdone⟩ := h.done hbatch (fun g i x cause total failures hout hf =>
      (hfailed _ total failures hout hf).2 g) g hg
    exact ⟨p, hdone.mono hk⟩
  · intro hbarrier
    obtain ⟨p, hover⟩ := barrier_over results h.closed (passesOver_of_isGroupBatch hbatch)
      (fun x cause total failures hout hf => (hfailed _ total failures hout hf).1 rfl) hbarrier
    exact ⟨p, hover.mono hk⟩

end Batches

end Operation

end Southbound
