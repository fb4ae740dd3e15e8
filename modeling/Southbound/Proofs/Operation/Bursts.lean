import Southbound.Proofs.Operation.Answered

/-!
# Bursts of messages

An operation hands over some messages one after another and then waits for all of them
together.  Such messages are a burst.  As a discipline of programs (`bursts`): what is known
is which messages were sent and not waited for yet (`Burst`), and there are no more of them
than some limit.

The answers are those of a device that does as it is told and of a store that has every
group that is looked up.  With these no request fails if its messages fit into one burst
(`Request.work_succeeds`).  A group that has to be added first is a burst of its own.

Besides, an operation does only so much: each effect stands for some steps, and a request has
a budget for all that it does.
-/

namespace Southbound

/-- The answer of a device that does as it is told. -/
def Message.confirmation : Message → Message
  | .barrierRequest => .barrierReply
  | _ => .ack

/-- How many steps an effect stands for.  A message that was sent is taken from the queue, put
on the wire, read by the device and answered. -/
def Effect.steps : Effect → Nat
  | .send _ => 5
  | _ => 1

/-- How far an operation has come with its messages. -/
structure Burst where
  /-- The messages that were sent and not waited for, with the promises of their results. -/
  sent : List (Promise × Message) := []
  /-- How many steps are left to it. -/
  budget : Nat

/-- No more messages are sent than the limit before all of them are waited for. -/
def bursts (limit : Nat) : Discipline Burst where
  may k e := e.steps ≤ k.budget ∧
    match e with
    | .send _ => k.sent.length < limit
    | .await p => ∃ m, k.sent = [(p, m)]
    | .gather ps last => k.sent.map Prod.fst = ps ++ last.toList
    | _ => True
  next k e a k' := k.budget ≤ k'.budget + e.steps ∧
    match e, a with
    | .send m, p => k'.sent = k.sent ++ [(p, m)]
    | .await p, o => k'.sent = [] ∧ ∀ m, k.sent = [(p, m)] → o = .ok m.confirmation
    | .gather ps _, results => k'.sent = [] ∧ results.1.length = ps.length ∧
      results.1 ++ results.2.toList = k.sent.map fun a => (a.1.xid, .ok a.2.confirmation)
    | .readGroup _, o => k'.sent = k.sent ∧ ∃ group, o = .ok (some group)
    | _, _ => k'.sent = k.sent

/-- Whatever was sent was waited for, and it took no more than so many steps. -/
def Burst.Clears (k k' : Burst) (steps : Nat) : Prop :=
  k'.sent = [] ∧ k.budget ≤ k'.budget + steps

/-- How many steps a request may take, from the start of its job to the end. -/
def Request.steps (r : Request) : Nat := 6 * r.messages.length + 15

/-- A batch whose members and whose barrier were all confirmed has succeeded. -/
theorem batchOutcome_confirmed {members : List Settled} {barrier : Option Settled}
    (hmembers : ∀ x ∈ members, ∃ m, x.2 = .ok m) (hbarrier : ∀ x ∈ barrier, x.2 = .ok .barrierReply) :
    batchOutcome members barrier = .ok () := by
  have hnone : memberFailures members = [] := by
    refine List.filterMap_eq_nil_iff.mpr fun a ha => ?_
    obtain ⟨⟨x, result⟩, index⟩ := a
    obtain ⟨m, hm⟩ := hmembers _ (List.fst_mem_of_mem_zipIdx ha)
    cases hm
    rfl
  rw [batchOutcome, hnone]
  cases barrier with
  | none => rfl
  | some x =>
      obtain ⟨x, result⟩ := x
      cases hbarrier _ rfl
      rfl

namespace Operation

variable {limit i j : Nat} {k : Burst} {ps : List Promise} {ms : List Message} {α β : Type}
  {o : Operation α}

/-! ## Sending and waiting -/

/-- Messages are sent one after another. -/
theorem bursts_sendAll (hlimit : k.sent.length + ms.length ≤ limit)
    (hbudget : 5 * ms.length ≤ k.budget) :
    (sendAll ms).Succeeds (bursts limit) k fun k' ps => ps.length = ms.length ∧
      k'.sent = k.sent ++ ps.zip ms ∧ k.budget ≤ k'.budget + 5 * ms.length := by
  induction ms generalizing k with
  | nil => exact succeeds_pure ⟨rfl, (List.append_nil _).symm, Nat.le_refl _⟩
  | cons m ms ih =>
      rw [List.length_cons] at hlimit hbudget
      refine succeeds_bind (succeeds_lift ⟨?_, ?_⟩ fun p k' ⟨hcost, hsent⟩ => ?_)
      · show 5 ≤ k.budget
        omega
      · show k.sent.length < limit
        omega
      · replace hsent : k'.sent = k.sent ++ [(p, m)] := hsent
        replace hcost : k.budget ≤ k'.budget + 5 := hcost
        have hlimit' : k'.sent.length + ms.length ≤ limit := by
          rw [hsent, List.length_append, List.length_singleton]
          omega
        refine succeeds_bind ((ih hlimit' (by omega)).mono fun k'' ps ⟨hlen, hsent', hcost'⟩ => ?_)
        refine succeeds_pure ⟨by simp [hlen], ?_, ?_⟩
        · rw [hsent', hsent, List.append_assoc]
          rfl
        · rw [List.length_cons]
          omega

/-- All messages of a batch are waited for. -/
theorem bursts_settleBatch {last : Option Promise} (hlength : ps.length = ms.length)
    (hsent : k.sent = ps.zip ms ++ (last.map fun p => (p, Message.barrierRequest)).toList)
    (hbudget : 1 ≤ k.budget) :
    (settleBatch ps last).Succeeds (bursts limit) k fun k' _ => k.Clears k' 1 := by
  have hpromises : k.sent.map Prod.fst = ps ++ last.toList := by
    rw [hsent, List.map_append, List.map_fst_zip (Nat.le_of_eq hlength)]
    cases last <;> rfl
  refine succeeds_bind (succeeds_lift ⟨hbudget, hpromises⟩ ?_)
  rintro ⟨results, closing⟩ k' ⟨hcost, hclear, hresults, hall⟩
  rw [hsent, List.map_append] at hall
  obtain ⟨rfl, hclosing⟩ := List.append_inj hall (by simp [hresults, hlength])
  refine succeeds_ofOutcome (batchOutcome_confirmed (fun x hx => ?_) fun x hx => ?_) ⟨hclear, hcost⟩
  · obtain ⟨a, -, rfl⟩ := List.mem_map.mp hx
    exact ⟨_, rfl⟩
  · replace hx : x ∈ closing.toList := Option.mem_toList.mpr hx
    rw [hclosing] at hx
    cases last with
    | none => cases hx
    | some p => exact List.mem_singleton.mp hx ▸ rfl

/-- The messages of a batch are waited for, after a barrier if there is to be one. -/
theorem bursts_composeWithBarrier {barrierAfter : Bool} (hlength : ps.length = ms.length)
    (hsent : k.sent = ps.zip ms) (hlimit : ms.length + barrierAfter.toNat ≤ limit)
    (hbudget : 5 * barrierAfter.toNat + 1 ≤ k.budget) :
    (composeWithBarrier ps barrierAfter).Succeeds (bursts limit) k fun k' _ =>
      k.Clears k' (5 * barrierAfter.toNat + 1) := by
  cases barrierAfter with
  | false => exact bursts_settleBatch hlength (by simpa using hsent) hbudget
  | true =>
      rw [Bool.toNat_true] at hlimit hbudget ⊢
      refine succeeds_bind (succeeds_lift ⟨Nat.le_of_succ_le hbudget, ?_⟩ ?_)
      · show k.sent.length < limit
        rw [hsent, List.length_zip]
        omega
      · intro p k' ⟨hcost, hsent'⟩
        replace hcost : k.budget ≤ k'.budget + 5 := hcost
        rw [hsent] at hsent'
        have hsettle : (settleBatch ps (some p)).Succeeds (bursts limit) k'
            fun k'' _ => k'.Clears k'' 1 := bursts_settleBatch hlength hsent' (by omega)
        refine hsettle.mono ?_
        intro k'' _ ⟨hclear, hcost'⟩
        exact ⟨hclear, by omega⟩

/-! ## Operations one after another -/

/-- With nothing on its way, an operation succeeds within so many steps, whatever it sends is
waited for, and its value has a property. -/
def Takes (limit steps : Nat) (o : Operation α) (P : α → Prop) : Prop :=
  ∀ k : Burst, k.sent = [] → steps ≤ k.budget →
    o.Succeeds (bursts limit) k fun k' a => k.Clears k' steps ∧ P a

theorem Takes.mono {P Q : α → Prop} (h : o.Takes limit i P) (hle : i ≤ j)
    (hpost : ∀ a, P a → Q a) : o.Takes limit j Q := by
  intro k hclear hbudget
  refine (h k hclear (Nat.le_trans hle hbudget)).mono fun k' a ⟨⟨hclear', hcost⟩, ha⟩ => ?_
  exact ⟨⟨hclear', by omega⟩, hpost a ha⟩

theorem takes_pure {P : α → Prop} {a : α} (h : P a) :
    Operation.Takes limit 0 (pure a) P :=
  fun _ hclear _ => succeeds_pure ⟨⟨hclear, Nat.le_refl _⟩, h⟩

theorem takes_ofOutcome {P : α → Prop} {r : Outcome α} {a : α} (hr : r = .ok a) (h : P a) :
    Operation.Takes limit 0 (ofOutcome r) P :=
  fun _ hclear _ => succeeds_ofOutcome hr ⟨⟨hclear, Nat.le_refl _⟩, h⟩

theorem takes_bind {P : α → Prop} {f : α → Operation β} {Q : β → Prop}
    (h : o.Takes limit i P) (hf : ∀ a, P a → (f a).Takes limit j Q) :
    Operation.Takes limit (i + j) (o >>= f) Q := by
  intro k hclear hbudget
  refine succeeds_bind ((h k hclear (by omega)).mono fun k' a ⟨⟨hclear', hcost⟩, ha⟩ => ?_)
  refine (hf a ha k' hclear' (by omega)).mono fun k'' b ⟨⟨hclear'', hcost'⟩, hb⟩ => ?_
  exact ⟨⟨hclear'', by omega⟩, hb⟩

theorem takes_map {P : α → Prop} {f : α → β} {Q : β → Prop} (h : o.Takes limit i P)
    (hf : ∀ a, P a → Q (f a)) : Operation.Takes limit i (f <$> o) Q :=
  fun k hclear hbudget =>
    succeeds_map ((h k hclear hbudget).mono fun _ a ⟨hk, ha⟩ => ⟨hk, hf a ha⟩)

/-- An effect that neither sends nor waits. -/
theorem takes_lift {e : Effect} {P : e.Answer → Prop} (hcost : e.steps = 1)
    (hmay : ∀ k : Burst, k.sent = [] → 1 ≤ k.budget → (bursts limit).may k e)
    (hnext : ∀ (k : Burst) a k', k.sent = [] → (bursts limit).next k e a k' →
      k'.sent = [] ∧ P a) : Operation.Takes limit 1 (ExceptT.lift (.perform e)) P := by
  intro k hclear hbudget
  refine succeeds_lift (hmay k hclear hbudget) fun a k' hk' => ?_
  obtain ⟨hclear', ha⟩ := hnext k a k' hclear hk'
  exact ⟨⟨hclear', hcost ▸ hk'.1⟩, ha⟩

/-- A message is sent, and what follows its result, which is that it was confirmed. -/
theorem takes_request {m : Message} {f : Promise → Outcome Message → Operation β}
    {P : β → Prop} (hlimit : 1 ≤ limit)
    (hf : ∀ p, (f p (.ok m.confirmation)).Takes limit i P) :
    Operation.Takes limit (6 + i) (do let p ← send m; let o ← settled p; f p o) P := by
  intro k hclear hbudget
  refine succeeds_bind (succeeds_lift ⟨?_, ?_⟩ fun p k' ⟨hcost, hsent⟩ => ?_)
  · show 5 ≤ k.budget
    omega
  · show k.sent.length < limit
    rw [hclear]
    exact hlimit
  · replace hcost : k.budget ≤ k'.budget + 5 := hcost
    rw [hclear] at hsent
    refine succeeds_bind (succeeds_lift ⟨?_, m, hsent⟩ fun o k'' ⟨hcost', hclear', ho⟩ => ?_)
    · show 1 ≤ k'.budget
      omega
    · replace hcost' : k'.budget ≤ k''.budget + 1 := hcost'
      rw [ho m hsent]
      refine (hf p k'' hclear' (by omega)).mono fun k₃ b ⟨⟨hclear₃, hcost₃⟩, hb⟩ => ?_
      exact ⟨⟨hclear₃, by omega⟩, hb⟩

/-- A message is sent, and what follows its reply. -/
theorem takes_request_reply {m : Message} {f : Promise → Message → Operation β}
    {P : β → Prop} (hlimit : 1 ≤ limit)
    (hf : ∀ p, (f p m.confirmation).Takes limit i P) :
    Operation.Takes limit (6 + i) (do let p ← send m; let a ← reply p; f p a) P :=
  takes_request (f := fun p o => ofOutcome o >>= f p) hlimit hf

theorem takes_barrier (hlimit : 1 ≤ limit) : barrier.Takes limit 6 fun _ => True :=
  takes_request_reply (i := 0) (f := fun p m => ofOutcome (expectBarrierReply p.xid m)) hlimit
    fun _ => takes_ofOutcome rfl trivial

/-- A batch of messages has succeeded. -/
theorem takes_batchResult {barrierAfter : Bool} (hlimit : ms.length + barrierAfter.toNat ≤ limit) :
    (batchResult ms barrierAfter).Takes limit (5 * (ms.length + barrierAfter.toNat) + 1)
      fun result => result = .ok () := by
  intro k hclear hbudget
  have hsendable : k.sent.length + ms.length ≤ limit := by
    rw [hclear, List.length_nil]
    omega
  refine succeeds_bind ((bursts_sendAll hsendable (by omega)).mono fun k' ps hk' => ?_)
  obtain ⟨hlength, hsent, hcost⟩ := hk'
  rw [hclear, List.nil_append] at hsent
  refine succeeds_lift_run (Program.Follows.mono
    (bursts_composeWithBarrier (k := k') hlength hsent hlimit (by omega)) ?_)
  rintro k'' result ⟨_, rfl, hclear', hcost'⟩
  exact ⟨⟨hclear', by omega⟩, rfl⟩

/-- Changes of flows are sent and waited for, one of them alone or all in a batch. -/
theorem takes_sendFlowMods {mods : List FlowMod} {barrierAfter : Bool}
    (hlimit : mods.length + barrierAfter.toNat ≤ limit) :
    (sendFlowMods mods barrierAfter).Takes limit (5 * (mods.length + barrierAfter.toNat) + 1)
      fun _ => True := by
  intro k hclear hbudget
  have hms : (mods.map Message.flowMod).length = mods.length := List.length_map _
  have hsendable : k.sent.length + (mods.map Message.flowMod).length ≤ limit := by
    rw [hclear, hms, List.length_nil]
    omega
  refine succeeds_bind ((bursts_sendAll hsendable (by omega)).mono fun k' ps hk' => ?_)
  obtain ⟨hlength, hsent, hcost⟩ := hk'
  rw [hclear, List.nil_append] at hsent
  split
  · next p =>
      -- A single message is waited for alone.
      obtain ⟨m, hm⟩ := List.length_eq_one_iff.mp (hlength.symm.trans rfl)
      rw [hm] at hsent
      rw [hms] at hcost
      refine succeeds_bind (succeeds_reply ⟨?_, m, hsent⟩ fun o k'' ⟨hcost', hclear', ho⟩ => ?_)
      · show 1 ≤ k'.budget
        omega
      · replace hcost' : k'.budget ≤ k''.budget + 1 := hcost'
        exact ⟨_, ho m hsent, succeeds_pure ⟨⟨hclear', by omega⟩, trivial⟩⟩
  · refine (bursts_composeWithBarrier hlength hsent (by omega) (by omega)).mono ?_
    intro k'' _ ⟨hclear', hcost'⟩
    exact ⟨⟨hclear', by omega⟩, trivial⟩

/-! ## What is known of the device -/

/-- An effect that neither sends nor waits nor reads. -/
theorem takes_note {e : Effect} (hcost : e.steps = 1)
    (hmay : ∀ k : Burst, 1 ≤ k.budget → (bursts limit).may k e)
    (hnext : ∀ (k : Burst) a k', (bursts limit).next k e a k' → k'.sent = k.sent) :
    Operation.Takes limit 1 (ExceptT.lift (.perform e)) fun _ => True :=
  takes_lift hcost (fun k _ => hmay k) fun k a k' hclear hk' =>
    ⟨(hnext k a k' hk').trans hclear, trivial⟩

theorem takes_hasGroup (g : GroupId) : (hasGroup g).Takes limit 1 fun _ => True :=
  takes_note rfl (fun _ h => ⟨h, trivial⟩) fun _ _ _ h => h.2

theorem takes_recordGroup (g : GroupId) : (recordGroup g).Takes limit 1 fun _ => True :=
  takes_note rfl (fun _ h => ⟨h, trivial⟩) fun _ _ _ h => h.2

theorem takes_forgetGroup (g : GroupId) : (forgetGroup g).Takes limit 1 fun _ => True :=
  takes_note rfl (fun _ h => ⟨h, trivial⟩) fun _ _ _ h => h.2

theorem takes_noteStale (flow : StaleFlow) : (noteStale flow).Takes limit 1 fun _ => True :=
  takes_note rfl (fun _ h => ⟨h, trivial⟩) fun _ _ _ h => h.2

theorem takes_recordFlow (f : Flow) (descriptor : FlowDescriptor) :
    (recordFlow f descriptor).Takes limit 1 fun _ => True :=
  takes_note rfl (fun _ h => ⟨h, trivial⟩) fun _ _ _ h => h.2

theorem takes_forgetFlow (f : Flow) : (forgetFlow f).Takes limit 1 fun _ => True :=
  takes_note rfl (fun _ h => ⟨h, trivial⟩) fun _ _ _ h => h.2

theorem takes_readGroup (g : GroupId) :
    (readGroup g).Takes limit 1 fun o => ∃ group, o = .ok (some group) :=
  takes_lift rfl (fun _ _ h => ⟨h, trivial⟩) fun _ _ _ hclear hk' =>
    ⟨hk'.2.1.trans hclear, hk'.2.2⟩

theorem takes_forGroups {f : GroupId → Operation Unit} (hf : ∀ g, (f g).Takes limit 1 fun _ => True)
    (gs : List GroupId) : (forGroups f gs).Takes limit gs.length fun _ => True := by
  induction gs with
  | nil => exact takes_pure trivial
  | cons g gs ih =>
      exact (takes_bind (hf g) fun _ _ => ih).mono (Nat.le_of_eq (Nat.add_comm ..)) fun _ => id

/-! ## Groups -/

theorem takes_pushGroup (hlimit : 1 ≤ limit) (rule : GroupExistsRule) (g : Group) :
    (pushGroup rule g).Takes limit 7 fun _ => True := by
  refine takes_request (i := 1) hlimit fun p => ?_
  exact takes_bind (takes_pure (a := false) (P := fun _ => True) trivial) fun existed _ =>
    takes_bind (takes_recordGroup g.id) fun _ _ => takes_pure trivial

theorem takes_addGroup (hlimit : 1 ≤ limit) (rule : GroupExistsRule) (g : Group) :
    (addGroup rule g).Takes limit 7 fun _ => True :=
  takes_bind (j := 0) (takes_pushGroup hlimit rule g) fun _ _ => takes_pure trivial

theorem takes_updateGroup (hlimit : 1 ≤ limit) (g : Group) :
    (updateGroup g).Takes limit 7 fun _ => True :=
  takes_request_reply (i := 1) hlimit fun _ => takes_recordGroup g.id

theorem takes_removeGroup (hlimit : 1 ≤ limit) (g : Group) :
    (removeGroup g).Takes limit 7 fun _ => True :=
  takes_request_reply (i := 1) hlimit fun _ => takes_forgetGroup g.id

theorem length_accepted_le (ids : List GroupId) (result : Outcome Unit) :
    (accepted ids result).length ≤ ids.length :=
  Nat.le_trans (List.length_filterMap_le ..) (Nat.le_of_eq List.length_zipIdx)

/-- A batch of changes of groups, and what is known of the groups afterwards. -/
theorem takes_groupBatch {ms : List Message} {barrierAfter : Bool} {gs : List Group}
    {f : GroupId → Operation Unit} {h : Outcome Unit → Outcome Unit}
    (hlength : ms.length = gs.length) (hlimit : gs.length + barrierAfter.toNat ≤ limit)
    (hf : ∀ g, (f g).Takes limit 1 fun _ => True) (hok : h (.ok ()) = .ok ()) :
    Operation.Takes limit (6 * (gs.length + barrierAfter.toNat) + 1) (do
      let result ← batchResult ms barrierAfter
      let result := h result
      forGroups f (accepted (gs.map Group.id) result)
      ofOutcome result) fun _ => True := by
  rw [← hlength] at hlimit
  have hle : (accepted (gs.map Group.id) (h (.ok ()))).length ≤ gs.length :=
    Nat.le_trans (length_accepted_le ..) (Nat.le_of_eq (List.length_map _))
  refine (takes_bind (takes_batchResult hlimit) (j := gs.length) ?_).mono (by omega) fun _ => id
  rintro _ rfl
  refine (takes_bind (j := 0) (takes_forGroups hf _) fun _ _ => ?_).mono hle fun _ => id
  exact takes_ofOutcome hok trivial

theorem takes_addGroups {barrierAfter : Bool} {gs : List Group} (hne : gs ≠ [])
    (hlimit : gs.length + barrierAfter.toNat ≤ limit) (rule : GroupExistsRule) :
    (addGroups rule gs barrierAfter).Takes limit (6 * (gs.length + barrierAfter.toNat) + 1)
      fun _ => True := by
  have hcheck : (checkNonEmpty "add-groups-batch" gs).mapError RequestFault.toFailure = .ok () := by
    rw [checkNonEmpty, if_neg (by simpa using hne)]
    rfl
  refine (takes_bind (takes_ofOutcome hcheck (P := fun _ => True) trivial) fun _ _ =>
    takes_groupBatch (List.length_map _) hlimit takes_recordGroup rfl).mono
      (Nat.le_of_eq (Nat.zero_add _)) fun _ => id

theorem takes_removeGroups {barrierAfter : Bool} {gs : List Group} (hne : gs ≠ [])
    (hlimit : gs.length + barrierAfter.toNat ≤ limit) :
    (removeGroups gs barrierAfter).Takes limit (6 * (gs.length + barrierAfter.toNat) + 1)
      fun _ => True := by
  have hcheck :
      (checkNonEmpty "remove-groups-batch" gs).mapError RequestFault.toFailure = .ok () := by
    rw [checkNonEmpty, if_neg (by simpa using hne)]
    rfl
  refine (takes_bind (takes_ofOutcome hcheck (P := fun _ => True) trivial) fun _ _ =>
    takes_groupBatch (f := forgetGroup) (h := id) (List.length_map _) hlimit takes_forgetGroup
      rfl).mono (Nat.le_of_eq (Nat.zero_add _)) fun _ => id

/-! ## Flows -/

theorem takes_ensureGroup (hlimit : 1 ≤ limit) (rule : GroupExistsRule) (d : DeviceId) (f : Flow) :
    (ensureGroup rule d f).Takes limit 9 fun _ => True := by
  rw [ensureGroup]
  split
  · exact (takes_pure trivial).mono (Nat.zero_le _) fun _ => id
  · next g hg =>
      refine takes_bind (j := 8) (takes_hasGroup g) fun has _ => ?_
      split
      · exact (takes_pure trivial).mono (Nat.zero_le _) fun _ => id
      · refine takes_bind (j := 7) (takes_readGroup g) ?_
        rintro _ ⟨group, rfl⟩
        exact takes_bind (j := 0) (takes_pushGroup hlimit rule group) fun _ _ => takes_pure trivial

theorem takes_addFlow {f : Flow} (hlimit : 1 + f.barrier.toNat ≤ limit) (policy : OperationPolicy)
    (path : FlowPath) : (addFlow policy path f).Takes limit (5 * f.barrier.toNat + 16) fun _ =>
      True := by
  have hchange : (sendFlowMods [.add f] f.barrier).Takes limit _ fun _ => True :=
    takes_sendFlowMods hlimit
  refine (takes_bind (takes_ensureGroup (by omega) policy.rule path.device f) fun _ _ =>
    takes_bind hchange fun _ _ => takes_bind (takes_recordFlow f path.descriptor) fun _ _ =>
      takes_pure trivial).mono ?_ fun _ => id
  rw [List.length_singleton]
  omega

theorem takes_updateFlow {old updated : Flow}
    (hlimit : (FlowMod.updatePlan old.toStrict updated.toStrict).length + updated.barrier.toNat ≤
      limit) (policy : OperationPolicy) (path : FlowPath) :
    (updateFlow policy path old updated).Takes limit
      (5 * ((FlowMod.updatePlan old.toStrict updated.toStrict).length + updated.barrier.toNat) + 12)
      fun _ => True := by
  have hpos : 0 < (FlowMod.updatePlan old.toStrict updated.toStrict).length := by
    rw [FlowMod.updatePlan]
    split <;> simp
  refine (takes_bind (takes_ensureGroup (by omega) policy.rule path.device updated.toStrict)
    fun _ _ => takes_bind (takes_sendFlowMods hlimit) fun _ _ =>
      takes_bind (takes_forgetFlow old.toStrict) fun _ _ =>
        takes_bind (takes_recordFlow updated.toStrict path.descriptor) fun _ _ =>
          takes_pure trivial).mono ?_ fun _ => id
  omega

theorem takes_removeFlow {f : Flow} (hlimit : 1 + f.barrier.toNat ≤ limit)
    (policy : OperationPolicy) (path : FlowPath) :
    (removeFlow policy path f).Takes limit (5 * f.barrier.toNat + 8) fun _ => True := by
  have hremove : Operation.Takes limit (5 * f.barrier.toNat + 7) (do
      sendFlowMods [.delete f.toStrict] f.toStrict.barrier
      forgetFlow f.toStrict
      return (⟨path.descriptor, .noDependency⟩ : FlowOutcome)) fun _ => True := by
    have hchange : (sendFlowMods [.delete f.toStrict] f.toStrict.barrier).Takes limit _ fun _ =>
      True := takes_sendFlowMods hlimit
    refine (takes_bind hchange fun _ _ => takes_bind (takes_forgetFlow f.toStrict) fun _ _ =>
      takes_pure trivial).mono ?_ fun _ => id
    rw [List.length_singleton]
    show 5 * (1 + f.barrier.toNat) + 1 + (1 + 0) ≤ _
    omega
  rw [removeFlow]
  dsimp only
  split
  · exact (takes_bind (takes_noteStale _) fun _ _ => hremove).mono (by omega) fun _ => id
  · exact hremove.mono (by omega) fun _ => id

end Operation

/-! ## Requests -/

/-- The messages of a request fit into one burst, and a batch has members. -/
structure Request.Fits (r : Request) (limit : Nat) : Prop where
  messages : r.messages.length ≤ limit
  members : r.isGroupBatch = true → r.groupMods ≠ []

theorem Request.length_messages (r : Request) :
    r.messages.length = r.flowMods.length + r.groupMods.length + r.barrierAfter.toNat := by
  rw [messages, List.length_append, List.length_append, List.length_map, List.length_map]
  cases r.barrierAfter <;> rfl

/-- The program of an operation does not fail either, whatever its value is seen as. -/
theorem Operation.Takes.result {α : Type} {limit n i : Nat} {o : Operation α} {P : α → Prop}
    (h : o.Takes limit i P) (f : α → Result) (hle : i ≤ n) :
    Program.Follows (bursts limit) { budget := n } (Functor.map f o).run fun k result =>
      k.sent = [] ∧ ∃ v, result = .ok v :=
  Program.Follows.mono (takes_map (f := f) (Q := fun _ => True) h (fun _ _ => trivial) _ rfl hle)
    fun _ _ ⟨v, hv, ⟨hclear, _⟩, _⟩ => ⟨hclear, v, hv⟩

open Operation in
/-- No request fails if its messages fit into one burst, and it does no more than it may. -/
theorem Request.work_succeeds {r : Request} {limit : Nat} (hlimit : 1 ≤ limit) (h : r.Fits limit)
    (policy : OperationPolicy) (c : ConnectionId) :
    (r.work policy c).Follows (bursts limit) { budget := r.steps - 2 } fun k result =>
      k.sent = [] ∧ ∃ v, result = .ok v := by
  obtain ⟨hmessages, hmembers⟩ := h
  rw [steps]
  rw [length_messages] at hmessages ⊢
  cases r with
  | addFlow path f =>
      simp only [flowMods, groupMods, barrierAfter, flowBarrier, List.length_cons,
        List.length_nil] at hmessages ⊢
      exact (takes_addFlow (by omega) policy path).result .flow (by omega)
  | updateFlow path old updated =>
      simp only [flowMods, groupMods, barrierAfter, flowBarrier, List.length_nil] at hmessages ⊢
      exact (takes_updateFlow (by omega) policy path).result .flow (by omega)
  | removeFlow path f =>
      simp only [flowMods, groupMods, barrierAfter, flowBarrier, List.length_cons,
        List.length_nil] at hmessages ⊢
      exact (takes_removeFlow (by omega) policy path).result .flow (by omega)
  | addGroup d g => exact (takes_addGroup hlimit policy.rule g).result (fun _ => .done) (by omega)
  | updateGroup d g => exact (takes_updateGroup hlimit g).result (fun _ => .done) (by omega)
  | removeGroup d g => exact (takes_removeGroup hlimit g).result (fun _ => .done) (by omega)
  | addGroups d gs barrierAfter =>
      simp only [flowMods, groupMods, Request.barrierAfter, List.length_map, List.length_nil]
        at hmessages ⊢
      have hne : gs ≠ [] := fun hnil => hmembers rfl (by rw [groupMods, hnil, List.map_nil])
      exact (takes_addGroups hne (by omega) policy.rule).result (fun _ => .done) (by omega)
  | removeGroups d gs barrierAfter =>
      simp only [flowMods, groupMods, Request.barrierAfter, List.length_map, List.length_nil]
        at hmessages ⊢
      have hne : gs ≠ [] := fun hnil => hmembers rfl (by rw [groupMods, hnil, List.map_nil])
      exact (takes_removeGroups hne (by omega)).result (fun _ => .done) (by omega)
  | barrier d => exact (takes_barrier hlimit).result (fun _ => .done) (by omega)
  | observe d f => trivial

end Southbound
