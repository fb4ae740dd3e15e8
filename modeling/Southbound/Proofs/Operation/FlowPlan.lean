import Southbound.Proofs.Operation.Answered
import Southbound.Proofs.Operation.Deeds

/-!
# The messages of operations on flows

Which messages an operation on a flow hands over, and in which order, as a rule of its own
(`Request.plan`): first the group that the flow needs, if it has to be added, then the
changes of flows, and then a barrier if one is asked for.

What the plan turns on is what was found out about the group (`Finding`).  If the group
cannot be had, nothing more is done.  `Request.Story` tells all that is done besides, each
deed in its place, with the outcome, and the operations do just that
(`Request.work_comes_iff`).
-/

namespace Southbound

/-! ## Making sure of a group -/

/-- Whether an effect is about a group. -/
def Effect.ofGroup : Effect → Bool
  | .send (.groupMod _) => true
  | .hasGroup _ => true
  | .recordGroup _ => true
  | .forgetGroup _ => true
  | .readGroup _ => true
  | _ => false

/-- What the result of a group's addition says: that the device took the group, that it had
the group already, or neither. -/
def GroupExistsRule.verdict (rule : GroupExistsRule) : Outcome Message → Outcome Bool
  | .ok _ => .ok false
  | .error (.deviceRejected r) => if rule.matches r then .ok true else .error (.deviceRejected r)
  | .error e => .error e

/-- What was found out about the group that a flow needs. -/
inductive Finding where
  /-- The flow hands packets to no group. -/
  | independent
  | present (group : GroupId)
  /-- The group is not known to be there, and it could not be looked up. -/
  | unread (group : GroupId) (cause : Failure)
  | unconfigured (group : GroupId)
  /-- The group is configured, and that was the result of its addition. -/
  | added (id : GroupId) (group : Group) (promise : Promise) (result : Outcome Message)

namespace Finding

def group? : Finding → Option GroupId
  | independent => none
  | present g => some g
  | unread g _ => some g
  | unconfigured g => some g
  | added g _ _ _ => some g

/-- The messages that are handed over to find it out. -/
def messages : Finding → List Message
  | added _ group _ _ => [.groupMod ⟨.add, group⟩]
  | _ => []

/-- All that is done to find it out.  The result of the addition is waited for before
anything else is done. -/
def deeds (rule : GroupExistsRule) : Finding → List Deed
  | independent => []
  | present g => [⟨.hasGroup g, true⟩]
  | unread g cause => [⟨.hasGroup g, false⟩, ⟨.readGroup g, .error cause⟩]
  | unconfigured g => [⟨.hasGroup g, false⟩, ⟨.readGroup g, .ok none⟩]
  | added g group p result =>
    [⟨.hasGroup g, false⟩, ⟨.readGroup g, .ok (some group)⟩, ⟨.send (.groupMod ⟨.add, group⟩), p⟩,
      ⟨.await p, result⟩] ++
    match rule.verdict result with
    | .ok _ => [⟨.recordGroup group.id, ()⟩]
    | .error _ => []

theorem length_deeds_le (rule : GroupExistsRule) (n : Finding) : (n.deeds rule).length ≤ 5 := by
  cases n with
  | added id group p result =>
      rw [deeds]
      split <;> simp
  | _ => simp [deeds]

/-- What it comes to: how it was made sure that the group is there, or why it cannot be. -/
def outcome (rule : GroupExistsRule) (d : DeviceId) : Finding → Outcome Dependency
  | independent => .ok .noDependency
  | present g => .ok (.present g)
  | unread _ (.storageError reason) => .error (.storageError reason)
  | unread _ cause => .error (.storageError cause.message)
  | unconfigured g => .error (.dependencyUnresolved d g)
  | added g _ _ result =>
    (rule.verdict result).map fun existed => if existed then .alreadyPresent g else .pushed g

theorem messagesOf_deeds (rule : GroupExistsRule) (n : Finding) :
    messagesOf (n.deeds rule) = n.messages := by
  cases n with
  | added g group p result =>
      rw [deeds, messagesOf_append]
      cases rule.verdict result <;> rfl
  | _ => rfl

theorem outcome_unread (rule : GroupExistsRule) (d : DeviceId) (g : GroupId) (cause : Failure) :
    (unread g cause).outcome rule d = .error (storageFailure cause) := by
  cases cause <;> rfl

/-- The group is there if it is known to be, or its addition has said so. -/
theorem eq_of_outcome {rule : GroupExistsRule} {d : DeviceId} {n : Finding} {g : GroupId}
    {dependency : Dependency} (hn : n.group? = some g) (ho : n.outcome rule d = .ok dependency) :
    n = .present g ∧ dependency = .present g ∨ ∃ group p result existed,
      n = .added g group p result ∧ rule.verdict result = .ok existed ∧
        dependency = if existed then .alreadyPresent g else .pushed g := by
  cases n with
  | independent => cases hn
  | present g' =>
      cases hn
      cases ho
      exact .inl ⟨rfl, rfl⟩
  | unread g' cause =>
      rw [outcome_unread] at ho
      cases ho
  | unconfigured g' => cases ho
  | added g' group p result =>
      cases hn
      rw [outcome] at ho
      cases hv : rule.verdict result with
      | error cause =>
          rw [hv] at ho
          cases ho
      | ok existed =>
          rw [hv] at ho
          cases ho
          exact .inr ⟨group, p, result, existed, rfl, hv, rfl⟩

end Finding

namespace Operation

variable {h : List Deed}

/-- After the addition of a group, what its result says decides what follows. -/
theorem pushGroup_eq (rule : GroupExistsRule) (g : Group) :
    pushGroup rule g = (do
      let p ← send (.groupMod ⟨.add, g⟩)
      let result ← settled p
      let existed ← ofOutcome (rule.verdict result)
      recordGroup g.id
      return existed) := by
  unfold pushGroup
  congr 1
  funext p
  congr 1
  funext result
  cases result with
  | ok m => rfl
  | error e =>
      cases e with
      | deviceRejected r =>
          simp only [GroupExistsRule.verdict]
          cases rule.matches r <;> rfl
      | _ => rfl

theorem does_pushGroup {rule : GroupExistsRule} {g : Group} {r : Outcome Bool} :
    (pushGroup rule g).Does h r ↔
      ∃ p result, r = rule.verdict result ∧
        h = [⟨.send (.groupMod ⟨.add, g⟩), p⟩, ⟨.await p, result⟩] ++
          match rule.verdict result with
          | .ok _ => [⟨.recordGroup g.id, ()⟩]
          | .error _ => [] := by
  rw [pushGroup_eq, send, does_lift_bind]
  refine exists_congr fun p => ?_
  constructor
  · rintro ⟨h', rfl, hrest⟩
    obtain ⟨result, h'', rfl, hknown⟩ := does_lift_bind.mp hrest
    refine ⟨result, ?_⟩
    rcases does_ofOutcome_bind.mp hknown with ⟨existed, hv, hrecord⟩ | ⟨e, hv, rfl, rfl⟩
    · obtain ⟨⟨⟩, h, rfl, hpure⟩ := does_lift_bind.mp hrecord
      obtain ⟨rfl, rfl⟩ := does_pure.mp hpure
      rw [hv]
      exact ⟨rfl, rfl⟩
    · rw [hv]
      exact ⟨rfl, rfl⟩
  · rintro ⟨result, rfl, rfl⟩
    refine ⟨_, rfl, does_lift_bind.mpr ⟨result, _, rfl, does_ofOutcome_bind.mpr ?_⟩⟩
    cases hv : rule.verdict result with
    | ok existed =>
        exact .inl ⟨existed, rfl, does_lift_bind.mpr ⟨(), [], rfl, does_pure.mpr ⟨rfl, rfl⟩⟩⟩
    | error e => exact .inr ⟨e, rfl, rfl, rfl⟩

theorem does_resolveGroup {rule : GroupExistsRule} {d : DeviceId} {g : GroupId}
    {r : Outcome Dependency} :
    (resolveGroup rule d g).Does h r ↔
      ∃ n : Finding, n.group? = some g ∧ n ≠ .present g ∧ ⟨.hasGroup g, false⟩ :: h = n.deeds rule ∧
        r = n.outcome rule d := by
  rw [resolveGroup, readGroup, does_lift_bind]
  constructor
  · rintro ⟨answer, h', rfl, hrest⟩
    match answer with
    | .error cause =>
        obtain ⟨rfl, rfl⟩ := does_throw.mp hrest
        exact ⟨.unread g cause, rfl, nofun, rfl, (Finding.outcome_unread ..).symm⟩
    | .ok none =>
        obtain ⟨rfl, rfl⟩ := does_throw.mp hrest
        exact ⟨.unconfigured g, rfl, nofun, rfl, rfl⟩
    | .ok (some group) =>
        rcases does_bind.mp hrest with ⟨h₁, existed, h₂, rfl, hpush, hpure⟩ | ⟨e, hpush, rfl⟩
        · obtain ⟨p, result, hv, rfl⟩ := does_pushGroup.mp hpush
          obtain ⟨rfl, rfl⟩ := does_pure.mp hpure
          refine ⟨.added g group p result, rfl, nofun, ?_, ?_⟩
          · rw [List.append_nil]
            rfl
          · rw [Finding.outcome, ← hv]
            rfl
        · obtain ⟨p, result, hv, rfl⟩ := does_pushGroup.mp hpush
          refine ⟨.added g group p result, rfl, nofun, rfl, ?_⟩
          rw [Finding.outcome, ← hv]
          rfl
  · rintro ⟨n, hn, hpresent, hdeeds, rfl⟩
    cases n with
    | independent => cases hn
    | present g' =>
        cases hn
        exact absurd rfl hpresent
    | unread g' cause =>
        cases hn
        cases hdeeds
        rw [Finding.outcome_unread]
        exact ⟨.error cause, [], rfl, does_throw.mpr ⟨rfl, rfl⟩⟩
    | unconfigured g' =>
        cases hn
        cases hdeeds
        exact ⟨.ok none, [], rfl, does_throw.mpr ⟨rfl, rfl⟩⟩
    | added g' group p result =>
        cases hn
        obtain ⟨-, rfl⟩ := List.cons.inj hdeeds
        refine ⟨.ok (some group), _, rfl, does_bind.mpr ?_⟩
        rw [Finding.outcome]
        cases hv : rule.verdict result with
        | ok existed =>
            refine .inl ⟨_, existed, [], (List.append_nil _).symm,
              does_pushGroup.mpr ⟨p, result, hv.symm, ?_⟩, does_pure.mpr ⟨rfl, rfl⟩⟩
            rw [hv]
            rfl
        | error e =>
            refine .inr ⟨e, does_pushGroup.mpr ⟨p, result, hv.symm, ?_⟩, rfl⟩
            rw [hv]
            rfl

/-- It is found out whether the group of a flow is there, and nothing else is done. -/
theorem does_ensureGroup {rule : GroupExistsRule} {d : DeviceId} {f : Flow}
    {r : Outcome Dependency} :
    (ensureGroup rule d f).Does h r ↔
      ∃ n : Finding, n.group? = f.groupDependency ∧ h = n.deeds rule ∧ r = n.outcome rule d := by
  rw [ensureGroup]
  cases f.groupDependency with
  | none =>
      dsimp only
      rw [does_pure]
      constructor
      · rintro ⟨rfl, rfl⟩
        exact ⟨.independent, rfl, rfl, rfl⟩
      · rintro ⟨n, hn, rfl, rfl⟩
        cases n with
        | independent => exact ⟨rfl, rfl⟩
        | _ => cases hn
  | some g =>
      dsimp only
      rw [hasGroup, does_lift_bind]
      constructor
      · rintro ⟨present, h', rfl, hrest⟩
        cases present with
        | true =>
            obtain ⟨rfl, rfl⟩ := does_pure.mp hrest
            exact ⟨.present g, rfl, rfl, rfl⟩
        | false =>
            obtain ⟨n, hn, -, hdeeds, rfl⟩ := does_resolveGroup.mp hrest
            exact ⟨n, hn, hdeeds, rfl⟩
      · rintro ⟨n, hn, rfl, rfl⟩
        by_cases hpresent : n = .present g
        · subst hpresent
          exact ⟨true, [], rfl, does_pure.mpr ⟨rfl, rfl⟩⟩
        · have hdeeds : ∃ h', n.deeds rule = ⟨.hasGroup g, false⟩ :: h' := by
            cases n with
            | independent => cases hn
            | present g' =>
                cases hn
                exact absurd rfl hpresent
            | _ =>
                cases hn
                exact ⟨_, rfl⟩
          obtain ⟨h', hh'⟩ := hdeeds
          exact ⟨false, h', hh', does_resolveGroup.mpr ⟨n, hn, hpresent, hh'.symm, rfl⟩⟩

end Operation

/-! ## Sending changes -/

/-- Changes of flows are sent one after another, then a barrier if one is asked for, and only
then are the results waited for.  A change that is alone and without a barrier is waited for
by itself. -/
inductive Settles (mods : List FlowMod) : Bool → List Deed → Outcome Unit → Prop where
  | alone {mod : FlowMod} {p : Promise} {result : Outcome Message} :
      mods = [mod] → Settles mods false [⟨.send (.flowMod mod), p⟩, ⟨.await p, result⟩]
        (result.map fun _ => ())
  | batch {ps : List Promise} {results : List Settled} {closing : Option Settled} :
      mods.length ≠ 1 → ps.length = mods.length →
      Settles mods false (Operation.sends (mods.map .flowMod) ps ++
        [⟨.gather ps none, (results, closing)⟩]) (batchOutcome results closing)
  | closed {ps : List Promise} {p : Promise} {results : List Settled} {closing : Option Settled} :
      ps.length = mods.length →
      Settles mods true (Operation.sends (mods.map .flowMod) ps ++
        [⟨.send .barrierRequest, p⟩, ⟨.gather ps (some p), (results, closing)⟩])
        (batchOutcome results closing)

/-- All changes are sent, and a barrier exactly if it is asked for. -/
theorem Settles.messagesOf {mods : List FlowMod} {barrierAfter : Bool} {h : List Deed}
    {r : Outcome Unit} (hs : Settles mods barrierAfter h r) :
    messagesOf h = mods.map .flowMod ++ if barrierAfter then [.barrierRequest] else [] := by
  cases hs with
  | alone hmods =>
      rw [hmods]
      rfl
  | batch _ hlength =>
      rw [messagesOf_append, Operation.messagesOf_sends (by simpa using hlength)]
      rfl
  | closed hlength =>
      rw [messagesOf_append, Operation.messagesOf_sends (by simpa using hlength)]
      rfl

theorem Settles.length_le {mods : List FlowMod} {barrierAfter : Bool} {h : List Deed}
    {r : Outcome Unit} (hs : Settles mods barrierAfter h r) : h.length ≤ mods.length + 2 := by
  cases hs with
  | alone _ => simp
  | batch _ hlength => simp [Operation.sends, hlength]
  | closed hlength => simp [Operation.sends, hlength]

theorem Settles.ofGroup {mods : List FlowMod} {barrierAfter : Bool} {h : List Deed}
    {r : Outcome Unit} (hs : Settles mods barrierAfter h r) :
    ∀ deed ∈ h, deed.effect.ofGroup = false := by
  have hsends (ps : List Promise) :
      ∀ deed ∈ Operation.sends (mods.map .flowMod) ps, deed.effect.ofGroup = false := by
    intro deed hin
    obtain ⟨m, hm, p, rfl⟩ := Operation.mem_sends hin
    obtain ⟨mod, -, rfl⟩ := List.mem_map.mp hm
    rfl
  cases hs with
  | alone _ => simp [Effect.ofGroup]
  | batch _ _ => exact List.forall_mem_append.mpr ⟨hsends _, by simp [Effect.ofGroup]⟩
  | closed _ => exact List.forall_mem_append.mpr ⟨hsends _, by simp [Effect.ofGroup]⟩

theorem Operation.does_sendFlowMods {mods : List FlowMod} {barrierAfter : Bool} {h : List Deed}
    {r : Outcome Unit} :
    (sendFlowMods mods barrierAfter).Does h r ↔ Settles mods barrierAfter h r := by
  rw [sendFlowMods, does_bind]
  constructor
  · rintro (⟨h₁, ps, h₂, rfl, hall, hwait⟩ | ⟨e, hall, -⟩)
    · obtain ⟨ps', hlength, rfl, hps⟩ := does_sendAll.mp hall
      cases hps
      rw [List.length_map] at hlength
      split at hwait
      · next p =>
          obtain ⟨mod, rfl⟩ := List.length_eq_one_iff.mp hlength.symm
          rcases does_bind.mp hwait with ⟨h₁, m, h₂, rfl, hreply, hpure⟩ | ⟨e, hreply, rfl⟩
          · obtain rfl := does_reply.mp hreply
            obtain ⟨rfl, rfl⟩ := does_pure.mp hpure
            exact .alone rfl
          · obtain rfl := does_reply.mp hreply
            exact .alone rfl
      · next hmany =>
          obtain ⟨results, closing, rfl, ⟨rfl, rfl⟩ | ⟨rfl, p, rfl⟩⟩ :=
            does_composeWithBarrier.mp hwait
          · refine .batch (fun hone => ?_) hlength
            obtain ⟨p, rfl⟩ := List.length_eq_one_iff.mp (hlength.trans hone)
            exact hmany p rfl rfl
          · exact .closed hlength
    · obtain ⟨ps, -, -, hps⟩ := does_sendAll.mp hall
      cases hps
  · intro hs
    cases hs with
    | @alone mod p result hmods =>
        subst hmods
        refine .inl ⟨[⟨.send (.flowMod mod), p⟩], [p], [⟨.await p, result⟩], rfl,
          does_sendAll.mpr ⟨[p], rfl, rfl, rfl⟩, does_bind.mpr ?_⟩
        cases result with
        | ok m => exact .inl ⟨_, m, [], rfl, does_reply.mpr rfl, does_pure.mpr ⟨rfl, rfl⟩⟩
        | error e => exact .inr ⟨e, does_reply.mpr rfl, rfl⟩
    | @batch ps results closing hmany hlength =>
        refine .inl ⟨_, ps, _, rfl, does_sendAll.mpr ⟨ps, by simpa using hlength, rfl, rfl⟩, ?_⟩
        split
        · next p hps =>
            exact absurd hlength.symm hmany
        · exact does_composeWithBarrier.mpr ⟨results, closing, rfl, .inl ⟨rfl, rfl⟩⟩
    | @closed ps p results closing hlength =>
        refine .inl ⟨_, ps, _, rfl, does_sendAll.mpr ⟨ps, by simpa using hlength, rfl, rfl⟩, ?_⟩
        split
        · next hfalse => cases hfalse
        · exact does_composeWithBarrier.mpr ⟨results, closing, rfl, .inr ⟨rfl, p, rfl⟩⟩

/-! ## The plan -/

/-- A change of a flow by a command, with the flow's restrictions and no buffered packet. -/
def FlowMod.by (command : FlowCommand) (f : Flow) : FlowMod where
  command
  flow := f
  bufferId := 0xffffffff
  outPort := f.outPort.getD 0xffffffff
  outGroup := f.outGroup.getD 0xffffffff

namespace Request

/-- Whether a request is to add, update or remove a flow. -/
def isFlow : Request → Bool
  | addFlow _ _ => true
  | updateFlow _ _ _ => true
  | removeFlow _ _ => true
  | _ => false

/-- The group that has to be on the device before the flow that a request installs. -/
def needs? : Request → Option GroupId
  | addFlow _ f => f.groupDependency
  | updateFlow _ _ updated => updated.groupDependency
  | _ => none

/-- The changes of flows that a request comes to: a flow is added as it is, changed in place
where nothing that tells it apart changes, and otherwise removed before the other is
added. -/
def changes : Request → List FlowMod
  | addFlow _ f => [.by .add f]
  | updateFlow _ old updated =>
    if old.table = updated.table ∧ old.priority = updated.priority ∧ old.fields = updated.fields ∧
        old.idleTimeout = updated.idleTimeout ∧ old.hardTimeout = updated.hardTimeout ∧
        old.flags = updated.flags ∧ old.cookie = updated.cookie then
      [.by .modifyStrict updated.toStrict]
    else [.by .deleteStrict old.toStrict, .by .add updated.toStrict]
  | removeFlow _ f => [.by .deleteStrict f.toStrict]
  | _ => []

/-- The messages that a request hands over, by what was found out about the group that it
needs. -/
def plan (rule : GroupExistsRule) (r : Request) (n : Finding) : List Message :=
  n.messages ++
    match n.outcome rule r.device with
    | .ok _ => r.changes.map .flowMod ++ if r.flowBarrier then [.barrierRequest] else []
    | .error _ => []

/-- The deeds in which a flow that is to be removed is noted as stale, whatever comes of
it. -/
inductive Marks (policy : OperationPolicy) : Request → List Deed → Prop where
  | noted {path : FlowPath} {f : Flow} {result : Outcome Unit} :
      policy.staleMarking = true →
      Marks policy (.removeFlow path f) [⟨.noteStale ⟨path, f.toStrict⟩, result⟩]
  | off {path : FlowPath} {f : Flow} :
      policy.staleMarking = false → Marks policy (.removeFlow path f) []
  | add (path : FlowPath) (f : Flow) : Marks policy (.addFlow path f) []
  | update (path : FlowPath) (old updated : Flow) : Marks policy (.updateFlow path old updated) []

/-- The deeds in which the change of a flow is recorded. -/
def recording : Request → List Deed
  | addFlow path f => [⟨.recordFlow f path.descriptor, ()⟩]
  | updateFlow path old updated =>
    [⟨.forgetFlow old.toStrict, ()⟩, ⟨.recordFlow updated.toStrict path.descriptor, ()⟩]
  | removeFlow _ f => [⟨.forgetFlow f.toStrict, ()⟩]
  | _ => []

/-- The descriptor of the flow that a request is about. -/
def descriptor? : Request → Option FlowDescriptor
  | addFlow path _ => some path.descriptor
  | updateFlow path _ _ => some path.descriptor
  | removeFlow path _ => some path.descriptor
  | _ => none

/-- All that a request on a flow does, in order, and its outcome, by what was found out about
the group that it needs. -/
inductive Story (policy : OperationPolicy) (r : Request) (n : Finding) :
    List Deed → Outcome Result → Prop where
  /-- The group cannot be had, and nothing more is done. -/
  | unresolved {cause : Failure} :
      n.outcome policy.rule r.device = .error cause →
      Story policy r n (n.deeds policy.rule) (.error cause)
  /-- The changes failed, and nothing is recorded. -/
  | failed {dependency : Dependency} {marks sent : List Deed} {cause : Failure} :
      n.outcome policy.rule r.device = .ok dependency → r.Marks policy marks →
      Settles r.changes r.flowBarrier sent (.error cause) →
      Story policy r n (n.deeds policy.rule ++ marks ++ sent) (.error cause)
  | done {dependency : Dependency} {marks sent : List Deed} {descriptor : FlowDescriptor} :
      n.outcome policy.rule r.device = .ok dependency → r.Marks policy marks →
      Settles r.changes r.flowBarrier sent (.ok ()) → r.descriptor? = some descriptor →
      Story policy r n (n.deeds policy.rule ++ marks ++ sent ++ r.recording)
        (.ok (.flow ⟨descriptor, dependency⟩))

variable {policy : OperationPolicy} {r : Request} {n : Finding} {h : List Deed}
  {o : Outcome Result}

/-- The changes of a request are those that the operation makes. -/
theorem flowMods_eq_changes (r : Request) : r.flowMods = r.changes := by
  cases r with
  | updateFlow path old updated =>
      simp only [flowMods, changes, FlowMod.updatePlan, Flow.canModify, decide_eq_true_eq]
      rfl
  | _ => rfl

theorem Marks.messagesOf (hm : r.Marks policy h) : messagesOf h = [] := by
  cases hm <;> rfl

theorem Marks.ofGroup (hm : r.Marks policy h) : ∀ deed ∈ h, deed.effect.ofGroup = false := by
  cases hm <;> simp [Effect.ofGroup]

theorem messagesOf_recording (r : Request) : messagesOf r.recording = [] := by
  cases r <;> rfl

theorem length_changes_le (r : Request) : r.changes.length ≤ 2 := by
  cases r with
  | updateFlow path old updated =>
      rw [changes]
      split <;> simp
  | _ => simp [changes]

theorem Marks.length_add_recording_le (hm : r.Marks policy h) :
    h.length + r.recording.length ≤ 2 := by
  cases hm <;> simp [recording]

/-- What a request hands over is its plan. -/
theorem Story.messagesOf_eq_plan (hs : r.Story policy n h o) : messagesOf h = r.plan policy.rule n := by
  cases hs with
  | unresolved hn =>
      rw [plan, hn, n.messagesOf_deeds, List.append_nil]
  | failed hn hm hsent =>
      rw [plan, hn, messagesOf_append, messagesOf_append, n.messagesOf_deeds, hm.messagesOf,
        hsent.messagesOf, List.append_nil]
  | done hn hm hsent _ =>
      rw [plan, hn, messagesOf_append, messagesOf_append, messagesOf_append, n.messagesOf_deeds,
        hm.messagesOf, hsent.messagesOf, r.messagesOf_recording, List.append_nil, List.append_nil]

/-- No story is longer than that of a flow that replaces another, for which a group is added and
a barrier is sent. -/
theorem Story.length_le (hs : r.Story policy n h o) : h.length ≤ 11 := by
  have hfound := n.length_deeds_le policy.rule
  have hchanges := r.length_changes_le
  cases hs with
  | unresolved _ => omega
  | failed _ hm hsent =>
      have hmarks := hm.length_add_recording_le
      have hsettled := hsent.length_le
      simp only [List.length_append]
      omega
  | done _ hm hsent _ =>
      have hmarks := hm.length_add_recording_le
      have hsettled := hsent.length_le
      simp only [List.length_append]
      omega

/-- First it is found out whether the group is there, and what follows is not about groups. -/
theorem Story.eq_deeds_append (hs : r.Story policy n h o) :
    ∃ rest, h = n.deeds policy.rule ++ rest ∧ ∀ deed ∈ rest, deed.effect.ofGroup = false := by
  have hrecording : ∀ deed ∈ r.recording, deed.effect.ofGroup = false := by
    cases r <;> simp [recording, Effect.ofGroup]
  cases hs with
  | unresolved _ => exact ⟨[], (List.append_nil _).symm, List.forall_mem_nil _⟩
  | @failed dependency marks sent cause _ hm hsent =>
      exact ⟨marks ++ sent, List.append_assoc ..,
        List.forall_mem_append.mpr ⟨hm.ofGroup, hsent.ofGroup⟩⟩
  | @done dependency marks sent descriptor _ hm hsent _ =>
      refine ⟨marks ++ sent ++ r.recording, by simp only [List.append_assoc], ?_⟩
      exact List.forall_mem_append.mpr
        ⟨List.forall_mem_append.mpr ⟨hm.ofGroup, hsent.ofGroup⟩, hrecording⟩

/-- A group is added only if it was found to be missing and is configured, and only once.  The
result is waited for next, and the group is recorded if it is there then.  No group is looked
up again. -/
theorem Story.of_push {before more : List Deed} {mod : GroupMod} {p : Promise}
    (hs : r.Story policy n (before ++ ⟨.send (.groupMod mod), p⟩ :: more) o) :
    ∃ g group result rest, n = .added g group p result ∧ mod = ⟨.add, group⟩ ∧
      before = [⟨.hasGroup g, false⟩, ⟨.readGroup g, .ok (some group)⟩] ∧
      more = ⟨.await p, result⟩ :: rest ∧ (∀ g' a, ⟨.readGroup g', a⟩ ∉ more) ∧
      ∀ existed, policy.rule.verdict result = .ok existed →
        ∃ rest', rest = ⟨.recordGroup group.id, ()⟩ :: rest' := by
  obtain ⟨rest, hh, hrest⟩ := hs.eq_deeds_append
  have hmem : (⟨.send (.groupMod mod), p⟩ : Deed) ∈ n.deeds policy.rule ++ rest :=
    hh ▸ List.mem_append_cons_self
  rw [List.mem_append] at hmem
  have hadded : ∃ g group p' result, n = .added g group p' result := by
    cases n with
    | added g group p' result => exact ⟨g, group, p', result, rfl⟩
    | _ =>
        have hdeeds := hmem.resolve_right fun hin => nomatch hrest _ hin
        simp [Finding.deeds] at hdeeds
  obtain ⟨g, group, p', result, rfl⟩ := hadded
  obtain ⟨tail, htail, hrecorded, hrecord⟩ : ∃ tail,
      (Finding.added g group p' result).deeds policy.rule ++ rest =
        ⟨.hasGroup g, false⟩ :: ⟨.readGroup g, .ok (some group)⟩ ::
          ⟨.send (.groupMod ⟨.add, group⟩), p'⟩ :: ⟨.await p', result⟩ :: tail ∧
      (∀ deed ∈ tail, deed.effect.ofGroup = true → deed.effect = .recordGroup group.id) ∧
      ∀ existed, policy.rule.verdict result = .ok existed →
        ∃ rest', tail = ⟨.recordGroup group.id, ()⟩ :: rest' := by
    have hnone (deed : Deed) (hin : deed ∈ rest) (hgroup : deed.effect.ofGroup = true) :
        deed.effect = .recordGroup group.id :=
      nomatch (hrest deed hin).symm.trans hgroup
    rw [Finding.deeds]
    cases policy.rule.verdict result with
    | ok existed =>
        exact ⟨⟨.recordGroup group.id, ()⟩ :: rest, rfl,
          List.forall_mem_cons.mpr ⟨fun _ => rfl, hnone⟩, fun _ _ => ⟨rest, rfl⟩⟩
    | error cause => exact ⟨rest, rfl, hnone, nofun⟩
  rw [htail] at hh
  -- The only deed that adds a group is the third.
  match before, hh with
  | [], hh => cases (List.cons.inj hh).1
  | [_], hh => cases (List.cons.inj (List.cons.inj hh).2).1
  | [_, _], hh =>
      obtain ⟨hfirst, hh⟩ := List.cons.inj hh
      obtain ⟨hsecond, hh⟩ := List.cons.inj hh
      obtain ⟨heq, hmore⟩ := List.cons.inj hh
      cases heq
      refine ⟨g, group, result, tail, rfl, rfl, by rw [hfirst, hsecond], hmore, fun g' a hin => ?_,
        hrecord⟩
      rw [hmore, List.mem_cons] at hin
      rcases hin with heq | hin
      · cases heq
      · cases hrecorded _ hin rfl
  | _ :: _ :: _ :: between, hh =>
      obtain ⟨-, hh⟩ := List.cons.inj (List.cons.inj (List.cons.inj hh).2).2
      have hin : (⟨.send (.groupMod mod), p⟩ : Deed) ∈ ⟨.await p', result⟩ :: tail :=
        hh ▸ List.mem_append_cons_self
      rcases List.mem_cons.mp hin with heq | hin
      · cases heq
      · cases hrecorded _ hin rfl

/-- A request on a flow that succeeds has made sure of the group. -/
theorem Story.of_ok {v : Result} (hs : r.Story policy n h (.ok v)) :
    ∃ descriptor dependency, n.outcome policy.rule r.device = .ok dependency ∧
      v = .flow ⟨descriptor, dependency⟩ := by
  cases hs with
  | done ho _ _ _ => exact ⟨_, _, ho, rfl⟩

/-- A flow is changed only after it was made sure of the group. -/
theorem Story.of_flowMod {before more : List Deed} {mod : FlowMod} {p : Promise}
    (hs : r.Story policy n (before ++ ⟨.send (.flowMod mod), p⟩ :: more) o) :
    ∃ dependency rest, n.outcome policy.rule r.device = .ok dependency ∧
      before = n.deeds policy.rule ++ rest := by
  have hnot : (⟨.send (.flowMod mod), p⟩ : Deed) ∉ n.deeds policy.rule := by
    intro hin
    have hmessage : .flowMod mod ∈ messagesOf (n.deeds policy.rule) :=
      List.mem_filterMap.mpr ⟨_, hin, rfl⟩
    rw [n.messagesOf_deeds] at hmessage
    cases n <;> simp [Finding.messages] at hmessage
  have hsplit {dependency : Dependency} {rest : List Deed}
      (ho : n.outcome policy.rule r.device = .ok dependency)
      (hh : before ++ ⟨.send (.flowMod mod), p⟩ :: more = n.deeds policy.rule ++ rest) :
      ∃ dependency rest, n.outcome policy.rule r.device = .ok dependency ∧
        before = n.deeds policy.rule ++ rest := by
    rcases List.append_eq_append_iff.mp hh with ⟨between, hdeeds, hrest⟩ | ⟨between, hbefore, -⟩
    · cases between with
      | nil => exact ⟨dependency, [], ho, by rw [hdeeds]; simp⟩
      | cons deed between =>
          cases hrest
          exact absurd (hdeeds ▸ List.mem_append_cons_self) hnot
    · exact ⟨dependency, between, ho, hbefore⟩
  generalize hh : before ++ ⟨.send (.flowMod mod), p⟩ :: more = h at hs
  cases hs with
  | unresolved _ => exact absurd (hh ▸ List.mem_append_cons_self) hnot
  | failed ho _ _ => exact hsplit ho (hh.trans (List.append_assoc ..))
  | done ho _ _ _ => exact hsplit ho (hh.trans (by rw [List.append_assoc, List.append_assoc]))

theorem isFlow_of_needs? {g : GroupId} (h : r.needs? = some g) : r.isFlow = true := by
  cases r with
  | addFlow path f => rfl
  | updateFlow path old updated => rfl
  | _ => cases h

end Request

/-! ## The operations -/

namespace Operation

variable {policy : OperationPolicy} {r : Request} {h : List Deed}

/-- Changes of flows are made, and then what was done is recorded. -/
theorem does_sendFlowMods_bind {mods : List FlowMod} {barrierAfter : Bool}
    {o : Operation FlowOutcome} {recording : List Deed} {v : FlowOutcome}
    (ho : ∀ h result, o.Does h result ↔ h = recording ∧ result = .ok v)
    {result : Outcome FlowOutcome} :
    (sendFlowMods mods barrierAfter >>= fun _ => o).Does h result ↔
      (∃ sent, Settles mods barrierAfter sent (.ok ()) ∧ h = sent ++ recording ∧ result = .ok v) ∨
        ∃ cause, Settles mods barrierAfter h (.error cause) ∧ result = .error cause := by
  simp only [does_bind, does_sendFlowMods, ho]
  constructor
  · rintro (⟨sent, ⟨⟩, h₂, rfl, hsent, rfl, rfl⟩ | hfailed)
    · exact .inl ⟨sent, hsent, rfl, rfl⟩
    · exact .inr hfailed
  · rintro (⟨sent, hsent, rfl, rfl⟩ | hfailed)
    · exact .inl ⟨sent, (), recording, rfl, hsent, rfl, rfl⟩
    · exact .inr hfailed

/-- A flow is installed when it was found out that its group is there. -/
theorem does_install {f : Flow} {o : Dependency → Operation FlowOutcome}
    {descriptor : FlowDescriptor} (hneeds : r.needs? = f.groupDependency)
    (hmarks : ∀ marks, r.Marks policy marks ↔ marks = [])
    (hdescriptor : r.descriptor? = some descriptor)
    (ho : ∀ dependency h result, (o dependency).Does h result ↔
      h = r.recording ∧ result = .ok ⟨descriptor, dependency⟩) {result : Outcome Result} :
    (Result.flow <$> (ensureGroup policy.rule r.device f >>= fun dependency =>
      sendFlowMods r.changes r.flowBarrier >>= fun _ => o dependency)).Does h result ↔
      ∃ n : Finding, n.group? = r.needs? ∧ r.Story policy n h result := by
  rw [does_map]
  constructor
  · rintro ⟨outcome, hdoes, rfl⟩
    rcases does_bind.mp hdoes with ⟨h₁, dependency, h₂, rfl, hfind, hchange⟩ | ⟨cause, hfind, rfl⟩
    · obtain ⟨n, hn, rfl, houtcome⟩ := does_ensureGroup.mp hfind
      have hnone := (hmarks []).mpr rfl
      refine ⟨n, hn.trans hneeds.symm, ?_⟩
      rcases (does_sendFlowMods_bind (ho dependency)).mp hchange with
        ⟨sent, hsent, rfl, rfl⟩ | ⟨cause, hsent, rfl⟩
      · have hstory := Request.Story.done houtcome.symm hnone hsent hdescriptor
        rw [List.append_nil, List.append_assoc] at hstory
        exact hstory
      · have hstory := Request.Story.failed houtcome.symm hnone hsent
        rw [List.append_nil] at hstory
        exact hstory
    · obtain ⟨n, hn, rfl, houtcome⟩ := does_ensureGroup.mp hfind
      exact ⟨n, hn.trans hneeds.symm, .unresolved houtcome.symm⟩
  · rintro ⟨n, hn, hstory⟩
    have hfind (dependency : Outcome Dependency)
        (houtcome : n.outcome policy.rule r.device = dependency) :
        (ensureGroup policy.rule r.device f).Does (n.deeds policy.rule) dependency :=
      does_ensureGroup.mpr ⟨n, hn.trans hneeds, rfl, houtcome.symm⟩
    cases hstory with
    | @unresolved cause houtcome =>
        exact ⟨.error cause, does_bind.mpr (.inr ⟨cause, hfind _ houtcome, rfl⟩), rfl⟩
    | @failed dependency marks sent cause houtcome hm hsent =>
        obtain rfl := (hmarks marks).mp hm
        rw [List.append_nil]
        refine ⟨.error cause, does_bind.mpr (.inl ⟨_, dependency, sent, rfl, hfind _ houtcome, ?_⟩),
          rfl⟩
        exact (does_sendFlowMods_bind (ho dependency)).mpr (.inr ⟨cause, hsent, rfl⟩)
    | @done dependency marks sent descriptor' houtcome hm hsent hdescriptor' =>
        obtain rfl := (hmarks marks).mp hm
        cases hdescriptor.symm.trans hdescriptor'
        rw [List.append_nil, List.append_assoc]
        refine ⟨.ok ⟨descriptor, dependency⟩, does_bind.mpr (.inl ⟨_, dependency, _, rfl,
          hfind _ houtcome, ?_⟩), rfl⟩
        exact (does_sendFlowMods_bind (ho dependency)).mpr (.inl ⟨sent, hsent, rfl, rfl⟩)

theorem does_addFlow {path : FlowPath} {f : Flow} {result : Outcome Result} :
    (Result.flow <$> addFlow policy path f).Does h result ↔
      ∃ n : Finding, n.group? = f.groupDependency ∧
        (Request.addFlow path f).Story policy n h result := by
  refine does_install (r := .addFlow path f) rfl (fun marks => ?_) rfl fun dependency h result => ?_
  · constructor
    · intro hm
      cases hm
      rfl
    · rintro rfl
      exact .add path f
  · rw [recordFlow, does_lift_bind]
    constructor
    · rintro ⟨⟨⟩, h', rfl, hpure⟩
      obtain ⟨rfl, rfl⟩ := does_pure.mp hpure
      exact ⟨rfl, rfl⟩
    · rintro ⟨rfl, rfl⟩
      exact ⟨(), [], rfl, does_pure.mpr ⟨rfl, rfl⟩⟩

theorem does_updateFlow {path : FlowPath} {old updated : Flow} {result : Outcome Result} :
    (Result.flow <$> updateFlow policy path old updated).Does h result ↔
      ∃ n : Finding, n.group? = updated.groupDependency ∧
        (Request.updateFlow path old updated).Story policy n h result := by
  have hmods := (Request.updateFlow path old updated).flowMods_eq_changes
  simp only [Request.flowMods] at hmods
  rw [updateFlow, hmods]
  refine does_install (r := .updateFlow path old updated) (f := updated.toStrict) rfl
    (fun marks => ?_) rfl fun dependency h result => ?_
  · constructor
    · intro hm
      cases hm
      rfl
    · rintro rfl
      exact .update path old updated
  · rw [forgetFlow, does_lift_bind]
    constructor
    · rintro ⟨⟨⟩, h', rfl, hrecord⟩
      obtain ⟨⟨⟩, h'', rfl, hpure⟩ := does_lift_bind.mp hrecord
      obtain ⟨rfl, rfl⟩ := does_pure.mp hpure
      exact ⟨rfl, rfl⟩
    · rintro ⟨rfl, rfl⟩
      exact ⟨(), _, rfl, does_lift_bind.mpr ⟨(), [], rfl, does_pure.mpr ⟨rfl, rfl⟩⟩⟩

theorem does_removeFlow {path : FlowPath} {f : Flow} {result : Outcome Result} :
    (Result.flow <$> removeFlow policy path f).Does h result ↔
      (Request.removeFlow path f).Story policy .independent h result := by
  -- What is done after the flow was noted as stale.
  have hrest (h : List Deed) (outcome : Outcome FlowOutcome) :
      (do
        sendFlowMods [.delete f.toStrict] f.barrier
        forgetFlow f.toStrict
        return ⟨path.descriptor, .noDependency⟩ : Operation FlowOutcome).Does h outcome ↔
      (∃ sent, Settles (Request.removeFlow path f).changes f.barrier sent (.ok ()) ∧
        h = sent ++ (Request.removeFlow path f).recording ∧
        outcome = .ok ⟨path.descriptor, .noDependency⟩) ∨
      ∃ cause, Settles (Request.removeFlow path f).changes f.barrier h (.error cause) ∧
        outcome = .error cause := by
    refine does_sendFlowMods_bind fun h result => ?_
    rw [forgetFlow, does_lift_bind]
    constructor
    · rintro ⟨⟨⟩, h', rfl, hpure⟩
      obtain ⟨rfl, rfl⟩ := does_pure.mp hpure
      exact ⟨rfl, rfl⟩
    · rintro ⟨rfl, rfl⟩
      exact ⟨(), [], rfl, does_pure.mpr ⟨rfl, rfl⟩⟩
  have hmarked (outcome : Outcome FlowOutcome) :
      (removeFlow policy path f).Does h outcome ↔
        ∃ marks h', h = marks ++ h' ∧ (Request.removeFlow path f).Marks policy marks ∧
          (do
            sendFlowMods [.delete f.toStrict] f.barrier
            forgetFlow f.toStrict
            return ⟨path.descriptor, .noDependency⟩ : Operation FlowOutcome).Does h' outcome := by
    rw [removeFlow]
    dsimp only
    split
    · next hmarking =>
        rw [noteStale, does_lift_bind]
        constructor
        · rintro ⟨a, h', rfl, hdoes⟩
          exact ⟨[⟨.noteStale _, a⟩], h', rfl, .noted hmarking, hdoes⟩
        · rintro ⟨marks, h', rfl, hm, hdoes⟩
          cases hm with
          | noted _ => exact ⟨_, h', rfl, hdoes⟩
          | off hoff => cases hmarking.symm.trans hoff
    · next hoff =>
        constructor
        · intro hdoes
          exact ⟨[], h, rfl, .off (Bool.eq_false_iff.mpr hoff), hdoes⟩
        · rintro ⟨marks, h', rfl, hm, hdoes⟩
          cases hm with
          | noted hmarking => exact absurd hmarking hoff
          | off _ => exact hdoes
  rw [does_map]
  constructor
  · rintro ⟨outcome, hdoes, rfl⟩
    obtain ⟨marks, h', rfl, hm, hdoes⟩ := (hmarked outcome).mp hdoes
    rcases (hrest h' outcome).mp hdoes with ⟨sent, hsent, rfl, rfl⟩ | ⟨cause, hsent, rfl⟩
    · have hstory := Request.Story.done (n := .independent) rfl hm hsent rfl
      rw [List.append_assoc] at hstory
      exact hstory
    · exact .failed (n := .independent) rfl hm hsent
  · intro hstory
    cases hstory with
    | unresolved houtcome => cases houtcome
    | @failed dependency marks sent cause houtcome hm hsent =>
        exact ⟨.error cause, (hmarked _).mpr ⟨marks, sent, rfl, hm,
          (hrest sent _).mpr (.inr ⟨cause, hsent, rfl⟩)⟩, rfl⟩
    | @done dependency marks sent descriptor houtcome hm hsent hdescriptor =>
        cases houtcome
        cases hdescriptor
        refine ⟨.ok ⟨path.descriptor, .noDependency⟩, (hmarked _).mpr ⟨marks, _, ?_, hm,
          (hrest _ _).mpr (.inl ⟨sent, hsent, rfl, rfl⟩)⟩, rfl⟩
        exact List.append_assoc ..

end Operation

/-- A request on a flow has a program. -/
theorem Request.exists_program {r : Request} (policy : OperationPolicy) (c : ConnectionId)
    (hr : r.isFlow = true) : ∃ p, r.work policy c = .operate c p := by
  cases r with
  | observe d f => cases hr
  | _ => exact ⟨_, rfl⟩

/-- What an operation on a flow does until it ends is one of the stories of its request. -/
theorem Request.work_comes_iff {policy : OperationPolicy} {r : Request} (hr : r.isFlow = true)
    {c c' : ConnectionId} {p : Program (Outcome Result)} (hwork : r.work policy c = .operate c' p)
    {h : List Deed} {o : Outcome Result} :
    p.Comes h (.done o) ↔ ∃ n : Finding, n.group? = r.needs? ∧ r.Story policy n h o := by
  cases r with
  | addFlow path f =>
      cases hwork
      exact Operation.does_addFlow
  | updateFlow path old updated =>
      cases hwork
      exact Operation.does_updateFlow
  | removeFlow path f =>
      cases hwork
      refine Operation.does_removeFlow.trans ⟨fun hstory => ⟨.independent, rfl, hstory⟩, ?_⟩
      rintro ⟨n, hn, hstory⟩
      cases n with
      | independent => exact hstory
      | _ => cases hn
  | _ => cases hr

end Southbound
