import Southbound.Proofs.Operation.Recording
import Southbound.Proofs.System.Pushes

/-!
# What requests leave recorded

What is recorded of a device may be left to one job for some time (`System.LeftTo`), for
example to the one that is being done while the device stays attached
(`System.leftTo_of_runs`).  Then the records after that time follow from those before it and
from the deeds of the job (`System.records_go`).

So a request to add, update or remove a flow that has failed leaves the flows of its device
as they were, and one that has succeeded leaves them rewritten.  It adds no group to those
that are known to be there but the one that it has had added to the device itself
(`System.flow_requests_leave_records`).
-/

namespace Southbound

namespace System

/-- A run in which nothing but one job changes what is recorded of a device. -/
def LeftTo (s : System) (d : DeviceId) (t : Ticket) : List Event → Prop
  | [] => True
  | e :: es =>
    (s.sourceOf? e ≠ some t → (s.after e).records d = s.records d) ∧ (s.after e).LeftTo d t es

/-- A job has had a group added to its device, and the device has confirmed it. -/
def HasAdded (s : System) (es : List Event) (t : Ticket) (g : GroupId) : Prop :=
  ∃ group p, group.id = g ∧ (⟨.send (.groupMod ⟨.add, group⟩), p⟩ : Deed) ∈ s.deedsIn t es ∧
    (s.go es).Confirmed p (.groupMod ⟨.add, group⟩)

/-- What a request on a flow has left recorded when it has its result, in a run that goes on
with some events after it was accepted. -/
structure Leaves (s : System) (es later : List Event) (t : Ticket) (r : Request)
    (result : Outcome Result) : Prop where
  /-- Of the groups at most the one that the flow needs is new, and it is exactly if the job
  has had it added and the device has confirmed that. -/
  groups : ∀ g, (s.go (es ++ later)).Has r.device (.group g) ↔
    (s.go es).Has r.device (.group g) ∨ r.needs? = some g ∧ s.HasAdded (es ++ later) t g
  /-- If it has failed, the flows are as they were. -/
  failed : ∀ cause, result = .error cause → (s.go (es ++ later)).pipeline.flows.device r.device =
    (s.go es).pipeline.flows.device r.device
  /-- If it has succeeded, the group of which it says that it was made sure is there, and the
  flows are as they were but for those that it is about. -/
  succeeded : ∀ v, result = .ok v → ∃ descriptor dependency,
    v = .flow ⟨descriptor, dependency⟩ ∧ r.descriptor? = some descriptor ∧
      dependency.group? = r.needs? ∧
      (∀ g, dependency.group? = some g → (s.go (es ++ later)).Has r.device (.group g)) ∧
      r.Rewrites s.pipeline.flows.key ((s.go es).pipeline.flows.device r.device)
        ((s.go (es ++ later)).pipeline.flows.device r.device)
  /-- The job changes nothing that is recorded of other devices. -/
  others : ∀ before e after, later = before ++ e :: after →
    (s.go (es ++ before)).sourceOf? e = some t → ∀ d, d ≠ r.device →
      (s.go (es ++ before ++ [e])).records d = (s.go (es ++ before)).records d

variable {s s' : System} {d : DeviceId} {c : ConnectionId} {e : Event} {l : LaneId}
  {lane : Lane Job} {t : Ticket} {r : Request} {g : GroupId} {es later : List Event}
  {p : Program (Outcome Result)} {deeds : List Deed} {broke : Prop}

theorem leftTo_concat : s.LeftTo d t (es ++ [e]) ↔ s.LeftTo d t es ∧
    ((s.go es).sourceOf? e ≠ some t → (s.go (es ++ [e])).records d = (s.go es).records d) := by
  induction es generalizing s with
  | nil => simp [LeftTo]
  | cons e' es ih =>
      rw [List.cons_append, LeftTo, LeftTo, ih, go_cons, go_cons, and_assoc]

theorem leftTo_of_append (h : s.LeftTo d t (es ++ later)) : s.LeftTo d t es := by
  induction es generalizing s with
  | nil => trivial
  | cons e es ih => exact ⟨h.1, ih h.2⟩

theorem has_group_iff : s.Has d (.group g) ↔ g ∈ (s.records d).1 := by
  rw [Has, GroupPresence.contains, List.contains_iff_mem, records]

/-! ## Records after a step -/

/-- How flows are told apart does not change. -/
theorem keyPolicy_after (hplain : s.Plain) (e : Event) :
    (s.after e).pipeline.flows.policy = s.pipeline.flows.policy := by
  have hstep := (step_after hplain e).1
  generalize s.after e = s' at hstep ⊢
  cases hstep with
  | quiet _ hp _ _ _ => rw [hp]
  | opened => rfl
  | submitted hsubmit _ _ _ =>
      obtain ⟨c, -, -, -, hp⟩ := submit_ok hsubmit
      rw [hp]
      rfl
  | attached _ _ _ hp _ _ _ => rw [hp]
  | detached _ _ _ hp _ _ _ =>
      rw [hp]
      rfl
  | closed hp _ _ _ => rw [hp]
  | started l => rfl
  | job hjob =>
      cases hjob with
      | answer _ _ hperform =>
          cases performed_of_answer hperform with
          | sent hsend => exact congrArg (·.flows.policy) (send_transported hsend).pipeline
          | _ => rfl
      | @observe lane t f _ _ =>
          show (s.pipeline.flows.observe lane.device f).2.policy = s.pipeline.flows.policy
          rw [FlowRegistry.observe]
          split <;> rfl
      | _ => rfl

/-- A deed changes what is recorded of its device in its own way. -/
theorem records_perform {q : Effect} {a : q.Answer} (h : s.perform d c q = .answer a s') :
    s'.records d = Deed.record s.pipeline.flows.key (s.records d) ⟨q, a⟩ := by
  cases performed_of_answer h with
  | sent hsend => exact records_of_pipeline (send_transported hsend).pipeline
  | recordedGroup g => exact Prod.ext (GroupPresence.groups_store_self ..) rfl
  | forgotGroup g => exact Prod.ext (GroupPresence.groups_remove_self ..) rfl
  | recordedFlow f descriptor => exact Prod.ext rfl (FlowRegistry.device_store_self ..)
  | forgotFlow f => exact Prod.ext rfl (FlowRegistry.device_remove_self ..)
  | _ => rfl

/-- When a job goes on, what is recorded of its device changes by its deed, and of no other
device does anything change. -/
theorem Tells.records_after (h : s.Tells d t c p deeds broke) (hwired : s.Wired)
    (he : s.sourceOf? e = some t) :
    (s.after e).records d =
        recordAll s.pipeline.flows.key (s.records d) (s.deedOf? t e).toList ∧
      ∀ d', d' ≠ d → (s.after e).records d' = s.records d' := by
  obtain ⟨l, lane, job, rfl, hl, hjob, rfl⟩ := sourceOf?_eq_some he
  obtain ⟨rfl, rest, hwork, -⟩ := h.jobs l lane hl job (Lane.mem_jobs.mpr (.inl hjob)) rfl
  obtain ⟨t, work⟩ := job
  cases hwork
  show (s.stepJob l).records lane.device = _ ∧ ∀ d', d' ≠ lane.device →
    (s.stepJob l).records d' = _
  cases rest with
  | done result =>
      have hdeed : s.deedOf? t (.stepJob l) = none := by simp [deedOf?, Event.lane?, hl, hjob]
      have hstep : s.stepJob l = s.finishJob l t result := by
        simp [System.stepJob, hl, hjob, stepProgram]
      rw [hstep, hdeed]
      exact ⟨rfl, fun _ _ => rfl⟩
  | step q next =>
      rcases stepJob_cases hwired hl hjob with
        ⟨a, s₁, hperform, hstep⟩ | ⟨hdeed, hstep⟩ | ⟨hdeed, -, -, hstep⟩
      · have hdeed : s.deedOf? t (.stepJob l) = some ⟨q, a⟩ := by
          simp [deedOf?, Event.lane?, hl, hjob, hperform]
        rw [hstep, hdeed]
        have hrecords (d' : DeviceId) :
            (s₁.suspendJob l ⟨t, .operate c (next a)⟩).records d' = s₁.records d' := rfl
        simp only [hrecords]
        exact ⟨records_perform hperform, fun d' hd' => records_perform_of_ne hperform hd'.symm⟩
      · rw [hstep, hdeed]
        exact ⟨rfl, fun _ _ => rfl⟩
      · rw [hstep, hdeed]
        exact ⟨rfl, fun _ _ => rfl⟩

/-! ## Records after a run -/

theorem runs_of_any (h : (s.pipeline.lanes.get? l).any (fun lane =>
    lane.device = d && lane.running.any (·.ticket = t)) = true) : s.Runs d t := by
  obtain ⟨lane, hl, hlane⟩ := (Option.any_eq_true ..).mp h
  obtain ⟨hd, hrunning⟩ := (Bool.and_eq_true ..).mp hlane
  obtain ⟨job, hjob, hticket⟩ := (Option.any_eq_true ..).mp hrunning
  exact ⟨l, lane, job, hl, of_decide_eq_true hd, hjob, of_decide_eq_true hticket⟩

/-- What was accepted in a run was accepted in every longer one. -/
theorem requestedIn_subset (hreq : (t, r) ∈ s.requestedIn es) (later : List Event) :
    (t, r) ∈ s.requestedIn (es ++ later) := by
  rw [requestedIn_append]
  exact List.mem_append_left _ hreq

section Runs

variable {config : Config} {s₀ : System} (hnew : System.new config = .ok s₀)
include hnew

theorem keyPolicy_go (es : List Event) :
    (s₀.go es).pipeline.flows.policy = s₀.pipeline.flows.policy := by
  induction es using List.reverseRecOn with
  | nil => rfl
  | append_singleton es e ih =>
      rw [go_concat, keyPolicy_after (plain_go (plain_new hnew) es), ih]

/-- How far the job of a request has come. -/
theorem exists_tells (hreq : (t, r) ∈ s₀.requestedIn es) :
    ∃ c broke, ∀ p, r.work s₀.pipeline.policy c = .operate c p →
      (s₀.go es).Tells r.device t c p (s₀.deedsIn t es) broke := by
  obtain ⟨es', quiet, later, rfl, ht⟩ := exists_submit hreq
  obtain ⟨c, -, htells⟩ := tells_go hnew ht later
  exact ⟨c, _, htells⟩

section Operating

variable (hreq : (t, r) ∈ s₀.requestedIn es)
  (hoperates : ∀ c, ∃ p, r.work s₀.pipeline.policy c = .operate c p)
include hreq hoperates

/-- A job that goes on changes only what is recorded of the device of its request. -/
theorem records_source (he : (s₀.go es).sourceOf? e = some t) :
    (s₀.go (es ++ [e])).records r.device =
        recordAll s₀.pipeline.flows.key ((s₀.go es).records r.device)
          ((s₀.go es).deedOf? t e).toList ∧
      ∀ d, d ≠ r.device → (s₀.go (es ++ [e])).records d = (s₀.go es).records d := by
  obtain ⟨c, broke, htells⟩ := exists_tells hnew hreq
  obtain ⟨p, hp⟩ := hoperates c
  have hrecords := (htells p hp).records_after ((served_new hnew).go es).wired he
  have hkey : (s₀.go es).pipeline.flows.key = s₀.pipeline.flows.key := by
    funext f
    rw [FlowRegistry.key, keyPolicy_go hnew es, FlowRegistry.key]
  rw [hkey] at hrecords
  rw [go_concat]
  exact hrecords

/-- What is recorded of a device that is left to a job changes by the deeds of the job. -/
theorem records_go (hleft : (s₀.go es).LeftTo r.device t later) :
    (s₀.go (es ++ later)).records r.device =
      recordAll s₀.pipeline.flows.key ((s₀.go es).records r.device)
        ((s₀.go es).deedsIn t later) := by
  induction later using List.reverseRecOn with
  | nil => rw [List.append_nil, deedsIn, recordAll_nil]
  | append_singleton later e ih =>
      obtain ⟨hbefore, he⟩ := leftTo_concat.mp hleft
      rw [deedsIn_concat, recordAll_append, ← ih hbefore, ← List.append_assoc, ← go_append]
      by_cases hsource : (s₀.go (es ++ later)).sourceOf? e = some t
      · exact (records_source hnew (requestedIn_subset hreq later) hoperates hsource).1
      · have hdeed : (s₀.go (es ++ later)).deedOf? t e = none := by
          cases hdeed : (s₀.go (es ++ later)).deedOf? t e with
          | none => rfl
          | some deed =>
              obtain ⟨l, lane, c, next, s', rfl, hl, hjob, -⟩ := deedOf?_eq_some hdeed
              exact absurd (by simp [sourceOf?, Event.lane?, hl, hjob]) hsource
        rw [hdeed]
        rw [← go_append, ← go_append, ← List.append_assoc] at he
        exact he hsource

end Operating

/-- While a device stays attached, what is recorded of it is left to the job that is being done,
until that has its result. -/
theorem leftTo_of_runs (hstays : s₀.StaysAttached d (es ++ later)) (hruns : (s₀.go es).Runs d t)
    (hunsettled : (s₀.go (es ++ later)).jobResult? t = none) (e : Event) :
    (s₀.go es).LeftTo d t (later ++ [e]) := by
  -- Another job that goes on finds the result of this one.
  have hstep (later : List Event) (e : Event) (hstays : s₀.StaysAttached d (es ++ later))
      (hunsettled : (s₀.go (es ++ later)).jobResult? t = none)
      (hsource : (s₀.go (es ++ later)).sourceOf? e ≠ some t) :
      ((s₀.go (es ++ later)).after e).records d = (s₀.go (es ++ later)).records d := by
    by_contra hne
    obtain ⟨l, lane, job, rfl, hl, hd, hjob, -⟩ :=
      exists_job_of_records_ne ((served_new hnew).go (es ++ later)) hne
    have hother : t ≠ job.ticket := by
      rintro rfl
      exact hsource (by simp [sourceOf?, Event.lane?, hl, hjob])
    have hsettled := settled_of_runs hnew hstays hruns ⟨l, lane, job, hl, hd, hjob, rfl⟩ hother
    rw [hunsettled] at hsettled
    cases hsettled
  have hlast := hstep later e hstays hunsettled
  rw [go_append] at hlast
  refine leftTo_concat.mpr ⟨?_, by rwa [go_concat]⟩
  clear hlast
  induction later using List.reverseRecOn generalizing e with
  | nil => trivial
  | append_singleton later e' ih =>
      rw [← List.append_assoc] at hstays hunsettled
      have hbefore : (s₀.go (es ++ later)).jobResult? t = none := by
        by_contra hsome
        have hlater := jobResult?_after (plain_go (plain_new hnew) (es ++ later)) e'
          (Option.isSome_iff_ne_none.mpr hsome)
        rw [← go_concat, hunsettled] at hlater
        cases hlater
      have hstays' := staysAttached_of_append hstays
      have hlast := hstep later e' hstays' hbefore
      rw [go_append] at hlast
      exact leftTo_concat.mpr ⟨ih hstays' hbefore e', by rwa [go_concat]⟩

/-- What a job has waited for is the result of that message. -/
theorem result?_of_await {p : Promise} {o : Outcome Message}
    (hawait : (⟨.await p, o⟩ : Deed) ∈ s₀.deedsIn t es) : (s₀.go es).result? p = some o := by
  obtain ⟨h, more, heq⟩ := List.append_of_mem hawait
  obtain ⟨es₁, e, es₂, rfl, -, hdeed⟩ := exists_of_deedsIn heq
  obtain ⟨l, lane, c, next, s', -, -, -, hperform⟩ := deedOf?_eq_some hdeed
  refine result?_go hnew ?_ (e :: es₂)
  cases performed_of_answer hperform with
  | awaited hresult => exact hresult

section Flows

variable (hreq : (t, r) ∈ s₀.requestedIn es) (hr : r.isFlow = true)
include hreq hr

/-- A group that a job has had added is one that its flow needs. -/
theorem needs?_of_send {group : Group} {p : Promise}
    (hsend : (⟨.send (.groupMod ⟨.add, group⟩), p⟩ : Deed) ∈ s₀.deedsIn t es) :
    r.needs? = some group.id := by
  obtain ⟨h, more, heq⟩ := List.append_of_mem hsend
  obtain ⟨es₁, e, es₂, rfl, -, hdeed⟩ := exists_of_deedsIn heq
  have hreq₁ := requested_of_deedOf? hnew hreq hdeed
  have hpushes : s₀.Pushes es₁ e r.device group t p :=
    ⟨⟨r, hreq₁, hr, rfl⟩, asked?_of_deedOf? hdeed⟩
  obtain ⟨r', hreq', -, -, hneeds, -⟩ := hpushes.looked hnew
  rw [eq_of_requested hnew hreq₁ hreq']
  exact hneeds

/-- The groups that are recorded when it was found out about the one that a flow needs are those
from before, and that one if the job has had it added. -/
theorem mem_recorded_iff {n : Finding} {o : Outcome Result}
    (hs : r.Story s₀.pipeline.policy n (s₀.deedsIn t es) o) (gs : List GroupId) :
    g ∈ n.recorded s₀.pipeline.policy.rule gs ↔
      g ∈ gs ∨ r.needs? = some g ∧ s₀.HasAdded es t g := by
  obtain ⟨rest, hdeeds, -⟩ := hs.eq_deeds_append
  constructor
  · intro hg
    cases n with
    | added g' group p result =>
        rw [Finding.recorded] at hg
        cases hv : s₀.pipeline.policy.rule.verdict result with
        | error cause =>
            rw [hv] at hg
            exact .inl hg
        | ok existed =>
            rw [hv, mem_insertGroup] at hg
            refine hg.symm.imp_right ?_
            rintro rfl
            rw [Finding.deeds] at hdeeds
            have hsend : (⟨.send (.groupMod ⟨.add, group⟩), p⟩ : Deed) ∈ s₀.deedsIn t es := by
              rw [hdeeds]
              simp
            have hawait : (⟨.await p, result⟩ : Deed) ∈ s₀.deedsIn t es := by
              rw [hdeeds]
              simp
            refine ⟨needs?_of_send hnew hreq hr hsend, group, p, rfl, hsend, result,
              result?_of_await hnew hawait, ?_⟩
            rw [policy_go hnew]
            exact GroupExistsRule.confirms_iff.mpr ⟨existed, hv⟩
    | _ => exact .inl hg
  · rintro (hg | ⟨-, group, p, rfl, hsend, o', ho', hconfirms⟩)
    · cases n with
      | added g' group p result =>
          rw [Finding.recorded]
          cases s₀.pipeline.policy.rule.verdict result with
          | error cause => exact hg
          | ok existed => exact mem_insertGroup.mpr (.inr hg)
      | _ => exact hg
    · obtain ⟨before, more, heq⟩ := List.append_of_mem hsend
      rw [heq] at hs
      obtain ⟨g', group', result, rest', rfl, hmod, -, rfl, -⟩ := hs.of_push
      cases hmod
      have hawait : (⟨.await p, result⟩ : Deed) ∈ s₀.deedsIn t es := by
        rw [heq]
        simp
      cases ho'.symm.trans (result?_of_await hnew hawait)
      rw [policy_go hnew] at hconfirms
      obtain ⟨existed, hv⟩ := GroupExistsRule.confirms_iff.mp hconfirms
      rw [Finding.recorded, hv]
      exact mem_insertGroup.mpr (.inl rfl)

/-- A request on a flow that has a result has done one of its stories, or the store broke off
while a group was looked up. -/
theorem story_or_brokenOff {result : Outcome Result}
    (hresult : (s₀.go es).jobResult? t = some result) :
    (∃ n, n.group? = r.needs? ∧ r.Story s₀.pipeline.policy n (s₀.deedsIn t es) result) ∨
      result = .error (.brokenOff r.device) ∧ ∃ g, s₀.deedsIn t es = [⟨.hasGroup g, false⟩] := by
  obtain ⟨n, more, o, hn, hs, hended⟩ := exists_story hnew hreq hr
  rcases hended result hresult with ⟨rfl, rfl⟩ | ⟨rfl, g, a, rest, rfl⟩
  · rw [List.append_nil] at hs
    exact .inl ⟨n, hn, hs⟩
  · exact .inr ⟨rfl, g, hs.of_read⟩

section Left

variable (hfresh : s₀.deedsIn t es = []) (hleft : (s₀.go es).LeftTo r.device t later)
include hfresh hleft

/-- The records of a device that is left to a job follow from those before its first deed. -/
theorem records_of_fresh : (s₀.go (es ++ later)).records r.device =
    recordAll s₀.pipeline.flows.key ((s₀.go es).records r.device)
      (s₀.deedsIn t (es ++ later)) := by
  rw [deedsIn_append, hfresh, List.nil_append]
  exact records_go hnew hreq (fun c => Request.exists_program _ c hr) hleft

/-- A group that a job finds to be there first was there before. -/
theorem has_of_hasGroup {more : List Deed}
    (hdeeds : s₀.deedsIn t (es ++ later) = ⟨.hasGroup g, true⟩ :: more) :
    (s₀.go es).Has r.device (.group g) := by
  rw [deedsIn_append, hfresh, List.nil_append] at hdeeds
  obtain ⟨before, e, after, rfl, hnone, hdeed⟩ := exists_of_deedsIn (h := []) hdeeds
  have hsame := records_go hnew hreq (fun c => Request.exists_program _ c hr)
    (leftTo_of_append hleft)
  rw [hnone, recordAll_nil] at hsame
  rw [← go_append] at hdeed
  have hhas := has_of_deedOf? hnew (requestedIn_subset hreq before) hr hdeed
  exact (has_congr hsame).mp hhas

variable {result : Outcome Result} (hresult : (s₀.go (es ++ later)).jobResult? t = some result)
include hresult

theorem has_group_after_iff : (s₀.go (es ++ later)).Has r.device (.group g) ↔
    (s₀.go es).Has r.device (.group g) ∨ r.needs? = some g ∧ s₀.HasAdded (es ++ later) t g := by
  have hreq' := requestedIn_subset hreq later
  have hrecords := records_of_fresh hnew hreq hr hfresh hleft
  rw [has_group_iff, has_group_iff]
  rcases story_or_brokenOff hnew hreq' hr hresult with ⟨n, -, hs⟩ | ⟨-, g', hdeeds⟩
  · rw [← mem_recorded_iff hnew hreq' hr hs, hrecords]
    cases result with
    | error cause => rw [hs.recordAll_of_error]
    | ok v => rw [(hs.recordAll_of_ok (fun _ => rfl) hr).1]
  · rw [hrecords, hdeeds]
    refine ⟨.inl, fun h => h.resolve_right ?_⟩
    rintro ⟨-, group, p, -, hsend, -⟩
    rw [hdeeds] at hsend
    simp at hsend

/-- A request on a flow that has failed leaves the flows as they were. -/
theorem flows_of_error {cause : Failure} (hcause : result = .error cause) :
    (s₀.go (es ++ later)).pipeline.flows.device r.device =
      (s₀.go es).pipeline.flows.device r.device := by
  have hreq' := requestedIn_subset hreq later
  have hrecords := congrArg Prod.snd (records_of_fresh hnew hreq hr hfresh hleft)
  refine hrecords.trans ?_
  rcases story_or_brokenOff hnew hreq' hr hresult with ⟨n, -, hs⟩ | ⟨-, g', hdeeds⟩
  · rw [hcause] at hs
    rw [hs.recordAll_of_error]
    rfl
  · rw [hdeeds]
    rfl

/-- A request on a flow that has succeeded has made sure of the group that the flow needs, and
has rewritten the flows. -/
theorem rewrites_of_ok {v : Result} (hv : result = .ok v) : ∃ descriptor dependency,
    v = .flow ⟨descriptor, dependency⟩ ∧ r.descriptor? = some descriptor ∧
      dependency.group? = r.needs? ∧
      (∀ g, dependency.group? = some g → (s₀.go (es ++ later)).Has r.device (.group g)) ∧
      r.Rewrites s₀.pipeline.flows.key ((s₀.go es).pipeline.flows.device r.device)
        ((s₀.go (es ++ later)).pipeline.flows.device r.device) := by
  have hreq' := requestedIn_subset hreq later
  have hrecords := records_of_fresh hnew hreq hr hfresh hleft
  rcases story_or_brokenOff hnew hreq' hr hresult with ⟨n, hn, hs⟩ | ⟨hbroken, -⟩
  · rw [hv] at hs
    have hkey (f : Flow) : s₀.pipeline.flows.key f.toStrict = s₀.pipeline.flows.key f := rfl
    obtain ⟨hgroups, hrewrites⟩ := hs.recordAll_of_ok (R := (s₀.go es).records r.device) hkey hr
    obtain ⟨rest, hdeeds, -⟩ := hs.eq_deeds_append
    rw [← hrecords] at hgroups hrewrites
    generalize s₀.deedsIn t (es ++ later) = deeds at hs
    cases hs with
    | @done dependency marks sent descriptor ho _ _ hdescriptor =>
        have hneeds := n.group?_of_outcome ho
        refine ⟨descriptor, dependency, rfl, hdescriptor, hneeds.trans hn, fun g hg => ?_, hrewrites⟩
        rcases Finding.eq_of_outcome (hneeds.symm.trans hg) ho with
          ⟨rfl, -⟩ | ⟨group, p, o, existed, rfl, hverdict, -⟩
        · have hhas := has_of_hasGroup hnew hreq hr hfresh hleft hdeeds
          exact (has_group_after_iff hnew hreq hr hfresh hleft hresult).mpr (.inl hhas)
        · have hsend : (⟨.send (.groupMod ⟨.add, group⟩), p⟩ : Deed) ∈
              s₀.deedsIn t (es ++ later) := by
            rw [hdeeds, Finding.deeds]
            simp
          have hid := needs?_of_send hnew hreq' hr hsend
          cases hid.symm.trans (hn.symm.trans (hneeds.symm.trans hg))
          rw [has_group_iff, hgroups, Finding.recorded, hverdict]
          exact mem_insertGroup.mpr (.inl rfl)
  · rw [hbroken] at hv
    cases hv

end Left

/-- What a request to add, update or remove a flow leaves recorded, in any run in which the
records of its device are left to its job. -/
theorem flow_requests_leave_records (hfresh : s₀.deedsIn t es = [])
    (hleft : (s₀.go es).LeftTo r.device t later) {result : Outcome Result}
    (hresult : (s₀.go (es ++ later)).jobResult? t = some result) :
    s₀.Leaves es later t r result where
  groups _ := has_group_after_iff hnew hreq hr hfresh hleft hresult
  failed _ := flows_of_error hnew hreq hr hfresh hleft hresult
  succeeded _ := rewrites_of_ok hnew hreq hr hfresh hleft hresult
  others before _ _ _ hsource := (records_source hnew (requestedIn_subset hreq before)
    (fun c => Request.exists_program _ c hr) hsource).2

end Flows

end Runs

/-! ## The addition of a flow is refused -/

namespace Refusal

/-- The device. -/
def device : DeviceId := ⟨"openflow:1"⟩

def path : FlowPath := ⟨device, ⟨0⟩, ⟨"f"⟩⟩

def old : Flow := { table := ⟨0⟩ }

/-- A flow of another priority, which hands packets to a group. -/
def updated : Flow where
  table := ⟨0⟩
  priority := 7
  instructions := [.applyActions [.group ⟨5⟩]]

def request : Request := .updateFlow path old updated

/-- The old flow is installed, and then its job is done in which it is to be replaced. -/
def begun : List Event :=
  [.openConnection device .judging 64, .attach 0, .putGroup device { id := ⟨5⟩ },
    .submit (.addFlow path old) false, .startJob 0, .stepJob 0, .receive 0 [0], .stepJob 0,
    .stepJob 0, .stepJob 0, .submit request false, .startJob 0]

/-- The group is added and the old flow removed, but the addition of the other is refused. -/
def work : List Event :=
  [.stepJob 0, .stepJob 0, .stepJob 0, .receive 0 [0, 0], .stepJob 0, .stepJob 0, .stepJob 0,
    .stepJob 0, .receive 0 [0, 0, 0], .receive 0 [0, 0, 0, 1], .stepJob 0]

end Refusal

theorem flow_requests_leave_records_of_refusal :
    ∃ s₀, System.new {} = .ok s₀ ∧ (1, Refusal.request) ∈ s₀.requestedIn Refusal.begun ∧
      Refusal.request.isFlow = true ∧ s₀.deedsIn 1 Refusal.begun = [] ∧
      (s₀.go Refusal.begun).LeftTo Refusal.device 1 (Refusal.work ++ [.stepJob 0]) ∧
      ((s₀.go (Refusal.begun ++ (Refusal.work ++ [.stepJob 0]))).jobResult? 1).any
        (fun result => result.toOption.isNone) = true ∧
      s₀.HasAdded (Refusal.begun ++ (Refusal.work ++ [.stepJob 0])) 1 ⟨5⟩ ∧
      (s₀.go (Refusal.begun ++ (Refusal.work ++ [.stepJob 0]))).Has Refusal.device
        (.group ⟨5⟩) ∧
      (s₀.go (Refusal.begun ++ (Refusal.work ++ [.stepJob 0]))).Has Refusal.device
        (.flow (Refusal.old.key {}) Refusal.path.descriptor) := by
  let s₀ := start
  have hnew : System.new {} = .ok s₀ := rfl
  have hreq : (1, Refusal.request) ∈ s₀.requestedIn Refusal.begun := by decide
  have hfresh : s₀.deedsIn 1 Refusal.begun = [] := by decide
  have hstays : s₀.StaysAttached Refusal.device (Refusal.begun ++ Refusal.work) := by decide
  have hruns : (s₀.go Refusal.begun).Runs Refusal.device 1 := runs_of_any (l := 0) (by decide)
  have hunsettled : (s₀.go (Refusal.begun ++ Refusal.work)).jobResult? 1 = none := by decide
  have hleft := leftTo_of_runs hnew hstays hruns hunsettled (.stepJob 0)
  have hfailed : ((s₀.go (Refusal.begun ++ (Refusal.work ++ [.stepJob 0]))).jobResult? 1).any
      (fun result => result.toOption.isNone) = true := by decide
  obtain ⟨result, hresult, herror⟩ := (Option.any_eq_true ..).mp hfailed
  have hleaves := flow_requests_leave_records hnew hreq rfl hfresh hleft hresult
  have hgroup : (s₀.go (Refusal.begun ++ (Refusal.work ++ [.stepJob 0]))).Has Refusal.device
      (.group ⟨5⟩) := by decide
  have hmissing : ¬(s₀.go Refusal.begun).Has Refusal.device (.group ⟨5⟩) := by decide
  have hflow : (s₀.go Refusal.begun).Has Refusal.device
      (.flow (Refusal.old.key {}) Refusal.path.descriptor) := by decide
  cases result with
  | ok v => cases herror
  | error cause =>
      refine ⟨s₀, hnew, hreq, rfl, hfresh, hleft, hfailed,
        (((hleaves.groups ⟨5⟩).mp hgroup).resolve_left hmissing).2, hgroup, ?_⟩
      exact (congrArg (fun flows : DeviceFlows => flows.byKey.get? (Refusal.old.key {}))
        (hleaves.failed cause rfl)).trans hflow

end System

end Southbound
