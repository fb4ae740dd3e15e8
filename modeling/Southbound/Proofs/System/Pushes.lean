import Southbound.Proofs.System.Deeds
import Southbound.Proofs.System.GroupFirst
import Southbound.Proofs.System.Presence
import Southbound.Proofs.System.TrailOrder

/-!
# Additions of groups that flows need

A flow that needs a group may have the group added first (`System.Pushes`).  Of two such
additions of one group, on a device that stays attached, the earlier has failed before the
later is handed over, or an operation has removed the group from those that are known to be
there (`System.failed_or_removed`).

The jobs of the device come one after another.  So the later job looks at the registry only
when the earlier one has its result (`System.settled_of_runs`), and by then the group is
recorded, unless its addition has failed.  What is recorded stays until an operation removes
it (`System.has_or_removed`).

Hence one addition is enough for all the flows that need the group, and it comes before them
on the wire (`System.wroteBefore_of_sent`).
-/

namespace Southbound

/-- That the device has a group is known only from an answer. -/
theorem GroupExistsRule.isAnswer_of_verdict {rule : GroupExistsRule} {o : Outcome Message}
    {existed : Bool} (h : rule.verdict o = .ok existed) : isAnswer o = true := by
  rw [verdict.eq_def] at h
  split at h
  · rfl
  · rfl
  · cases h

namespace System

/-- A job for a request on a flow hands over the addition of a group, since its device is not
known to have the group. -/
structure Pushes (s₀ : System) (es : List Event) (e : Event) (d : DeviceId) (group : Group)
    (t : Ticket) (p : Promise) : Prop where
  requested : ∃ r, (t, r) ∈ s₀.requestedIn es ∧ r.isFlow = true ∧ r.device = d
  asked : (s₀.go es).asked? e = some (t, p, .groupMod ⟨.add, group⟩)

/-- The addition of a group has failed. -/
def AdditionFailed (s : System) (p : Promise) : Prop :=
  ∃ o cause, s.result? p = some o ∧ s.pipeline.policy.rule.verdict o = .error cause

/-- The group that a job of a device forgets in an event. -/
def forgets? (s : System) (d : DeviceId) (e : Event) : Option GroupId :=
  (e.lane?.bind s.pipeline.lanes.get?).bind fun lane =>
    match lane.running with
    | some ⟨_, .operate _ (.step (.forgetGroup g) _)⟩ => if lane.device = d then some g else none
    | _ => none

/-- An operation removes a group from those that a device is known to have. -/
def Removes (s : System) (d : DeviceId) (g : GroupId) (e : Event) : Prop :=
  s.Has d (.group g) ∧ s.forgets? d e = some g

instance (s : System) (d : DeviceId) (g : GroupId) (e : Event) : Decidable (s.Removes d g e) :=
  inferInstanceAs (Decidable (_ ∧ _))

/-- A job of a device is being done. -/
def Runs (s : System) (d : DeviceId) (t : Ticket) : Prop :=
  ∃ l lane job, s.pipeline.lanes.get? l = some lane ∧ lane.device = d ∧
    lane.running = some job ∧ job.ticket = t

variable {s s' : System} {d : DeviceId} {c : ConnectionId} {e : Event} {l : LaneId}
  {lane : Lane Job} {t t₁ t₂ : Ticket} {p : Promise} {m : Message} {r r₁ r₂ : Request} {g : GroupId}
  {es es₁ es₂ : List Event} {o : Outcome Message}

/-- One event of a run comes after another, or it is the same, or it comes before. -/
theorem split_cases {before after : List Event} {e' : Event}
    (h : es₁ ++ e :: es₂ = before ++ e' :: after) :
    (∃ mid, before = es₁ ++ e :: mid ∧ es₂ = mid ++ e' :: after) ∨
      before = es₁ ∧ e' = e ∧ after = es₂ ∨
      ∃ mid, es₁ = before ++ e' :: mid ∧ after = mid ++ e :: es₂ := by
  rcases List.append_eq_append_iff.mp h with ⟨mid, rfl, hmid⟩ | ⟨mid, rfl, hmid⟩
  · cases mid with
    | nil =>
        cases hmid
        exact .inr (.inl ⟨List.append_nil _, rfl, rfl⟩)
    | cons e₀ mid =>
        cases hmid
        exact .inl ⟨mid, rfl, rfl⟩
  · cases mid with
    | nil =>
        cases hmid
        exact .inr (.inl ⟨(List.append_nil _).symm, rfl, rfl⟩)
    | cons e₀ mid =>
        cases hmid
        exact .inr (.inr ⟨mid, rfl, rfl⟩)

/-! ## Messages as deeds -/

theorem deedOf?_of_asked? (h : s.asked? e = some (t, p, m)) :
    s.deedOf? t e = some ⟨.send m, p⟩ := by
  obtain ⟨lane, hlane, hasked⟩ := Option.bind_eq_some_iff.mp h
  rw [deedOf?, hlane]
  simp only [Option.bind_some]
  split at hasked
  · next t' c m' next hjob =>
      obtain ⟨⟨p', s₁⟩, hsend, heq⟩ := Option.map_eq_some_iff.mp hasked
      cases heq
      simp [hjob, perform, hsend]
  · cases hasked

theorem asked?_of_deedOf? (h : s.deedOf? t e = some ⟨.send m, p⟩) :
    s.asked? e = some (t, p, m) := by
  obtain ⟨l, lane, c, next, s', rfl, hl, hjob, hperform⟩ := deedOf?_eq_some h
  cases performed_of_answer hperform with
  | sent hsend => simp [asked?, Event.lane?, hl, hjob, hsend]

/-- Only one job goes on in an event. -/
theorem eq_of_deedOf? {deed₁ deed₂ : Deed} (h₁ : s.deedOf? t₁ e = some deed₁)
    (h₂ : s.deedOf? t₂ e = some deed₂) : t₁ = t₂ := by
  obtain ⟨l, lane, c, next, s', rfl, hl, hjob, -⟩ := deedOf?_eq_some h₁
  obtain ⟨l', lane', c', next', s'', he, hl', hjob', -⟩ := deedOf?_eq_some h₂
  cases he
  cases hl.symm.trans hl'
  exact (Job.mk.inj (Option.some.inj (hjob.symm.trans hjob'))).1

/-! ## What was said in a run, in a longer one -/

theorem staysAttached_of_append (h : s.StaysAttached d (es₁ ++ es₂)) : s.StaysAttached d es₁ := by
  induction es₁ generalizing s with
  | nil => trivial
  | cons e es ih => exact ⟨h.1, ih h.2⟩

theorem requestedIn_append (s : System) (es₁ es₂ : List Event) :
    s.requestedIn (es₁ ++ es₂) = s.requestedIn es₁ ++ (s.go es₁).requestedIn es₂ := by
  induction es₁ generalizing s with
  | nil => rfl
  | cons e es ih => rw [List.cons_append, requestedIn, requestedIn, ih, go_cons, List.append_assoc]

theorem submittedIn_append (s : System) (d : DeviceId) (es₁ es₂ : List Event) :
    s.submittedIn d (es₁ ++ es₂) = s.submittedIn d es₁ ++ (s.go es₁).submittedIn d es₂ := by
  induction es₁ generalizing s with
  | nil => rfl
  | cons e es ih => rw [List.cons_append, submittedIn, submittedIn, ih, go_cons, List.append_assoc]

theorem deedsIn_append (s : System) (t : Ticket) (es₁ es₂ : List Event) :
    s.deedsIn t (es₁ ++ es₂) = s.deedsIn t es₁ ++ (s.go es₁).deedsIn t es₂ := by
  induction es₁ generalizing s with
  | nil => rfl
  | cons e es ih => rw [List.cons_append, deedsIn, deedsIn, ih, go_cons, List.append_assoc]

/-- A request that was accepted was asked for in one event. -/
theorem exists_submit (h : (t, r) ∈ s.requestedIn es) :
    ∃ es₁ quiet es₂, es = es₁ ++ .submit r quiet :: es₂ ∧
      (s.go es₁).accepted? r.device (.submit r quiet) = some t := by
  induction es generalizing s with
  | nil => cases h
  | cons e es ih =>
      rw [requestedIn, List.mem_append, Option.mem_toList] at h
      rcases h with hnow | hlater
      · cases e with
        | submit r' quiet =>
            obtain ⟨t', ht', heq⟩ := Option.map_eq_some_iff.mp hnow
            cases heq
            exact ⟨[], quiet, es, rfl, (if_pos rfl).trans ht'⟩
        | _ => cases hnow
      · obtain ⟨es₁, quiet, es₂, rfl, ht⟩ := ih hlater
        exact ⟨e :: es₁, quiet, es₂, rfl, ht⟩

/-! ## Groups that are removed -/

/-- A group that was present is present after an effect that does not forget it. -/
theorem has_group_kept {q : Effect} {a : q.Answer} (hperform : s.perform d c q = .answer a s')
    (hq : q ≠ .forgetGroup g) (h : s.Has d (.group g)) : s'.Has d (.group g) := by
  cases performed_of_answer hperform with
  | sent hsend => exact (has_congr (records_of_pipeline (send_transported hsend).pipeline)).mpr h
  | recordedGroup g' =>
      rw [Has, GroupPresence.contains, List.contains_iff_mem] at h ⊢
      rw [GroupPresence.groups_store_self, mem_insertGroup]
      exact .inr h
  | forgotGroup g' =>
      rw [Has, GroupPresence.contains, List.contains_iff_mem] at h ⊢
      rw [GroupPresence.groups_remove_self]
      refine List.mem_filter.mpr ⟨h, decide_eq_true ?_⟩
      rintro rfl
      exact hq rfl
  | _ => exact h

/-- A group that was present on a device with one lane is present after an event, unless an
operation removes it. -/
theorem has_after_or_removes (hserved : s.Served) (hsingle : s.pipeline.lanes.Single d)
    (h : s.Has d (.group g)) : (s.after e).Has d (.group g) ∨ s.Removes d g e := by
  by_contra hneither
  obtain ⟨hgone, hkept⟩ := not_or.mp hneither
  have hstep := deviceStep_after hserved.plain (hserved.session d).orderly e
  generalize s.after e = s' at hgone hstep
  have hsame (hrecords : s'.records d = s.records d) : False := hgone ((has_congr hrecords).mpr h)
  cases hstep with
  | aside _ hrecords _ _ => exact hsame hrecords
  | queued _ _ _ hrecords _ _ => exact hsame hrecords
  | detached _ _ _ _ hrecords _ _ => exact hsame hrecords
  | @worked _ l pre post lane lane' _ hl hbefore _ hwork _ _ =>
      have hlane : lane ∈ s.pipeline.lanes.ofDevice d := hbefore ▸ List.mem_append_cons_self
      have hd : lane.device = d := (Lanes.mem_ofDevice.mp hlane).2
      cases hwork with
      | started hrecords => exact hsame hrecords
      | finished _ hrecords _ => exact hsame hrecords
      | @answered t c q next a s₁ _ hjob hperform hrecords _ =>
          replace hgone : ¬s₁.Has d (.group g) := fun hhas => hgone ((has_congr hrecords).mpr hhas)
          by_cases hq : q = .forgetGroup g
          · subst hq
            exact hkept ⟨h, by simp [forgets?, Event.lane?, hl, hjob, hd]⟩
          · exact hgone (has_group_kept hperform hq h)
      | observed _ hrecords _ =>
          refine hgone ?_
          rw [Has, GroupPresence.contains_congr (Prod.mk.inj hrecords).1]
          exact h
      | cleared hjob _ _ =>
          -- The only lane of the device takes jobs, so it is not cleared.
          rcases hsingle with hnone | ⟨lane₀, hone, hopen⟩
          · rw [hnone] at hlane
            cases hlane
          · rw [hone, List.mem_singleton] at hlane
            subst hlane
            exact (hserved.session d).unclear lane (hone ▸ List.mem_singleton_self lane) hopen _
              (Lane.mem_jobs.mpr (.inl hjob)) rfl

/-- Every group stays configured under its own id. -/
theorem keyed_after (hplain : s.Plain) (h : Keyed s.store) (e : Event) :
    Keyed (s.after e).store := by
  have hstep := (step_after hplain e).1
  generalize s.after e = s' at hstep ⊢
  cases hstep with
  | quiet _ _ _ hst _ => exact h.configured hst
  | submitted _ _ hst _ => exact hst ▸ h
  | attached _ _ _ _ _ hst _ => exact hst ▸ h
  | detached _ _ _ _ _ hst _ => exact hst ▸ h
  | closed _ _ hst _ => exact hst ▸ h
  | job hjob =>
      cases hjob with
      | answer _ _ hperform => exact h.of_groups (perform_effects hperform).configured
      | _ => exact h
  | _ => exact h

/-! ## Runs -/

section Runs

variable {config : Config} {s₀ : System} (hnew : System.new config = .ok s₀)
include hnew

theorem keyed_go (es : List Event) : Keyed (s₀.go es).store := by
  induction es using List.reverseRecOn with
  | nil =>
      cases eq_of_new hnew
      exact nofun
  | append_singleton es e ih =>
      rw [go_concat]
      exact keyed_after (plain_go (plain_new hnew) es) ih e

theorem single_go (hstays : s₀.StaysAttached d es) : (s₀.go es).pipeline.lanes.Single d :=
  ((queued_new hnew d).go (plain_new hnew) es hstays).single

/-- A result that is known stays as it is. -/
theorem result?_go (h : (s₀.go es₁).result? p = some o) (es₂ : List Event) :
    (s₀.go (es₁ ++ es₂)).result? p = some o := by
  induction es₂ using List.reverseRecOn with
  | nil => rwa [List.append_nil]
  | append_singleton es₂ e ih =>
      have hserved := (served_new hnew).go (es₁ ++ es₂)
      rw [← List.append_assoc, go_concat]
      exact result?_after hserved.plain hserved.accounted e ih

theorem additionFailed_go (h : (s₀.go es₁).AdditionFailed p) (es₂ : List Event) :
    (s₀.go (es₁ ++ es₂)).AdditionFailed p := by
  obtain ⟨o, cause, ho, hcause⟩ := h
  refine ⟨o, cause, result?_go hnew ho es₂, ?_⟩
  rw [policy_go hnew] at hcause ⊢
  exact hcause

/-- A group that was present on a device that stays attached is present until an operation
removes it. -/
theorem has_or_removed (hstays : s₀.StaysAttached d (es₁ ++ es₂))
    (h : (s₀.go es₁).Has d (.group g)) : (s₀.go (es₁ ++ es₂)).Has d (.group g) ∨
      ∃ u e v, es₂ = u ++ e :: v ∧ (s₀.go (es₁ ++ u)).Removes d g e := by
  induction es₂ using List.reverseRecOn with
  | nil =>
      rw [List.append_nil]
      exact .inl h
  | append_singleton es₂ e ih =>
      rw [← List.append_assoc] at hstays ⊢
      have hstays' := staysAttached_of_append hstays
      rcases ih hstays' with hhas | ⟨u, e', v, rfl, hremoves⟩
      · rw [go_concat]
        have hserved := (served_new hnew).go (es₁ ++ es₂)
        refine (has_after_or_removes hserved (single_go hnew hstays') hhas).imp_right
          fun hremoves => ⟨es₂, e, [], rfl, hremoves⟩
      · exact .inr ⟨u, e', v ++ [e], by simp, hremoves⟩

/-- A group that is present was present before, or a job of the device has recorded it since. -/
theorem has_before_or_recorded (h : (s₀.go (es₁ ++ es₂)).Has d (.group g)) :
    (s₀.go es₁).Has d (.group g) ∨ ∃ u e v t, es₂ = u ++ e :: v ∧ (s₀.go (es₁ ++ u)).Runs d t ∧
      (s₀.go (es₁ ++ u)).deedOf? t e = some ⟨.recordGroup g, ()⟩ := by
  induction es₂ using List.reverseRecOn with
  | nil =>
      rw [List.append_nil] at h
      exact .inl h
  | append_singleton es₂ e ih =>
      rw [← List.append_assoc, go_concat] at h
      have hserved := (served_new hnew).go (es₁ ++ es₂)
      rcases has_group_after hserved h with hold | ⟨l, lane, t, c, next, rfl, hl, hd, hjob⟩
      · refine (ih hold).imp_right fun ⟨u, e', v, t, hes₂, hrest⟩ => ⟨u, e', v ++ [e], t, ?_, hrest⟩
        rw [hes₂, List.append_assoc, List.cons_append]
      · refine .inr ⟨es₂, .stepJob l, [], t, rfl, ⟨l, lane, _, hl, hd, hjob, rfl⟩, ?_⟩
        simp [deedOf?, Event.lane?, hl, hjob, perform]

/-! ## One job after another -/

/-- The jobs of a device are done in the order of their numbers. -/
theorem le_of_runs (hstays : s₀.StaysAttached d (es₁ ++ es₂)) (h₁ : (s₀.go es₁).Runs d t₁)
    (h₂ : (s₀.go (es₁ ++ es₂)).Runs d t₂) : t₁ ≤ t₂ := by
  have hplain := plain_new hnew
  have hbehind : t₁ < (s₀.go (es₁ ++ es₂)).pipeline.tickets ∧
      ∀ t ∈ (s₀.go (es₁ ++ es₂)).jobTickets d, t₁ ≤ t := by
    clear h₂
    induction es₂ using List.reverseRecOn with
    | nil =>
        rw [List.append_nil] at hstays ⊢
        obtain ⟨l, lane, job, hl, hd, hjob, rfl⟩ := h₁
        have hqueued := (queued_new hnew d).go hplain es₁ hstays
        refine ⟨(lasting_ascending_go hnew es₁ d).2.bounded _ ?_, hqueued.running_le hl hd hjob⟩
        rw [jobTickets_running hqueued.single hl hd hjob]
        exact .head _
    | append_singleton es₂ e ih =>
        rw [← List.append_assoc] at hstays ⊢
        obtain ⟨hstays', he⟩ := staysAttached_concat.mp hstays
        obtain ⟨hlt, hle⟩ := ih hstays'
        have hserved := (served_new hnew).go (es₁ ++ es₂)
        rw [go_concat] at he ⊢
        obtain ⟨-, hstep⟩ := queueStep_after hserved.plain (single_go hnew hstays') e he
        refine ⟨Nat.lt_of_lt_of_le hlt ?_, hstep.before hlt hle⟩
        exact (deviceStep_after hserved.plain (hserved.session d).orderly e).tickets_le
  obtain ⟨l, lane, job, hl, hd, hjob, rfl⟩ := h₂
  refine hbehind.2 _ ?_
  rw [jobTickets_running (single_go hnew hstays) hl hd hjob]
  exact .head _

/-- When a job of a device is being done, every other that was being done before it has its
result. -/
theorem settled_of_runs (hstays : s₀.StaysAttached d (es₁ ++ es₂)) (h₁ : (s₀.go es₁).Runs d t₁)
    (h₂ : (s₀.go (es₁ ++ es₂)).Runs d t₂) (hne : t₁ ≠ t₂) :
    ((s₀.go (es₁ ++ es₂)).jobResult? t₁).isSome := by
  have hlt := Nat.lt_of_le_of_ne (le_of_runs hnew hstays h₁ h₂) hne
  have hqueued (es : List Event) (hes : s₀.StaysAttached d es) :=
    (queued_new hnew d).go (plain_new hnew) es hes
  have hmem : t₁ ∈ s₀.submittedIn d es₁ := by
    have hstays' := staysAttached_of_append hstays
    obtain ⟨l, lane, job, hl, hd, hjob, rfl⟩ := h₁
    refine (hqueued es₁ hstays').queue.subset ?_
    rw [jobTickets_running (single_go hnew hstays') hl hd hjob]
    exact .head _
  obtain ⟨l, lane, job, hl, hd, hjob, rfl⟩ := h₂
  refine (hqueued _ hstays).settled_before hl hd hjob ?_ hlt
  rw [submittedIn_append]
  exact List.mem_append_left _ hmem

/-- A number is that of one request. -/
theorem eq_of_requested (h₁ : (t, r₁) ∈ s₀.requestedIn es) (h₂ : (t, r₂) ∈ s₀.requestedIn es) :
    r₁ = r₂ :=
  (Prod.mk.inj (List.inj_on_of_nodup_map (bookkept_go hnew es).unique h₁ h₂ rfl)).2

/-- A job does nothing before its request is accepted. -/
theorem requested_of_deedOf? {deed : Deed} (hreq : (t, r) ∈ s₀.requestedIn (es₁ ++ es₂))
    (h : (s₀.go es₁).deedOf? t e = some deed) : (t, r) ∈ s₀.requestedIn es₁ := by
  obtain ⟨l, lane, c, next, s', -, hl, hjob, -⟩ := deedOf?_eq_some h
  obtain ⟨r', hr', -⟩ := heeds_go hnew es₁ l lane hl _ (Lane.mem_jobs.mpr (.inl hjob)) c _ rfl
  have hlater : (t, r') ∈ s₀.requestedIn (es₁ ++ es₂) := by
    rw [requestedIn_append]
    exact List.mem_append_left _ hr'
  rw [eq_of_requested hnew hreq hlater]
  exact hr'

section Flows

variable (hreq₁ : (t₁, r₁) ∈ s₀.requestedIn es) (hflow₁ : r₁.isFlow = true)
include hreq₁ hflow₁

/-- A job that does something does it for the device of its request. -/
theorem deedOf?_for_device {deed : Deed} (h : (s₀.go es).deedOf? t₁ e = some deed) :
    ∃ l lane c next s', e = .stepJob l ∧ (s₀.go es).pipeline.lanes.get? l = some lane ∧
      lane.device = r₁.device ∧
      lane.running = some ⟨t₁, .operate c (.step deed.effect next)⟩ ∧
      (s₀.go es).perform r₁.device c deed.effect = .answer deed.answer s' := by
  obtain ⟨es', quiet, later, rfl, ht⟩ := exists_submit hreq₁
  obtain ⟨c, -, htells⟩ := tells_go hnew ht later
  obtain ⟨program, hprogram⟩ := Request.exists_program s₀.pipeline.policy c hflow₁
  obtain ⟨l, lane, c', next, s', he, hl, hjob, hperform⟩ := deedOf?_eq_some h
  obtain ⟨hd, -⟩ := (htells program hprogram).jobs l lane hl _ (Lane.mem_jobs.mpr (.inl hjob)) rfl
  exact ⟨l, lane, c', next, s', he, hl, hd, hjob, hd ▸ hperform⟩

theorem runs_of_deedOf? {deed : Deed} (h : (s₀.go es).deedOf? t₁ e = some deed) :
    (s₀.go es).Runs r₁.device t₁ := by
  obtain ⟨l, lane, c, next, s', -, hl, hd, hjob, -⟩ := deedOf?_for_device hnew hreq₁ hflow₁ h
  exact ⟨l, lane, _, hl, hd, hjob, rfl⟩

/-- A group is not present when a job finds it missing. -/
theorem not_has_of_deedOf? (h : (s₀.go es).deedOf? t₁ e = some ⟨.hasGroup g, false⟩) :
    ¬(s₀.go es).Has r₁.device (.group g) := by
  obtain ⟨l, lane, c, next, s', -, -, -, -, hperform⟩ := deedOf?_for_device hnew hreq₁ hflow₁ h
  generalize hanswer : false = a at hperform
  cases performed_of_answer hperform with
  | hadGroup g =>
      intro hhas
      cases hanswer.trans hhas

/-- A group is present when a job finds it there. -/
theorem has_of_deedOf? (h : (s₀.go es).deedOf? t₁ e = some ⟨.hasGroup g, true⟩) :
    (s₀.go es).Has r₁.device (.group g) := by
  obtain ⟨l, lane, c, next, s', -, -, -, -, hperform⟩ := deedOf?_for_device hnew hreq₁ hflow₁ h
  generalize hanswer : true = a at hperform
  cases performed_of_answer hperform with
  | hadGroup g => exact hanswer.symm

/-- What a request on a flow has done, and may yet do. -/
theorem exists_story : ∃ n more o, n.group? = r₁.needs? ∧
    r₁.Story s₀.pipeline.policy n (s₀.deedsIn t₁ es ++ more) o ∧
    ∀ result, (s₀.go es).jobResult? t₁ = some result → more = [] ∧ result = o ∨
      result = .error (.brokenOff r₁.device) ∧ ∃ g a rest, more = ⟨.readGroup g, a⟩ :: rest := by
  obtain ⟨es', quiet, later, rfl, ht⟩ := exists_submit hreq₁
  obtain ⟨n, more, o, hn, hs, hended⟩ := story_go hnew ht hflow₁ later
  exact ⟨n, more, o, hn, hs, fun result hresult =>
    (hended result hresult).imp_right fun ⟨h, hmore, _⟩ => ⟨h, hmore⟩⟩

end Flows

/-! ## Additions of groups -/

/-- A group is added right after it was found that the device is not known to have it, and
that it is configured. -/
theorem Pushes.looked {group : Group} (h : s₀.Pushes es e d group t p) :
    ∃ r, (t, r) ∈ s₀.requestedIn es ∧ r.isFlow = true ∧ r.device = d ∧
      r.needs? = some group.id ∧ s₀.deedsIn t es =
        [⟨.hasGroup group.id, false⟩, ⟨.readGroup group.id, .ok (some group)⟩] := by
  obtain ⟨r, hreq, hflow, hd⟩ := h.requested
  have hreq' : (t, r) ∈ s₀.requestedIn (es ++ [e]) := by
    rw [requestedIn_append]
    exact List.mem_append_left _ hreq
  obtain ⟨n, more, o, hn, hs, -⟩ := exists_story hnew hreq' hflow
  rw [deedsIn_concat, deedOf?_of_asked? h.asked, Option.toList_some, List.append_assoc] at hs
  obtain ⟨g, group', answer, rest, rfl, heq, hdeeds, -⟩ := hs.of_push
  cases heq
  -- The group was read under its own id.
  obtain ⟨before, e', later, -, -, hread⟩ := exists_of_deedsIn (h := [⟨.hasGroup g, false⟩]) hdeeds
  obtain ⟨l, lane, c, next, s', -, -, -, hperform⟩ := deedOf?_eq_some hread
  have hid : group.id = g := by
    generalize hanswer : (Except.ok (some group) : Outcome (Option Group)) = a at hperform
    cases performed_of_answer hperform with
    | readGroup hread => exact (keyed_go hnew before).readGroup (hanswer ▸ hread)
  subst hid
  exact ⟨r, hreq, hflow, hd, hn.symm, hdeeds⟩

/-- A job of the device was not known to have the group when its addition is handed over: since
the job has looked, no other job was done. -/
theorem Pushes.missing {group : Group} (hstays : s₀.StaysAttached d es)
    (h : s₀.Pushes es e d group t p) : ¬(s₀.go es).Has d (.group group.id) := by
  obtain ⟨r, hreq, hflow, rfl, -, hdeeds⟩ := h.looked hnew
  have hruns := runs_of_deedOf? hnew hreq hflow (deedOf?_of_asked? h.asked)
  obtain ⟨before, e', after, rfl, -, hlooked⟩ := exists_of_deedsIn (h := []) hdeeds
  have hreq' := requested_of_deedOf? hnew hreq hlooked
  have hmissing := not_has_of_deedOf? hnew hreq' hflow hlooked
  intro hhas
  obtain ⟨u, e₁, v, t', hsplit, hruns', hrecord⟩ :=
    (has_before_or_recorded hnew hhas).resolve_left hmissing
  rw [hsplit] at hstays hruns hdeeds
  have hruns₀ := runs_of_deedOf? hnew hreq' hflow hlooked
  rw [← List.append_assoc] at hstays hruns hdeeds
  have hle := le_of_runs hnew (staysAttached_of_append hstays) hruns₀ hruns'
  obtain rfl := Nat.le_antisymm hle (le_of_runs hnew hstays hruns' hruns)
  have hmem : ⟨.recordGroup group.id, ()⟩ ∈ s₀.deedsIn t ((before ++ u) ++ e₁ :: v) := by
    rw [deedsIn_append, deedsIn, hrecord]
    simp
  rw [hdeeds] at hmem
  simp at hmem

/-- When the job that has handed over the addition of a group has its result, the addition has
failed, or the group was recorded in between. -/
theorem Pushes.failed_or_recorded {group : Group} (h : s₀.Pushes es e d group t p)
    (hdone : ((s₀.go (es ++ e :: es₂)).jobResult? t).isSome) :
    (s₀.go (es ++ e :: es₂)).AdditionFailed p ∨ ∃ u e' v, es₂ = u ++ e' :: v ∧
      (s₀.go (es ++ e :: (u ++ [e']))).Has d (.group group.id) := by
  obtain ⟨r, hreq, hflow, rfl⟩ := h.requested
  have hreq₂ : (t, r) ∈ s₀.requestedIn (es ++ e :: es₂) := by
    rw [requestedIn_append]
    exact List.mem_append_left _ hreq
  obtain ⟨n, more, o, -, hs, hended⟩ := exists_story hnew hreq₂ hflow
  have hpush := deedOf?_of_asked? h.asked
  rw [deedsIn_append, deedsIn, hpush, Option.toList_some, List.append_assoc, List.append_assoc,
    List.singleton_append] at hs
  obtain ⟨g, group', answer, rest, -, heq, -, hrest, hnoread, hrecord⟩ := hs.of_push
  cases heq
  obtain ⟨result, hresult⟩ := Option.isSome_iff_exists.mp hdone
  have hmore : more = [] := by
    rcases hended result hresult with ⟨hmore, -⟩ | ⟨-, g', a, rest', rfl⟩
    · exact hmore
    · exact absurd (List.mem_append_cons_self) (hnoread g' a)
  rw [hmore, List.append_nil] at hrest
  -- Whatever was done since was done in one of the events.
  have hwhen (before : List Deed) {deed : Deed} {later : List Deed}
      (hdeeds : (s₀.go (es ++ [e])).deedsIn t es₂ = before ++ deed :: later) :
      ∃ u e' v, es₂ = u ++ e' :: v ∧ (s₀.go (es ++ e :: u)).deedOf? t e' = some deed := by
    obtain ⟨u, e', v, rfl, -, hdeed⟩ := exists_of_deedsIn hdeeds
    rw [← go_append, List.append_assoc, List.singleton_append] at hdeed
    exact ⟨u, e', v, rfl, hdeed⟩
  rw [← go_concat] at hrest
  cases hv : s₀.pipeline.policy.rule.verdict answer with
  | error cause =>
      left
      obtain ⟨u, e', v, rfl, hdeed⟩ := hwhen [] hrest
      obtain ⟨l, lane, c, next, s', -, -, -, hperform⟩ := deedOf?_eq_some hdeed
      cases performed_of_answer hperform with
      | awaited hknown =>
          refine ⟨answer, cause, ?_, by rw [policy_go hnew]; exact hv⟩
          have hlater := result?_go hnew hknown (e' :: v)
          rwa [List.append_assoc, List.cons_append] at hlater
  | ok existed =>
      right
      obtain ⟨rest', rfl⟩ := hrecord existed hv
      obtain ⟨u, e', v, rfl, hdeed⟩ := hwhen [⟨.await p, answer⟩] hrest
      have hrequested : (t, r) ∈ s₀.requestedIn (es ++ e :: u) := by
        rw [requestedIn_append]
        exact List.mem_append_left _ hreq
      obtain ⟨l, lane, c, next, s', rfl, hl, hd, hjob, -⟩ :=
        deedOf?_for_device hnew hrequested hflow hdeed
      refine ⟨u, .stepJob l, v, rfl, ?_⟩
      rw [← List.cons_append, ← List.append_assoc, go_concat, ← hd]
      exact has_of_recordGroup hl hjob

/-- Of two additions of a group that flows need, on a device that stays attached, the earlier
has failed before the later is handed over, or an operation has removed the group in
between. -/
theorem failed_or_removed {group₁ group₂ : Group} {e₁ e₂ : Event} {p₁ p₂ : Promise}
    (hstays : s₀.StaysAttached d (es₁ ++ e₁ :: es₂)) (h₁ : s₀.Pushes es₁ e₁ d group₁ t₁ p₁)
    (h₂ : s₀.Pushes (es₁ ++ e₁ :: es₂) e₂ d group₂ t₂ p₂) (hgroup : group₂.id = group₁.id) :
    (s₀.go (es₁ ++ e₁ :: es₂)).AdditionFailed p₁ ∨
      ∃ u e v, es₂ = u ++ e :: v ∧ (s₀.go (es₁ ++ e₁ :: u)).Removes d group₁.id e := by
  obtain ⟨r₁, hreq₁, hflow₁, hd₁, -, hdeeds₁⟩ := h₁.looked hnew
  obtain ⟨r₂, hreq₂, hflow₂, hd₂, -, hdeeds₂⟩ := h₂.looked hnew
  have hpush₁ := deedOf?_of_asked? h₁.asked
  have hruns₁ := hd₁ ▸ runs_of_deedOf? hnew hreq₁ hflow₁ hpush₁
  have hruns₂ := hd₂ ▸ runs_of_deedOf? hnew hreq₂ hflow₂ (deedOf?_of_asked? h₂.asked)
  have hne : t₁ ≠ t₂ := by
    rintro rfl
    rw [deedsIn_append, hdeeds₁, deedsIn, hpush₁] at hdeeds₂
    simp at hdeeds₂
  -- The later job has looked at the registry, and the group was not there.
  obtain ⟨before, e', after, hsplit, -, hlooked⟩ := exists_of_deedsIn (h := []) hdeeds₂
  have hreq' : (t₂, r₂) ∈ s₀.requestedIn before :=
    requested_of_deedOf? hnew (hsplit ▸ hreq₂) hlooked
  have hruns' := hd₂ ▸ runs_of_deedOf? hnew hreq' hflow₂ hlooked
  have hmissing := hgroup ▸ hd₂ ▸ not_has_of_deedOf? hnew hreq' hflow₂ hlooked
  rcases split_cases hsplit with ⟨mid, rfl, rfl⟩ | ⟨rfl, rfl, -⟩ | ⟨mid, rfl, -⟩
  · -- By then the earlier job had its result.
    rw [← List.cons_append, ← List.append_assoc] at hstays ⊢
    have hresult := settled_of_runs hnew (staysAttached_of_append hstays) hruns₁ hruns' hne
    rcases h₁.failed_or_recorded hnew hresult with hfailed | ⟨u, e'', v, rfl, hhas⟩
    · exact .inl (additionFailed_go hnew hfailed _)
    · have hstays' := staysAttached_of_append hstays
      have hrun : es₁ ++ e₁ :: (u ++ e'' :: v) = (es₁ ++ e₁ :: (u ++ [e''])) ++ v := by simp
      rw [hrun] at hstays' hmissing
      obtain ⟨u', e, v', rfl, hremoves⟩ := (has_or_removed hnew hstays' hhas).resolve_left hmissing
      refine .inr ⟨u ++ e'' :: u', e, v' ++ e' :: after, by simp, ?_⟩
      simpa using hremoves
  · exact absurd (eq_of_deedOf? hpush₁ hlooked) hne
  · have hle := le_of_runs hnew (staysAttached_of_append hstays) hruns' hruns₁
    exact absurd (Nat.le_antisymm (le_of_runs hnew hstays hruns₁ hruns₂) hle) hne

/-! ## An addition that the device has confirmed -/

section Confirmed

variable {group : Group} {e₁ : Event} {later : List Event} {existed : Bool}
  (ho : (s₀.go (es₁ ++ e₁ :: later)).result? p = some o)
  (hv : s₀.pipeline.policy.rule.verdict o = .ok existed)
include ho hv

/-- An addition that has failed at some time is another one. -/
theorem not_additionFailed (hes : es₁ ++ e₁ :: later = es ++ es₂) :
    ¬(s₀.go es).AdditionFailed p := by
  intro hfailed
  obtain ⟨o', cause, ho', hcause⟩ := additionFailed_go hnew hfailed es₂
  rw [← hes] at ho' hcause
  cases ho.symm.trans ho'
  rw [policy_go hnew, hv] at hcause
  cases hcause

variable (hstays : s₀.StaysAttached d (es₁ ++ e₁ :: later)) (hpush : s₀.Pushes es₁ e₁ d group t p)
  (hkept : ∀ es e' later', es₁ ++ e₁ :: later = es ++ e' :: later' →
    ¬(s₀.go es).Removes d group.id e')
include hstays hpush hkept

/-- Every other addition of the group came before, and has failed by then. -/
theorem push_eq_or_failed {group' : Group} {e' : Event} {later' : List Event} {t' : Ticket}
    {p' : Promise} (hes : es₁ ++ e₁ :: later = es ++ e' :: later')
    (hpush' : s₀.Pushes es e' d group' t' p') (hgroup : group'.id = group.id) :
    es = es₁ ∧ e' = e₁ ∧ t' = t ∧ p' = p ∨
      (∃ mid, es₁ = es ++ e' :: mid) ∧ (s₀.go es₁).AdditionFailed p' := by
  rcases split_cases hes with ⟨mid, rfl, rfl⟩ | ⟨rfl, rfl, -⟩ | ⟨mid, rfl, -⟩
  · have hstays' : s₀.StaysAttached d (es₁ ++ e₁ :: mid) := by
      rw [← List.cons_append, ← List.append_assoc] at hstays
      exact staysAttached_of_append hstays
    rcases failed_or_removed hnew hstays' hpush hpush' hgroup with
      hfailed | ⟨u, e, v, rfl, hremoves⟩
    · exact absurd hfailed (not_additionFailed hnew ho hv hes)
    · exact absurd hremoves (hkept _ e (v ++ e' :: later') (by simp))
  · have hdeed := deedOf?_of_asked? hpush.asked
    have hdeed' := deedOf?_of_asked? hpush'.asked
    obtain rfl := eq_of_deedOf? hdeed hdeed'
    cases hdeed.symm.trans hdeed'
    exact .inl ⟨rfl, rfl, rfl, rfl⟩
  · refine .inr ⟨⟨mid, rfl⟩, ?_⟩
    have hapart := failed_or_removed hnew (staysAttached_of_append hstays) hpush' hpush hgroup.symm
    refine hapart.resolve_right ?_
    rintro ⟨u, e, v, rfl, hremoves⟩
    rw [hgroup] at hremoves
    exact hkept _ e (v ++ e₁ :: later) (by simp) hremoves

/-- Whatever request made sure of the group did so when the addition was handed over: the job
that had handed it over by its result, and every other by the registry. -/
theorem resolved_after {t' : Ticket} (hes : es₁ ++ e₁ :: later = es ++ es₂)
    (hreq : (t', r) ∈ s₀.requestedIn es) (hflow : r.isFlow = true) (hd : r.device = d) {n : Finding}
    {rest : List Deed} (hdeeds : s₀.deedsIn t' es = n.deeds s₀.pipeline.policy.rule ++ rest)
    (hn : n.group? = some group.id) {dependency : Dependency}
    (houtcome : n.outcome s₀.pipeline.policy.rule r.device = .ok dependency) :
    (∃ mid, es = es₁ ++ e₁ :: mid) ∧ dependency =
      if t' = t then if existed then .alreadyPresent group.id else .pushed group.id
      else .present group.id := by
  subst hd
  have hlooked := hpush.looked hnew
  rcases n.eq_of_outcome hn houtcome with ⟨rfl, rfl⟩ |
    ⟨group', p', result, existed', rfl, hv', rfl⟩
  · obtain ⟨before, e', after, rfl, -, hdeed⟩ := exists_of_deedsIn (h := []) hdeeds
    have hreq' := requested_of_deedOf? hnew hreq hdeed
    have hhas := has_of_deedOf? hnew hreq' hflow hdeed
    rw [List.append_assoc, List.cons_append] at hes
    rcases split_cases hes with ⟨mid, rfl, -⟩ | ⟨rfl, rfl, -⟩ | ⟨mid, rfl, -⟩
    · refine ⟨⟨mid ++ e' :: after, by simp⟩, (if_neg ?_).symm⟩
      rintro rfl
      obtain ⟨-, -, -, -, -, hfirst⟩ := hlooked
      rw [List.append_assoc, deedsIn_append, hfirst] at hdeeds
      cases (List.cons.inj hdeeds).1
    · have hdeed' := deedOf?_of_asked? hpush.asked
      obtain rfl := eq_of_deedOf? hdeed' hdeed
      cases hdeed'.symm.trans hdeed
    · have hstays' := staysAttached_of_append hstays
      rcases has_or_removed hnew hstays' hhas with hlater | ⟨u, e, v, hsplit, hremoves⟩
      · exact absurd hlater (hpush.missing hnew hstays')
      · refine absurd hremoves (hkept _ e (v ++ e₁ :: later) ?_)
        rw [hsplit]
        simp
  · obtain ⟨before, e', after, rfl, hbefore, hdeed⟩ :=
      exists_of_deedsIn (h := [⟨.hasGroup group.id, false⟩,
        ⟨.readGroup group.id, .ok (some group')⟩]) hdeeds
    have hpush' : s₀.Pushes before e' r.device group' t' p' :=
      ⟨⟨r, requested_of_deedOf? hnew hreq hdeed, hflow, rfl⟩, asked?_of_deedOf? hdeed⟩
    have hid : group'.id = group.id := by
      obtain ⟨-, -, -, -, -, hlooked'⟩ := hpush'.looked hnew
      have hfirst := (List.cons.inj (hlooked'.symm.trans hbefore)).1
      exact Effect.hasGroup.inj (congrArg Deed.effect hfirst)
    have hknown : (s₀.go (es₁ ++ e₁ :: later)).result? p' = some result := by
      obtain ⟨before', e'', after', hsplit, -, hanswer⟩ :=
        exists_of_deedsIn (h := [⟨.hasGroup group.id, false⟩,
          ⟨.readGroup group.id, .ok (some group')⟩, ⟨.send (.groupMod ⟨.add, group'⟩), p'⟩]) hdeeds
      obtain ⟨l, lane, c, next, s', -, -, -, hperform⟩ := deedOf?_eq_some hanswer
      rw [hes, hsplit, List.append_assoc]
      cases performed_of_answer hperform with
      | awaited hknown => exact result?_go hnew hknown _
    rw [List.append_assoc, List.cons_append] at hes
    rcases push_eq_or_failed hnew ho hv hstays hpush hkept hes hpush' hid with
      ⟨rfl, rfl, rfl, rfl⟩ | ⟨-, hfailed⟩
    · refine ⟨⟨after, rfl⟩, ?_⟩
      cases ho.symm.trans hknown
      cases hv.symm.trans hv'
      rw [if_pos rfl]
    · exact absurd hfailed (not_additionFailed hnew hknown hv' rfl)

/-- A request that needs the group and has succeeded says how it was made sure of. -/
theorem reported_of_success {t' : Ticket}
    (hreq : (t', r) ∈ s₀.requestedIn (es₁ ++ e₁ :: later)) (hd : r.device = d)
    (hneeds : r.needs? = some group.id) {v : Result}
    (hresult : (s₀.go (es₁ ++ e₁ :: later)).jobResult? t' = some (.ok v)) :
    ∃ descriptor, v = .flow ⟨descriptor,
      if t' = t then if existed then .alreadyPresent group.id else .pushed group.id
      else .present group.id⟩ := by
  have hflow := Request.isFlow_of_needs? hneeds
  obtain ⟨n, more, o', hn, hs, hended⟩ := exists_story hnew hreq hflow
  rcases hended _ hresult with ⟨rfl, rfl⟩ | ⟨hbroken, -⟩
  · obtain ⟨descriptor, dependency, houtcome, rfl⟩ := hs.of_ok
    obtain ⟨rest, hdeeds, -⟩ := hs.eq_deeds_append
    rw [List.append_nil] at hdeeds
    obtain ⟨-, rfl⟩ := resolved_after hnew ho hv hstays hpush hkept (List.append_nil _).symm
      hreq hflow hd hdeeds (hn.trans hneeds) houtcome
    exact ⟨descriptor, rfl⟩
  · cases hbroken

/-- A request that needs the group changes its flow after the addition. -/
theorem change_after_push {t' : Ticket} {e' : Event} {later' : List Event} {p' : Promise}
    {mod : FlowMod} (hes : es₁ ++ e₁ :: later = es ++ e' :: later')
    (hreq : (t', r) ∈ s₀.requestedIn es) (hd : r.device = d) (hneeds : r.needs? = some group.id)
    (hasked : (s₀.go es).asked? e' = some (t', p', .flowMod mod)) :
    ∃ mid, es = es₁ ++ e₁ :: mid := by
  have hflow := Request.isFlow_of_needs? hneeds
  have hreq' : (t', r) ∈ s₀.requestedIn (es ++ [e']) := by
    rw [requestedIn_append]
    exact List.mem_append_left _ hreq
  obtain ⟨n, more, o', hn, hs, -⟩ := exists_story hnew hreq' hflow
  rw [deedsIn_concat, deedOf?_of_asked? hasked, Option.toList_some, List.append_assoc] at hs
  obtain ⟨dependency, rest, houtcome, hdeeds⟩ := hs.of_flowMod
  exact (resolved_after hnew ho hv hstays hpush hkept hes hreq hflow hd hdeeds
    (hn.trans hneeds) houtcome).1

end Confirmed

/-! ## On the wire -/

/-- As long as a device is attached over one connection only, its jobs send on that
connection. -/
theorem connection_of_asked? (honly : ∀ es' c', es' <+: es →
      (s₀.go es').pipeline.attached.get? d = some c' → c' = c)
    (hreq : (t, r) ∈ s₀.requestedIn es) (hflow : r.isFlow = true) (hd : r.device = d)
    (hasked : (s₀.go es).asked? e = some (t, p, m)) : p.connection = c := by
  have hnone : ∀ g, ¬(s₀.go []).Has d (.group g) := by
    cases eq_of_new hnew
    exact fun g => not_has_of_blank rfl
  have hidle : ∀ lane ∈ (s₀.go []).pipeline.lanes.ofDevice d, lane.jobs = [] := by
    cases eq_of_new hnew
    exact List.forall_mem_nil _
  obtain ⟨hworks, -⟩ := backedIn_of_blank hnew hnone hidle honly
  obtain ⟨l, lane, c', next, s', -, hl, hlane, hjob, hperform⟩ :=
    deedOf?_for_device hnew hreq hflow (deedOf?_of_asked? hasked)
  have hmem : lane ∈ (s₀.go es).pipeline.lanes.ofDevice d :=
    Lanes.mem_ofDevice.mpr ⟨List.mem_of_getElem? hl, hlane.trans hd⟩
  rw [← hworks lane hmem _ (Lane.mem_jobs.mpr (.inl hjob)) c' _ rfl]
  cases performed_of_answer hperform with
  | sent hsend => exact (promised_send hsend).1

/-- As long as a device stays attached, two additions of a group that flows need are apart: the
earlier has failed before the later is handed over, or an operation has removed the group in
between.

So if the device has confirmed such an addition, and no operation removes the group, every
other addition was handed over earlier and has failed by then.  A request that needs the
group and succeeds says that it was added if its job has added it, and otherwise that it was
present.  It changes its flow only after the addition, and where the device is attached over
one connection only, and answers there in turn, the addition comes first on the wire. -/
theorem one_push_per_group {c : ConnectionId} (es : List Event) (hstays : s₀.StaysAttached d es)
    (honly : ∀ es' c', es' <+: es → (s₀.go es').pipeline.attached.get? d = some c' → c' = c) :
    (∀ es₁ e₁ es₂ e₂ es₃ group₁ group₂ t₁ t₂ p₁ p₂, es = es₁ ++ e₁ :: (es₂ ++ e₂ :: es₃) →
      s₀.Pushes es₁ e₁ d group₁ t₁ p₁ → s₀.Pushes (es₁ ++ e₁ :: es₂) e₂ d group₂ t₂ p₂ →
      group₂.id = group₁.id → (s₀.go (es₁ ++ e₁ :: es₂)).AdditionFailed p₁ ∨
        ∃ u e v, es₂ = u ++ e :: v ∧ (s₀.go (es₁ ++ e₁ :: u)).Removes d group₁.id e) ∧
    ∀ es₁ e₁ later group t p o existed, es = es₁ ++ e₁ :: later → s₀.Pushes es₁ e₁ d group t p →
      (s₀.go es).result? p = some o → s₀.pipeline.policy.rule.verdict o = .ok existed →
      (∀ es' e' later', es = es' ++ e' :: later' → ¬(s₀.go es').Removes d group.id e') →
      (∀ es' e' later' group' t' p', es = es' ++ e' :: later' → s₀.Pushes es' e' d group' t' p' →
        group'.id = group.id → es' = es₁ ∧ e' = e₁ ∧ t' = t ∧ p' = p ∨
          (∃ mid, es₁ = es' ++ e' :: mid) ∧ (s₀.go es₁).AdditionFailed p') ∧
      ∀ t' r, (t', r) ∈ s₀.requestedIn es → r.device = d → r.needs? = some group.id →
        (∀ v, (s₀.go es).jobResult? t' = some (.ok v) → ∃ descriptor, v = .flow ⟨descriptor,
          if t' = t then if existed then .alreadyPresent group.id else .pushed group.id
          else .present group.id⟩) ∧
        ∀ es' e' later' p' mod, es = es' ++ e' :: later' →
          (s₀.go es').asked? e' = some (t', p', .flowMod mod) →
          (∃ mid, es' = es₁ ++ e₁ :: mid) ∧
          ((∀ d codec n, .openConnection d codec n ∈ es → codec.Candid) →
            s₀.AnswersInTurn c {} es → p'.WrittenIn (s₀.trailIn c {} es) (.flowMod mod) →
            (s₀.trailIn c {} es).WroteBefore p (.groupMod ⟨.add, group⟩) p' (.flowMod mod)) := by
  constructor
  · rintro es₁ e₁ es₂ e₂ es₃ group₁ group₂ t₁ t₂ p₁ p₂ rfl h₁ h₂ hgroup
    rw [← List.cons_append, ← List.append_assoc] at hstays
    exact failed_or_removed hnew (staysAttached_of_append hstays) h₁ h₂ hgroup
  · rintro es₁ e₁ later group t p o existed rfl hpush ho hv hkept
    constructor
    · intro es' e' later' group' t' p' hes hpush' hgroup
      exact push_eq_or_failed hnew ho hv hstays hpush hkept hes hpush' hgroup
    intro t' r hreq hd hneeds
    have hflow := Request.isFlow_of_needs? hneeds
    constructor
    · intro v hresult
      exact reported_of_success hnew ho hv hstays hpush hkept hreq hd hneeds hresult
    · intro es' e' later' p' mod hes hasked
      have hreq' : (t', r) ∈ s₀.requestedIn es' := by
        rw [hes] at hreq
        exact requested_of_deedOf? hnew hreq (deedOf?_of_asked? hasked)
      have hafter : ∃ mid, es' = es₁ ++ e₁ :: mid :=
        change_after_push hnew ho hv hstays hpush hkept hes hreq' hd hneeds hasked
      refine ⟨hafter, fun hcodecs hturn hwritten => ?_⟩
      obtain ⟨mid, rfl⟩ := hafter
      have hconn' := connection_of_asked? hnew (fun es' c' hes' => honly es' c'
        (hes ▸ hes'.trans (List.prefix_append _ _))) hreq' hflow hd hasked
      obtain ⟨r₀, hreq₀, hflow₀, hd₀⟩ := hpush.requested
      have hconn := connection_of_asked? hnew (fun es' c' hes' => honly es' c'
        (hes'.trans (List.prefix_append _ _))) hreq₀ hflow₀ hd₀ hpush.asked
      rw [List.append_assoc, List.cons_append] at hes
      subst hconn
      have hsend := sends?_of_asked? hpush.asked
      exact wroteBefore_of_sent hnew hsend (sends?_of_asked? hasked) hconn' hes
        (writtenIn_of_answer hnew hcodecs (mem_sentIn_of_sends? hsend) hturn ho
          (GroupExistsRule.isAnswer_of_verdict hv)) hwritten

end Runs

/-! ## Two flows that need one group -/

namespace Sharing

open Exchange (device group)

/-- A flow that hands packets to the group. -/
def flow : Flow := { table := ⟨0⟩, instructions := [.applyActions [.group ⟨5⟩]] }

def request (id : FlowId) : Request := .addFlow ⟨device, ⟨0⟩, id⟩ flow

/-- Two flows are asked for, and the first job finds that the group is missing. -/
def asking : List Event :=
  [.submit (request ⟨"f"⟩) false, .submit (request ⟨"g"⟩) false, .startJob 0, .stepJob 0,
    .stepJob 0]

def before : List Event := Exchange.before ++ asking

/-- The device acknowledges the group, then the first flow, which ends the first job. -/
def between : List Event :=
  [.writer 0, .writer 0, .receive 0 [0], .stepJob 0, .stepJob 0, .stepJob 0, .writer 0, .writer 0,
    .receive 0 [0, 0], .stepJob 0, .stepJob 0, .stepJob 0, .startJob 0, .stepJob 0]

/-- The second flow is sent and acknowledged. -/
def after : List Event :=
  [.writer 0, .writer 0, .receive 0 [0, 0, 0], .stepJob 0, .stepJob 0, .stepJob 0]

def run : List Event := before ++ .stepJob 0 :: (between ++ .stepJob 0 :: after)

/-- The same at a device that says of everything that it is done. -/
def asked : List Event :=
  [.openConnection device .acknowledging 64, .attach 0, .putGroup device group] ++ asking

/-- The device acknowledges the group before its message is written, and then one flow after the
other. -/
def early : List Event :=
  asked ++ [.stepJob 0, .receive 0 [0], .stepJob 0, .stepJob 0, .stepJob 0, .writer 0, .writer 0,
    .writer 0, .receive 0 [0, 0], .stepJob 0, .stepJob 0, .stepJob 0, .startJob 0, .stepJob 0,
    .stepJob 0, .writer 0, .writer 0, .receive 0 [0, 0, 0], .stepJob 0, .stepJob 0, .stepJob 0]

/-- The promises of the group, and of the flow of the second request. -/
def push : Promise := ⟨0, .awaited ⟨1⟩ 0⟩

def second : Promise := ⟨0, .awaited ⟨3⟩ 2⟩

end Sharing

theorem one_push_per_group_of_sharing :
    ∃ s₀, System.new {} = .ok s₀ ∧
      s₀.Pushes Sharing.before (.stepJob 0) Exchange.device Exchange.group 0 Sharing.push ∧
      (s₀.go Sharing.run).result? Sharing.push = some (.ok .barrierReply) ∧
      (∀ v, (s₀.go Sharing.run).jobResult? 0 = some (.ok v) →
        ∃ descriptor, v = .flow ⟨descriptor, .pushed Exchange.group.id⟩) ∧
      (∀ v, (s₀.go Sharing.run).jobResult? 1 = some (.ok v) →
        ∃ descriptor, v = .flow ⟨descriptor, .present Exchange.group.id⟩) ∧
      (s₀.trailIn 0 {} Sharing.run).WroteBefore Sharing.push (.groupMod ⟨.add, Exchange.group⟩)
        Sharing.second (.flowMod (.add Sharing.flow)) := by
  have hcodecs (d : DeviceId) (codec : Codec) (n : Nat)
      (h : .openConnection d codec n ∈ Sharing.run) : codec.Candid := by
    obtain ⟨-, rfl, -⟩ : d = Exchange.device ∧ codec = .confirming ∧ n = 64 := by
      simpa [Sharing.run, Sharing.before, Sharing.asking, Sharing.between, Sharing.after,
        Exchange.before] using h
    exact Codec.candid_numbered _
  have hstart : ∃ s₀, System.new {} = .ok s₀ ∧ s₀.StaysAttached Exchange.device Sharing.run ∧
      (∀ n : Fin (Sharing.run.length + 1),
        ((s₀.go (Sharing.run.take n)).pipeline.attached.get? Exchange.device).all (· = 0) = true) ∧
      (∀ n : Fin Sharing.run.length, ¬(s₀.go (Sharing.run.take n)).Removes Exchange.device
        Exchange.group.id Sharing.run[n]) ∧
      (0, Sharing.request ⟨"f"⟩) ∈ s₀.requestedIn Sharing.before ∧
      (s₀.go Sharing.before).asked? (.stepJob 0) =
        some (0, Sharing.push, .groupMod ⟨.add, Exchange.group⟩) ∧
      (s₀.go Sharing.run).result? Sharing.push = some (.ok .barrierReply) ∧
      s₀.pipeline.policy.rule.verdict (.ok .barrierReply) = .ok false ∧
      (0, Sharing.request ⟨"f"⟩) ∈ s₀.requestedIn Sharing.run ∧
      (1, Sharing.request ⟨"g"⟩) ∈ s₀.requestedIn Sharing.run ∧
      (s₀.go (Sharing.before ++ .stepJob 0 :: Sharing.between)).asked? (.stepJob 0) =
        some (1, Sharing.second, .flowMod (.add Sharing.flow)) ∧
      s₀.AnswersInTurn 0 {} Sharing.run ∧
      (some 2, ⟨⟨3⟩, .flowMod (.add Sharing.flow)⟩) ∈ (s₀.trailIn 0 {} Sharing.run).written :=
    ⟨_, rfl, by decide, by decide, by decide, by decide, rfl, rfl, rfl, by decide, by decide, rfl,
      by decide, by decide⟩
  obtain ⟨s₀, hnew, hstays, honly, hkept, hrequested, hpushed, ho, hverdict, hfirst, hsecond, hasked,
    hturn, hwritten⟩ := hstart
  have hpush : s₀.Pushes Sharing.before (.stepJob 0) Exchange.device Exchange.group 0
      Sharing.push := ⟨⟨_, hrequested, rfl, rfl⟩, hpushed⟩
  have hrun : Sharing.run = Sharing.before ++ .stepJob 0 ::
      (Sharing.between ++ .stepJob 0 :: Sharing.after) := rfl
  have hrun' : Sharing.run = (Sharing.before ++ .stepJob 0 :: Sharing.between) ++ .stepJob 0 ::
      Sharing.after := rfl
  have hneeds (id : FlowId) : (Sharing.request id).needs? = some Exchange.group.id := rfl
  obtain ⟨-, hshared⟩ := one_push_per_group hnew Sharing.run hstays fun es' c' hes hc' => by
    have h := honly ⟨es'.length, Nat.lt_succ_of_le hes.length_le⟩
    rw [← List.prefix_iff_eq_take.mp hes, hc'] at h
    exact of_decide_eq_true h
  obtain ⟨-, hrequests⟩ := hshared Sharing.before (.stepJob 0) _ _ 0 Sharing.push _ _ hrun hpush ho
    hverdict fun es' e' later' hes => by
      have h := hkept ⟨es'.length, by simp [hes]⟩
      simpa [hes] using h
  obtain ⟨hpushed, -⟩ := hrequests 0 _ hfirst rfl (hneeds _)
  obtain ⟨hpresent, hsent⟩ := hrequests 1 _ hsecond rfl (hneeds _)
  obtain ⟨-, hwire⟩ := hsent _ _ _ _ _ hrun' hasked
  exact ⟨s₀, hnew, hpush, ho, hpushed, hpresent, hwire hcodecs hturn ⟨⟨3⟩, 2, rfl, hwritten⟩⟩

/-- The device acknowledges the addition of the group while it waits in the queue.  The writer
passes it over, and both flows go to a device that was never told of their group. -/
theorem flows_without_group :
    ∃ s₀ descriptor descriptor', System.new {} = .ok s₀ ∧
      let es := Sharing.early
      s₀.StaysAttached Exchange.device es ∧
        s₀.Pushes Sharing.asked (.stepJob 0) Exchange.device Exchange.group 0 Sharing.push ∧
        (s₀.go es).result? Sharing.push = some (.ok .ack) ∧
        (s₀.go es).jobResult? 0 =
          some (.ok (.flow ⟨descriptor, .pushed Exchange.group.id⟩)) ∧
        (s₀.go es).jobResult? 1 =
          some (.ok (.flow ⟨descriptor', .present Exchange.group.id⟩)) ∧
        (s₀.trailIn 0 {} es).written.map (·.2.message) =
          [.flowMod (.add Sharing.flow), .flowMod (.add Sharing.flow)] ∧
        (s₀.go es).connections.map (·.wire.sent) = [[[0, 0], [0, 0, 0]]] ∧
        ¬s₀.AnswersInTurn 0 {} es :=
  ⟨_, _, _, new_start, by decide, ⟨⟨Sharing.request ⟨"f"⟩, by decide, rfl, rfl⟩, rfl⟩, rfl, rfl,
    rfl, rfl, rfl, by decide⟩

end System

end Southbound
