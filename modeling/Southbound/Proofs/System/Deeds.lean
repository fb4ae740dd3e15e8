import Southbound.Proofs.Operation.FlowPlan
import Southbound.Proofs.System.Books
import Southbound.Proofs.System.EarlierSessions
import Southbound.Proofs.System.Queue

/-!
# What jobs do in a run

Each time a job goes on, it does one deed (`System.deedOf?`), and what was answered to the
deed is what the system had to answer at that moment.  The deeds of a job in a run
(`System.deedsIn`) are how far its program has come, and when the job has a result, its
program has come to that value, or the store broke off while it was read (`System.Tells`).

So a request to add, update or remove a flow hands over the messages of its plan and no
others, in any run (`System.flow_requests_follow_plan`).

A job has its turn when its lane goes on and no reply is missing that it waits for
(`System.isTurn`).  In each of its turns it does a deed, or it ends.  Plans are short, so
that a request on a flow has a result after a few turns (`System.flow_requests_end`).
-/

namespace Southbound.System

/-! ## Deeds in a run -/

/-- The deed that a job does in an event. -/
def deedOf? (s : System) (t : Ticket) (e : Event) : Option Deed :=
  (e.lane?.bind s.pipeline.lanes.get?).bind fun lane =>
    match lane.running with
    | some ⟨t', .operate c (.step q _)⟩ =>
      if t' = t then
        match s.perform lane.device c q with
        | .answer a _ => some ⟨q, a⟩
        | _ => none
      else none
    | _ => none

/-- The deeds of a job in a run, in order. -/
def deedsIn (s : System) (t : Ticket) : List Event → List Deed
  | [] => []
  | e :: es => (s.deedOf? t e).toList ++ (s.after e).deedsIn t es

/-- A deed is answered as the system would answer it for a device on a connection. -/
def Answers (s : System) (d : DeviceId) (c : ConnectionId) (deed : Deed) : Prop :=
  ∃ s', s.perform d c deed.effect = .answer deed.answer s'

/-- What a job that has a result has done: its program has come to the result, or the store
broke off while a group was read. -/
inductive Concludes (d : DeviceId) (p : Program (Outcome Result)) (deeds : List Deed) (broke : Prop) :
    Outcome Result → Prop where
  | value {result : Outcome Result} : p.Comes deeds (.done result) → Concludes d p deeds broke result
  | brokenOff {g : GroupId} {next : Outcome (Option Group) → Program (Outcome Result)} :
      p.Comes deeds (.step (.readGroup g) next) → broke →
      Concludes d p deeds broke (.error (.brokenOff d))

/-- The deeds of a job are how far its program has come. -/
structure Tells (s : System) (d : DeviceId) (t : Ticket) (c : ConnectionId)
    (p : Program (Outcome Result)) (deeds : List Deed) (broke : Prop) : Prop where
  bounded : t < s.pipeline.tickets
  /-- The job is one of the device, and that is left of it. -/
  jobs : s.pipeline.lanes.AllJobs fun d' job => job.ticket = t →
    d' = d ∧ ∃ rest, job.work = .operate c rest ∧ p.Comes deeds rest
  comes : ∃ rest, p.Comes deeds rest
  /-- A job with a result is not done again. -/
  ended : ∀ result, s.jobResult? t = some result →
    Concludes d p deeds broke result ∧ s.pipeline.lanes.AllJobs fun _ job => job.ticket ≠ t

variable {s s' : System} {d : DeviceId} {c : ConnectionId} {t : Ticket} {e : Event} {l : LaneId}
  {lane : Lane Job} {p : Program (Outcome Result)} {deeds : List Deed} {broke : Prop}

theorem deedsIn_concat (s : System) (t : Ticket) (es : List Event) (e : Event) :
    s.deedsIn t (es ++ [e]) = s.deedsIn t es ++ ((s.go es).deedOf? t e).toList := by
  induction es generalizing s with
  | nil => simp [deedsIn]
  | cons e' es ih => rw [List.cons_append, deedsIn, deedsIn, ih, go_cons, List.append_assoc]

/-- Each deed was done in one event of the run, after those that come before it. -/
theorem exists_of_deedsIn {deed : Deed} {es : List Event} {h more : List Deed}
    (he : s.deedsIn t es = h ++ deed :: more) :
    ∃ es₁ e es₂, es = es₁ ++ e :: es₂ ∧ s.deedsIn t es₁ = h ∧
      (s.go es₁).deedOf? t e = some deed := by
  induction es generalizing s h with
  | nil =>
      rw [deedsIn] at he
      simp at he
  | cons e es ih =>
      rw [deedsIn] at he
      have hlater {h' : List Deed} (hh : h = (s.deedOf? t e).toList ++ h')
          (he' : (s.after e).deedsIn t es = h' ++ deed :: more) :
          ∃ es₁ e' es₂, e :: es = es₁ ++ e' :: es₂ ∧ s.deedsIn t es₁ = h ∧
            (s.go es₁).deedOf? t e' = some deed := by
        obtain ⟨es₁, e', es₂, rfl, hh', hdeed⟩ := ih he'
        exact ⟨e :: es₁, e', es₂, rfl, by rw [deedsIn, hh', hh], hdeed⟩
      cases hdeed : s.deedOf? t e with
      | none =>
          rw [hdeed] at he hlater
          exact hlater rfl he
      | some first =>
          rw [hdeed] at he hlater
          cases h with
          | nil =>
              cases (List.cons.inj he).1
              exact ⟨[], e, es, rfl, rfl, hdeed⟩
          | cons first' h' =>
              obtain ⟨rfl, he'⟩ := List.cons.inj he
              exact hlater rfl he'

theorem deedOf?_eq_some {deed : Deed} (h : s.deedOf? t e = some deed) :
    ∃ l lane c next s', e = .stepJob l ∧ s.pipeline.lanes.get? l = some lane ∧
      lane.running = some ⟨t, .operate c (.step deed.effect next)⟩ ∧
      s.perform lane.device c deed.effect = .answer deed.answer s' := by
  obtain ⟨lane, hlane, hdeed⟩ := Option.bind_eq_some_iff.mp h
  obtain ⟨l, he, hl⟩ := Option.bind_eq_some_iff.mp hlane
  split at hdeed
  · next t' c q next hjob =>
      split at hdeed
      · next ht =>
          subst ht
          split at hdeed
          · next a s' hperform =>
              cases hdeed
              refine ⟨l, lane, c, next, s', ?_, hl, hjob, hperform⟩
              cases e with
              | stepJob l' =>
                  cases he
                  rfl
              | _ => cases he
          · cases hdeed
      · cases hdeed
  · cases hdeed

theorem deedOf?_of_lane? (h : e.lane? = none) : s.deedOf? t e = none := by
  rw [deedOf?, h]
  rfl

/-- A job that goes on does a deed, or it waits, or the store breaks off. -/
theorem stepJob_cases (hwired : s.Wired) {q : Effect}
    {next : q.Answer → Program (Outcome Result)} (hl : s.pipeline.lanes.get? l = some lane)
    (hjob : lane.running = some ⟨t, .operate c (.step q next)⟩) :
    (∃ a s₁, s.perform lane.device c q = .answer a s₁ ∧
        s.stepJob l = s₁.suspendJob l ⟨t, .operate c (next a)⟩) ∨
      ((∀ t', s.deedOf? t' (.stepJob l) = none) ∧ s.stepJob l = s) ∨
        (∀ t', s.deedOf? t' (.stepJob l) = none) ∧ (∃ g, q = .readGroup g) ∧
          s.store.breakReads = true ∧
          s.stepJob l = s.finishJob l t (.error (.brokenOff lane.device)) := by
  cases hperform : s.perform lane.device c q with
  | answer a s₁ => exact .inl ⟨a, s₁, rfl, by simp [stepJob, hl, hjob, stepProgram, hperform]⟩
  | wait =>
      refine .inr (.inl ⟨fun t' => by simp [deedOf?, Event.lane?, hl, hjob, hperform], ?_⟩)
      simp only [stepJob, hl, hjob, stepProgram, hperform]
      exact suspendJob_self hl hjob
  | breakOff =>
      refine .inr (.inr ⟨fun t' => by simp [deedOf?, Event.lane?, hl, hjob, hperform], ?_, ?_, by
        simp [stepJob, hl, hjob, stepProgram, hperform]⟩)
      all_goals
        cases q with
        | send m =>
            -- The connection of a job is there.
            have hd := hwired.jobs l lane hl _ (Lane.mem_jobs.mpr (.inl hjob)) c _ rfl
            obtain ⟨conn, hconn, -⟩ := Option.map_eq_some_iff.mp hd
            simp [perform, send, hconn] at hperform
        | readGroup g =>
            simp only [perform, Store.readGroup?] at hperform
            cases hbreak : s.store.breakReads with
            | true => first | exact ⟨g, rfl⟩ | rfl
            | false =>
                rw [hbreak] at hperform
                split at hperform
                · cases hperform
                · next hnone =>
                    simp only [Bool.false_eq_true, if_false] at hnone
                    split at hnone
                    · cases hnone
                    · split at hnone <;> cases hnone
        | await p =>
            simp only [perform] at hperform
            split at hperform <;> cases hperform
        | gather members last =>
            simp only [perform] at hperform
            split at hperform <;> cases hperform
        | _ => cases hperform

/-! ## Turns -/

/-- An event in which a job goes on, while no reply is missing that it waits for. -/
def isTurn (s : System) (t : Ticket) (e : Event) : Bool :=
  e.lane?.any fun l =>
    s.jobReady l && ((s.pipeline.lanes.get? l).bind Lane.running).any (·.ticket = t)

/-- How many turns a job has in a run. -/
def turnsIn (s : System) (t : Ticket) : List Event → Nat
  | [] => 0
  | e :: es => (s.isTurn t e).toNat + (s.after e).turnsIn t es

theorem turnsIn_concat (s : System) (t : Ticket) (es : List Event) (e : Event) :
    s.turnsIn t (es ++ [e]) = s.turnsIn t es + ((s.go es).isTurn t e).toNat := by
  induction es generalizing s with
  | nil => simp [turnsIn]
  | cons e' es ih => rw [List.cons_append, turnsIn, turnsIn, ih, go_cons, Nat.add_assoc]

theorem isTurn_eq_true (h : s.isTurn t e = true) :
    ∃ l lane work, e = .stepJob l ∧ s.pipeline.lanes.get? l = some lane ∧
      lane.running = some ⟨t, work⟩ ∧ s.jobReady l = true := by
  obtain ⟨l, he, hturn⟩ := (Option.any_eq_true ..).mp h
  obtain ⟨hready, hrunning⟩ := Bool.and_eq_true_iff.mp hturn
  obtain ⟨⟨t', work⟩, hjob, ht⟩ := (Option.any_eq_true ..).mp hrunning
  obtain ⟨lane, hl, hjob⟩ := Option.bind_eq_some_iff.mp hjob
  obtain rfl : t' = t := of_decide_eq_true ht
  refine ⟨l, lane, work, ?_, hl, hjob, hready⟩
  cases e with
  | stepJob l' =>
      cases he
      rfl
  | _ => cases he

theorem jobResult?_finishJob (s : System) (l : LaneId) (t : Ticket) (result : Outcome Result) :
    (s.finishJob l t result).jobResult? t = some result := by
  rw [jobResult?, finishJob, List.lookup_cons_self]

/-- In its turn a job does a deed, or it ends. -/
theorem deed_or_result_of_isTurn (h : s.isTurn t e = true) :
    (s.deedOf? t e).isSome ∨ ((s.after e).jobResult? t).isSome := by
  obtain ⟨l, lane, work, rfl, hl, hjob, hready⟩ := isTurn_eq_true h
  rw [jobReady, hl, Option.bind_some, hjob] at hready
  -- What remains is over, or its next effect is answered, or the store breaks off.
  cases work with
  | observe f => exact .inr (by simp [after, stepJob, hl, hjob, jobResult?_finishJob])
  | clear => exact .inr (by simp [after, stepJob, hl, hjob, jobResult?_finishJob])
  | operate c rest =>
      cases rest with
      | done result =>
          exact .inr (by simp [after, stepJob, hl, hjob, stepProgram, jobResult?_finishJob])
      | step q next =>
          cases hperform : s.perform lane.device c q with
          | answer a s₁ => exact .inl (by simp [deedOf?, Event.lane?, hl, hjob, hperform])
          | wait => exact absurd hperform (perform_ne_wait hready)
          | breakOff =>
              exact .inr (by
                simp [after, stepJob, hl, hjob, stepProgram, hperform, jobResult?_finishJob])

/-- A job that has no result has done a deed in each of its turns. -/
theorem turnsIn_le_deedsIn (hplain : s.Plain) (t : Ticket) (es : List Event) :
    ((s.go es).jobResult? t).isSome ∨ s.turnsIn t es ≤ (s.deedsIn t es).length := by
  induction es using List.reverseRecOn with
  | nil => exact .inr (Nat.le_refl 0)
  | append_singleton es e ih =>
      rw [go_concat, turnsIn_concat, deedsIn_concat, List.length_append]
      rcases ih with hresult | hle
      · exact .inl (jobResult?_after (plain_go hplain es) e hresult)
      cases hturn : (s.go es).isTurn t e with
      | false => exact .inr (Nat.le_add_right_of_le hle)
      | true =>
          refine (deed_or_result_of_isTurn hturn).symm.imp_right fun hdeed => ?_
          obtain ⟨deed, hdeed⟩ := Option.isSome_iff_exists.mp hdeed
          rw [hdeed]
          exact Nat.succ_le_succ hle

/-! ## Numbers -/

/-- No other job of a device has the number of the one that is being done. -/
theorem Ascending.alone (h : s.Ascending d) (hl : s.pipeline.lanes.get? l = some lane)
    (hd : lane.device = d) {job : Job} (hjob : lane.running = some job) {l' : LaneId}
    {lane' : Lane Job} (hl' : s.pipeline.lanes.get? l' = some lane') (hd' : lane'.device = d)
    {job' : Job} (hjob' : job' ∈ lane'.jobs) (ht : job'.ticket = job.ticket) :
    l' = l ∧ job' ∉ lane'.waiting := by
  have hpairwise := h.ascending
  rw [jobTickets, List.pairwise_map, Lanes.jobsOf, List.pairwise_flatMap] at hpairwise
  obtain ⟨hwithin, hacross⟩ := hpairwise
  rw [Lanes.ofDevice, List.pairwise_filter, List.pairwise_iff_getElem] at hacross
  obtain ⟨hlt, hget⟩ := List.getElem?_eq_some_iff.mp hl
  obtain ⟨hlt', hget'⟩ := List.getElem?_eq_some_iff.mp hl'
  have hmem : job ∈ lane.jobs := Lane.mem_jobs.mpr (.inl hjob)
  have heq : l' = l := by
    rcases Nat.lt_trichotomy l' l with hless | heq | hless
    · have := hacross l' l hlt' hlt hless
      rw [hget, hget'] at this
      exact absurd ht (Nat.ne_of_lt
        (this (decide_eq_true hd') (decide_eq_true hd) job' hjob' job hmem))
    · exact heq
    · have := hacross l l' hlt hlt' hless
      rw [hget, hget'] at this
      exact absurd ht.symm (Nat.ne_of_lt
        (this (decide_eq_true hd) (decide_eq_true hd') job hmem job' hjob'))
  subst heq
  cases hl.symm.trans hl'
  refine ⟨rfl, fun hwaiting => ?_⟩
  have hlane := hwithin lane (Lanes.mem_ofDevice.mpr ⟨List.mem_of_getElem? hl, hd⟩)
  rw [Lane.jobs_of_running hjob] at hlane
  exact absurd ht.symm (Nat.ne_of_lt ((List.pairwise_cons.mp hlane).1 job' hwaiting))

/-! ## How far a job has come -/

theorem Concludes.mono {broke' : Prop} {result : Outcome Result} (h : Concludes d p deeds broke result)
    (hbroke : broke → broke') : Concludes d p deeds broke' result := by
  cases h with
  | value hcomes => exact .value hcomes
  | brokenOff hcomes hb => exact .brokenOff hcomes (hbroke hb)

theorem Tells.mono {broke' : Prop} (h : s.Tells d t c p deeds broke) (hbroke : broke → broke') :
    s.Tells d t c p deeds broke' :=
  ⟨h.bounded, h.jobs, h.comes, fun result hresult =>
    ⟨(h.ended result hresult).1.mono hbroke, (h.ended result hresult).2⟩⟩

/-- Jobs are queued, or none is, and none goes on. -/
theorem Tells.queued (h : s.Tells d t c p deeds broke)
    (htickets : s.pipeline.tickets ≤ s'.pipeline.tickets) (hresults : s'.results = s.results)
    (hlanes : ∀ {P : DeviceId → Job → Prop}, s.pipeline.lanes.AllJobs P →
      (∀ d job, s.pipeline.tickets ≤ job.ticket → P d job) → s'.pipeline.lanes.AllJobs P) :
    s'.Tells d t c p deeds broke := by
  have hbounded := h.bounded
  refine ⟨Nat.lt_of_lt_of_le hbounded htickets, hlanes h.jobs fun d' job hjob ht => ?_, h.comes,
    fun result hresult => ?_⟩
  · exact absurd (ht ▸ hjob) (Nat.not_le.mpr hbounded)
  · rw [jobResult?, hresults] at hresult
    obtain ⟨hends, hnone⟩ := h.ended result hresult
    refine ⟨hends, hlanes hnone fun d' job hjob ht => ?_⟩
    exact absurd (ht ▸ hjob) (Nat.not_le.mpr hbounded)

/-- A job ends, whichever it is. -/
theorem Tells.finished (h : s.Tells d t c p deeds broke) (hascending : s.Ascending d)
    (hl : s.pipeline.lanes.get? l = some lane) {job : Job} (hjob : lane.running = some job)
    (result : Outcome Result) (hlanes : s'.pipeline.lanes = s.pipeline.lanes.modify l Lane.finish)
    (hresults : s'.results = (job.ticket, result) :: s.results)
    (htickets : s'.pipeline.tickets = s.pipeline.tickets)
    (hends : job.ticket = t → Concludes d p deeds broke result) : s'.Tells d t c p deeds broke := by
  refine ⟨by rw [htickets]; exact h.bounded, by rw [hlanes]; exact h.jobs.finish l, h.comes,
    fun result' hresult' => ?_⟩
  rw [jobResult?, hresults, List.lookup_cons] at hresult'
  by_cases ht : t = job.ticket
  · subst ht
    rw [beq_self_eq_true] at hresult'
    cases hresult'
    refine ⟨hends rfl, ?_⟩
    have hd := (h.jobs l lane hl job (Lane.mem_jobs.mpr (.inl hjob)) rfl).1
    rw [hlanes]
    intro l' lane' hl' job' hjob' ht'
    rw [Lanes.get?_modify] at hl'
    split at hl'
    · next heq =>
        subst heq
        rw [hl] at hl'
        cases hl'
        exact (hascending.alone hl hd hjob hl hd (List.mem_append_right _ hjob') ht').2 hjob'
    · next hne =>
        have hd' := (h.jobs l' lane' hl' job' hjob' ht').1
        exact hne (hascending.alone hl hd hjob hl' hd' hjob' ht').1.symm
  · rw [beq_false_of_ne ht] at hresult'
    obtain ⟨hends', hnone⟩ := h.ended result' hresult'
    rw [hlanes]
    exact ⟨hends', hnone.finish l⟩

/-- A job does a deed, whichever it is. -/
theorem Tells.answered (h : s.Tells d t c p deeds broke) (hascending : s.Ascending d)
    {t' : Ticket} {c' : ConnectionId} {q : Effect} {next : q.Answer → Program (Outcome Result)}
    {a : q.Answer} {s₁ : System} (hl : s.pipeline.lanes.get? l = some lane)
    (hjob : lane.running = some ⟨t', .operate c' (.step q next)⟩)
    (hperform : s.perform lane.device c' q = .answer a s₁) :
    (s₁.suspendJob l ⟨t', .operate c' (next a)⟩).Tells d t c p
      (deeds ++ (s.deedOf? t (.stepJob l)).toList) broke := by
  have heff := perform_effects hperform
  have hmem : (⟨t', .operate c' (.step q next)⟩ : Job) ∈ lane.jobs := Lane.mem_jobs.mpr (.inl hjob)
  have hlanes := heff.lanes_suspendJob l ⟨t', .operate c' (next a)⟩
  have hbounded : t < (s₁.suspendJob l ⟨t', .operate c' (next a)⟩).pipeline.tickets := by
    show t < s₁.pipeline.tickets
    rw [heff.tickets]
    exact h.bounded
  by_cases ht : t' = t
  · -- It is this job: its program has come further, and no other job has its number.
    subst ht
    obtain ⟨hd, rest, hwork, hcomes⟩ := h.jobs l lane hl _ hmem rfl
    cases hwork
    have hdeed : s.deedOf? t' (.stepJob l) = some ⟨q, a⟩ := by
      simp [deedOf?, Event.lane?, hl, hjob, hperform]
    rw [hdeed]
    refine ⟨hbounded, ?_, ⟨next a, hcomes.concat a⟩, fun result hresult => ?_⟩
    · rw [hlanes]
      intro l' lane' hl' job' hjob' ht'
      rw [Lanes.get?_modify] at hl'
      split at hl'
      · next heq =>
          subst heq
          rw [hl] at hl'
          cases hl'
          refine ⟨hd, ?_⟩
          cases Lane.mem_jobs.mp hjob' with
          | inl hrunning =>
              cases hrunning
              exact ⟨next a, rfl, hcomes.concat a⟩
          | inr hwaiting =>
              have hin : job' ∈ lane.jobs := List.mem_append_right _ hwaiting
              exact absurd hwaiting (hascending.alone hl hd hjob hl hd hin ht').2
      · next hne =>
          have hd' := (h.jobs l' lane' hl' job' hjob' ht').1
          exact absurd (hascending.alone hl hd hjob hl' hd' hjob' ht').1.symm hne
    · replace hresult : s.jobResult? t' = some result := by
        rw [jobResult?, ← heff.results]
        exact hresult
      exact absurd rfl ((h.ended result hresult).2 l lane hl _ hmem)
  · have hdeed : s.deedOf? t (.stepJob l) = none := by
      simp [deedOf?, Event.lane?, hl, hjob, ht]
    rw [hdeed, Option.toList_none, List.append_nil]
    -- The job has another number before and after.
    have hmodify {P : DeviceId → Job → Prop} (hP : s.pipeline.lanes.AllJobs P)
        (hrunning : P lane.device ⟨t', .operate c' (next a)⟩) :
        (s₁.suspendJob l ⟨t', .operate c' (next a)⟩).pipeline.lanes.AllJobs P := by
      rw [hlanes]
      refine hP.modify l fun lane' hl' job hjob' => ?_
      cases hl.symm.trans hl'
      cases Lane.mem_jobs.mp hjob' with
      | inl hrun =>
          cases hrun
          exact hrunning
      | inr hwaiting => exact hP l lane hl job (Lane.mem_jobs.mpr (.inr hwaiting))
    refine ⟨hbounded, hmodify h.jobs fun htt => absurd htt ht, h.comes, fun result hresult => ?_⟩
    replace hresult : s.jobResult? t = some result := by
      rw [jobResult?, ← heff.results]
      exact hresult
    obtain ⟨hends, hnone⟩ := h.ended result hresult
    exact ⟨hends, hmodify hnone ht⟩

/-- The job of a lane goes on, whichever it is. -/
theorem Tells.stepJob (h : s.Tells d t c p deeds broke) (hwired : s.Wired)
    (hascending : s.Ascending d) (l : LaneId) :
    (s.stepJob l).Tells d t c p (deeds ++ (s.deedOf? t (.stepJob l)).toList)
      (broke ∨ s.store.breakReads = true) := by
  have hidle {s' : System} (hdeed : s.deedOf? t (.stepJob l) = none)
      (h' : s'.Tells d t c p deeds broke) : s'.Tells d t c p
        (deeds ++ (s.deedOf? t (.stepJob l)).toList) (broke ∨ s.store.breakReads = true) := by
    rw [hdeed, Option.toList_none, List.append_nil]
    exact h'.mono .inl
  cases hl : s.pipeline.lanes.get? l with
  | none =>
      refine hidle (by simp [deedOf?, Event.lane?, hl]) ?_
      rw [System.stepJob, hl]
      exact h
  | some lane =>
      cases hjob : lane.running with
      | none =>
          refine hidle (by simp [deedOf?, Event.lane?, hl, hjob]) ?_
          simp only [System.stepJob, hl, hjob]
          exact h
      | some job =>
          obtain ⟨t', work⟩ := job
          have hmem : (⟨t', work⟩ : Job) ∈ lane.jobs := Lane.mem_jobs.mpr (.inl hjob)
          cases work with
          | observe f =>
              refine hidle (by simp [deedOf?, Event.lane?, hl, hjob]) ?_
              simp only [System.stepJob, hl, hjob]
              refine h.finished hascending hl hjob (.ok (.descriptor _)) rfl rfl rfl fun ht => ?_
              obtain ⟨-, rest, hwork, -⟩ := h.jobs l lane hl _ hmem ht
              cases hwork
          | clear =>
              refine hidle (by simp [deedOf?, Event.lane?, hl, hjob]) ?_
              simp only [System.stepJob, hl, hjob]
              refine h.finished hascending hl hjob (.ok .done) rfl rfl rfl fun ht => ?_
              obtain ⟨-, rest, hwork, -⟩ := h.jobs l lane hl _ hmem ht
              cases hwork
          | operate c' rest =>
              cases rest with
              | done result =>
                  refine hidle (by simp [deedOf?, Event.lane?, hl, hjob]) ?_
                  simp only [System.stepJob, hl, hjob, stepProgram]
                  refine h.finished hascending hl hjob result rfl rfl rfl fun ht => ?_
                  obtain ⟨-, rest, hwork, hcomes⟩ := h.jobs l lane hl _ hmem ht
                  cases hwork
                  exact .value hcomes
              | step q next =>
                  rcases stepJob_cases hwired hl hjob with ⟨a, s₁, hperform, hstep⟩ |
                    ⟨hdeed, hstep⟩ | ⟨hdeed, ⟨g, rfl⟩, hbreak, hstep⟩
                  · rw [hstep]
                    exact (h.answered hascending hl hjob hperform).mono .inl
                  · rw [hstep]
                    exact hidle (hdeed t) h
                  · rw [hstep, hdeed t, Option.toList_none, List.append_nil]
                    refine (h.mono .inl).finished hascending hl hjob (.error (.brokenOff lane.device))
                      rfl rfl rfl fun ht => ?_
                    obtain ⟨hd, rest, hwork, hcomes⟩ := h.jobs l lane hl _ hmem ht
                    cases hwork
                    exact hd ▸ .brokenOff hcomes (.inr hbreak)

theorem Tells.after (h : s.Tells d t c p deeds broke) (hserved : s.Served)
    (hascending : s.Ascending d) (e : Event) :
    (s.after e).Tells d t c p (deeds ++ (s.deedOf? t e).toList)
      (broke ∨ s.store.breakReads = true) := by
  have hle := (deviceStep_after hserved.plain (hserved.session d).orderly e).tickets_le
  by_cases he : ∃ l, e = .stepJob l
  · obtain ⟨l, rfl⟩ := he
    exact h.stepJob hserved.wired hascending l
  · have hdeed : s.deedOf? t e = none := by
      refine deedOf?_of_lane? ?_
      cases e with
      | stepJob l => exact absurd ⟨l, rfl⟩ he
      | _ => rfl
    rw [hdeed, Option.toList_none, List.append_nil]
    refine Tells.mono ?_ .inl
    have hstep := (step_after hserved.plain e).1
    generalize s.after e = s' at hle hstep ⊢
    cases hstep with
    | quiet _ hp hr _ _ => exact h.queued hle hr fun hP _ => by rw [hp]; exact hP
    | opened => exact h.queued hle rfl fun hP _ => hP
    | submitted hsubmit hr _ _ =>
        obtain ⟨c, -, -, -, hp⟩ := submit_ok hsubmit
        refine h.queued hle hr fun hP hnew => ?_
        rw [hp]
        exact hP.enqueue (hnew _ _ (Nat.le_refl _))
    | attached _ _ _ hp hr _ _ => exact h.queued hle hr fun hP _ => by rw [hp]; exact hP
    | detached _ _ _ hp hr _ _ =>
        refine h.queued hle hr fun hP hnew => ?_
        rw [hp]
        exact Lanes.AllJobs.removeDevice (hP.enqueue (hnew _ _ (Nat.le_refl _))) _
    | closed hp hr _ _ => exact h.queued hle hr fun hP _ => by rw [hp]; exact hP
    | started l => exact h.queued hle rfl fun hP _ => hP.start l
    | @job l _ _ => exact absurd ⟨l, rfl⟩ he

/-- A request was accepted, and nothing of it is done. -/
theorem tells_of_submit {requested : List (Ticket × Request)}
    {asked : List (Ticket × Promise × Message)} (hbooks : s.Bookkept requested asked) {r : Request}
    {quiet : Bool}
    (ht : s.accepted? r.device (.submit r quiet) = some t) :
    ∃ c, s.pipeline.attached.get? r.device = some c ∧
      ∀ p, r.work s.pipeline.policy c = .operate c p →
        (s.after (.submit r quiet)).Tells r.device t c p [] False := by
  obtain ⟨_, _, _, heq, -, hsubmit⟩ := accepted?_eq_some ht
  cases heq
  obtain ⟨c, -, hchannel, rfl, rfl⟩ := submit_ok hsubmit
  refine ⟨c, Pipeline.channel_ok hchannel, fun p hwork => ?_⟩
  have hpipeline : (s.after (.submit r quiet)).pipeline = _ := after_submit hsubmit
  have hresults : (s.after (.submit r quiet)).results = s.results := by
    simp only [after, submit, hsubmit]
    rfl
  refine ⟨?_, ?_, ⟨p, .here p⟩, fun result hresult => ?_⟩
  · rw [hpipeline]
    exact Nat.lt_succ_self _
  · have hold : s.pipeline.lanes.AllJobs fun d' job => job.ticket = s.pipeline.tickets →
        d' = r.device ∧ ∃ rest, job.work = .operate c rest ∧ p.Comes [] rest :=
      fun l lane hl job hjob hticket =>
        absurd hticket (Nat.ne_of_lt (hbooks.jobs l lane hl job hjob).1)
    rw [hpipeline]
    exact hold.enqueue fun _ => ⟨rfl, p, hwork, .here p⟩
  · rw [jobResult?, hresults] at hresult
    obtain ⟨l₁, l₂, hmem, -⟩ := List.lookup_eq_some_iff.mp hresult
    exact absurd (hbooks.ended _ (hmem ▸ List.mem_append_cons_self)) (Nat.lt_irrefl _)

/-! ## Runs -/

section Runs

variable {config : Config} {s₀ : System} (hnew : System.new config = .ok s₀)
include hnew

/-- A job does nothing before it has its number. -/
theorem deedsIn_eq_nil {es : List Event} (ht : (s₀.go es).pipeline.tickets ≤ t) :
    s₀.deedsIn t es = [] := by
  induction es using List.reverseRecOn with
  | nil => rfl
  | append_singleton es e ih =>
      have hserved := (served_new hnew).go es
      rw [go_concat] at ht
      have hle := (deviceStep_after hserved.plain (hserved.session default).orderly e).tickets_le
      rw [deedsIn_concat, ih (Nat.le_trans hle ht), List.nil_append]
      cases hdeed : (s₀.go es).deedOf? t e with
      | none => rfl
      | some deed =>
          obtain ⟨l, lane, c, next, s', -, hl, hjob, -⟩ := deedOf?_eq_some hdeed
          have hlt := ((bookkept_go hnew es).jobs l lane hl _ (Lane.mem_jobs.mpr (.inl hjob))).1
          exact absurd hlt (Nat.not_lt.mpr (Nat.le_trans hle ht))

theorem policy_go (es : List Event) : (s₀.go es).pipeline.policy = s₀.pipeline.policy := by
  have hstep (s : System) (e : Event)
      (h : s.Plain ∧ s.pipeline.policy = s₀.pipeline.policy) :
      (s.after e).Plain ∧ (s.after e).pipeline.policy = s₀.pipeline.policy :=
    ⟨(step_after h.1 e).2, (policy_after h.1 e).trans h.2⟩
  exact (inv_go _ hstep ⟨plain_new hnew, rfl⟩ es).2

section Accepted

variable {es : List Event} {r : Request} {quiet : Bool}
  (ht : (s₀.go es).accepted? r.device (.submit r quiet) = some t)
include ht

/-- A job does nothing before it is accepted. -/
theorem deedsIn_submit : s₀.deedsIn t (es ++ [.submit r quiet]) = [] := by
  rw [deedsIn_concat, deedOf?_of_lane? rfl, Option.toList_none, List.append_nil]
  obtain ⟨_, _, _, heq, -, hsubmit⟩ := accepted?_eq_some ht
  cases heq
  obtain ⟨-, -, -, rfl, -⟩ := submit_ok hsubmit
  exact deedsIn_eq_nil hnew (Nat.le_refl _)

/-- How far a job has come that was accepted in a run. -/
theorem tells_go (es' : List Event) :
    ∃ c, (s₀.go es).pipeline.attached.get? r.device = some c ∧
      ∀ p, r.work s₀.pipeline.policy c = .operate c p →
        (s₀.go (es ++ .submit r quiet :: es')).Tells r.device t c p
          (s₀.deedsIn t (es ++ .submit r quiet :: es'))
          (∃ before, before <+: es ++ .submit r quiet :: es' ∧
            (s₀.go before).store.breakReads = true) := by
  obtain ⟨c, hc, htells⟩ := tells_of_submit (bookkept_go hnew es) ht
  refine ⟨c, hc, fun p hwork => ?_⟩
  rw [policy_go hnew es] at htells
  induction es' using List.reverseRecOn with
  | nil =>
      rw [deedsIn_submit hnew ht, go_concat]
      exact (htells p hwork).mono False.elim
  | append_singleton es' e ih =>
      rw [← List.cons_append, ← List.append_assoc, deedsIn_concat, go_concat]
      generalize es ++ .submit r quiet :: es' = run at ih ⊢
      refine (ih.after ((served_new hnew).go run) (lasting_ascending_go hnew run _).2 e).mono ?_
      rintro (⟨before, hbefore, hbreak⟩ | hbreak)
      · exact ⟨before, hbefore.trans (List.prefix_append ..), hbreak⟩
      · exact ⟨run, List.prefix_append .., hbreak⟩

/-- What was answered to the deeds of a job is what the system had to answer then. -/
theorem answers_go {p : Program (Outcome Result)}
    (hc : (s₀.go es).pipeline.attached.get? r.device = some c)
    (hp : r.work s₀.pipeline.policy c = .operate c p) (es' : List Event) :
    ∀ deed ∈ s₀.deedsIn t (es ++ .submit r quiet :: es'), ∃ before e later,
      es ++ .submit r quiet :: es' = before ++ e :: later ∧
        (s₀.go before).Answers r.device c deed := by
  induction es' using List.reverseRecOn with
  | nil =>
      rw [deedsIn_submit hnew ht]
      exact List.forall_mem_nil _
  | append_singleton es' e ih =>
      obtain ⟨c', hc', htells⟩ := tells_go hnew ht es'
      cases hc.symm.trans hc'
      have hjobs := (htells p hp).jobs
      rw [← List.cons_append, ← List.append_assoc, deedsIn_concat]
      generalize es ++ .submit r quiet :: es' = run at ih hjobs ⊢
      intro deed hdeed
      rw [List.mem_append, Option.mem_toList] at hdeed
      rcases hdeed with hold | hnow
      · obtain ⟨before, e', later, rfl, hanswers⟩ := ih deed hold
        exact ⟨before, e', later ++ [e], by simp, hanswers⟩
      · obtain ⟨l, lane, c₀, next, s', -, hl, hjob, hperform⟩ := deedOf?_eq_some hnow
        obtain ⟨hd, rest, hwork, -⟩ := hjobs l lane hl _ (Lane.mem_jobs.mpr (.inl hjob)) rfl
        cases hwork
        exact ⟨run, e, [], rfl, s', hd ▸ hperform⟩

/-- What a request on a flow that was accepted has done is the beginning of one of its stories.
When it has a result, it is a whole story, unless the store broke off while a group was
read. -/
theorem story_go (hr : r.isFlow = true) (es' : List Event) :
    ∃ n more o, n.group? = r.needs? ∧
      r.Story s₀.pipeline.policy n (s₀.deedsIn t (es ++ .submit r quiet :: es') ++ more) o ∧
      ∀ result, (s₀.go (es ++ .submit r quiet :: es')).jobResult? t = some result →
        more = [] ∧ result = o ∨
          result = .error (.brokenOff r.device) ∧ (∃ g a rest, more = ⟨.readGroup g, a⟩ :: rest) ∧
            ∃ before, before <+: es ++ .submit r quiet :: es' ∧
              (s₀.go before).store.breakReads = true := by
  obtain ⟨c, -, htells⟩ := tells_go hnew ht es'
  obtain ⟨p, hp⟩ := Request.exists_program s₀.pipeline.policy c hr
  obtain ⟨-, -, ⟨rest, hrest⟩, hended⟩ := htells p hp
  generalize s₀.deedsIn t (es ++ .submit r quiet :: es') = deeds at *
  generalize (s₀.go (es ++ .submit r quiet :: es')).jobResult? t = result? at *
  have hstory {more : List Deed} {o : Outcome Result} (hdone : p.Comes (deeds ++ more) (.done o)) :=
    (Request.work_comes_iff hr hp).mp hdone
  cases result? with
  | none =>
      obtain ⟨more, o, hdone⟩ := hrest.exists_end
      obtain ⟨n, hn, hs⟩ := hstory hdone
      refine ⟨n, more, o, hn, hs, fun result heq => ?_⟩
      cases heq
  | some result =>
      cases (hended result rfl).1 with
      | value hdone =>
          rw [← List.append_nil deeds] at hdone
          obtain ⟨n, hn, hs⟩ := hstory hdone
          refine ⟨n, [], result, hn, hs, fun result' heq => ?_⟩
          cases heq
          exact .inl ⟨rfl, rfl⟩
      | @brokenOff g next hread hbreak =>
          obtain ⟨rest, o, hdone⟩ := (hread.concat (.ok none)).exists_end
          rw [List.append_assoc] at hdone
          obtain ⟨n, hn, hs⟩ := hstory hdone
          refine ⟨n, _, o, hn, hs, fun result' heq => ?_⟩
          cases heq
          exact .inr ⟨rfl, ⟨g, .ok none, rest, rfl⟩, hbreak⟩

/-- A request to add, update or remove a flow that is accepted does, in any run, what one of
its stories tells, as far as it has come.  It hands the messages of its plan over to the
connection of the device in their order, and all of them when it has a result, unless the
store broke off before anything was sent.  What was found out about the group is what was so
at that time. -/
theorem flow_requests_follow_plan (hr : r.isFlow = true) (es' : List Event) :
    ∃ c n more o, (s₀.go es).pipeline.attached.get? r.device = some c ∧ n.group? = r.needs? ∧
      r.Story s₀.pipeline.policy n (s₀.deedsIn t (es ++ .submit r quiet :: es') ++ more) o ∧
      messagesOf (s₀.deedsIn t (es ++ .submit r quiet :: es')) <+:
        r.plan s₀.pipeline.policy.rule n ∧
      (∀ result, (s₀.go (es ++ .submit r quiet :: es')).jobResult? t = some result →
        more = [] ∧ result = o ∧
            messagesOf (s₀.deedsIn t (es ++ .submit r quiet :: es')) =
              r.plan s₀.pipeline.policy.rule n ∨
          result = .error (.brokenOff r.device) ∧ (∃ g a rest, more = ⟨.readGroup g, a⟩ :: rest) ∧
            ∃ before, before <+: es ++ .submit r quiet :: es' ∧
              (s₀.go before).store.breakReads = true) ∧
      ∀ deed ∈ s₀.deedsIn t (es ++ .submit r quiet :: es'), ∃ before e later,
        es ++ .submit r quiet :: es' = before ++ e :: later ∧
          (s₀.go before).Answers r.device c deed := by
  obtain ⟨c, hc, -⟩ := tells_go hnew ht es'
  obtain ⟨p, hp⟩ := Request.exists_program s₀.pipeline.policy c hr
  obtain ⟨n, more, o, hn, hs, hended⟩ := story_go hnew ht hr es'
  have hplan := hs.messagesOf_eq_plan
  rw [messagesOf_append] at hplan
  refine ⟨c, n, more, o, hc, hn, hs, ⟨_, hplan⟩, fun result hresult => ?_,
    answers_go hnew ht hc hp es'⟩
  refine (hended result hresult).imp_left fun ⟨hmore, ho⟩ => ⟨hmore, ho, ?_⟩
  rw [← hplan, hmore, messagesOf_nil, List.append_nil]

/-- A request to add, update or remove a flow that is accepted has a result when its job has had
twelve turns.  In each turn before that it does the next deed of its story. -/
theorem flow_requests_end (hr : r.isFlow = true) (es' : List Event)
    (hturns : 12 ≤ s₀.turnsIn t (es ++ .submit r quiet :: es')) :
    ∃ result, (s₀.go (es ++ .submit r quiet :: es')).jobResult? t = some result := by
  obtain ⟨n, more, o, -, hs, -⟩ := story_go hnew ht hr es'
  have hlength := hs.length_le
  rw [List.length_append] at hlength
  rcases turnsIn_le_deedsIn (plain_new hnew) t (es ++ .submit r quiet :: es') with hresult | hle
  · exact Option.isSome_iff_exists.mp hresult
  · omega

end Accepted

end Runs

/-! ## A flow is put in the place of another -/

namespace Exchange

/-- The device. -/
def device : DeviceId := ⟨"openflow:1"⟩

def path : FlowPath := ⟨device, ⟨0⟩, ⟨"f"⟩⟩

def old : Flow := { table := ⟨0⟩ }

/-- A flow of another priority, which hands packets to a group. -/
def updated : Flow where
  table := ⟨0⟩
  priority := 7
  instructions := [.applyActions [.group ⟨5⟩]]
  barrier := true

def request : Request := .updateFlow path old updated

def group : Group := { id := ⟨5⟩ }

/-- The device is attached, and its group is configured. -/
def before : List Event := [.openConnection device .confirming 64, .attach 0, .putGroup device group]

/-- The group is added and acknowledged, then the flows are changed, and all is answered. -/
def later : List Event :=
  [.startJob 0, .stepJob 0, .stepJob 0, .stepJob 0, .writer 0, .writer 0, .receive 0 [0],
    .stepJob 0, .stepJob 0, .stepJob 0, .stepJob 0, .stepJob 0, .receive 0 [0, 0],
    .receive 0 [0, 0, 0], .receive 0 [0, 0, 0, 0], .stepJob 0, .stepJob 0, .stepJob 0, .stepJob 0]

end Exchange

/-- The request has a result in its twelfth turn. -/
example : start.turnsIn 0 (Exchange.before ++ .submit Exchange.request false :: Exchange.later) =
    12 := by
  decide

theorem flow_requests_follow_plan_of_exchange :
    ∃ s₀ n descriptor, System.new {} = .ok s₀ ∧ Exchange.request.isFlow = true ∧
      (s₀.go Exchange.before).accepted? Exchange.request.device
        (.submit Exchange.request false) = some 0 ∧
      n.group? = some Exchange.group.id ∧
      let es := Exchange.before ++ .submit Exchange.request false :: Exchange.later
      messagesOf (s₀.deedsIn 0 es) =
        [.groupMod ⟨.add, Exchange.group⟩, .flowMod (.by .deleteStrict Exchange.old.toStrict),
          .flowMod (.by .add Exchange.updated.toStrict), .barrierRequest] ∧
        Exchange.request.plan s₀.pipeline.policy.rule n = messagesOf (s₀.deedsIn 0 es) ∧
        (s₀.go es).jobResult? 0 =
          some (.ok (.flow ⟨descriptor, .pushed Exchange.group.id⟩)) ∧
        Exchange.request.Story s₀.pipeline.policy n (s₀.deedsIn 0 es)
          (.ok (.flow ⟨descriptor, .pushed Exchange.group.id⟩)) := by
  have ht : (start.go Exchange.before).accepted? Exchange.request.device
      (.submit Exchange.request false) = some 0 := by decide
  let es := Exchange.before ++ .submit Exchange.request false :: Exchange.later
  have hsent : messagesOf (start.deedsIn 0 es) =
      [.groupMod ⟨.add, Exchange.group⟩, .flowMod (.by .deleteStrict Exchange.old.toStrict),
        .flowMod (.by .add Exchange.updated.toStrict), .barrierRequest] := by decide
  have hknown : ((start.go es).jobResult? 0).any (·.toOption =
      some (.flow ⟨Exchange.path.descriptor, .pushed Exchange.group.id⟩)) = true := by decide
  obtain ⟨result, hresult, hsuccess⟩ := (Option.any_eq_true ..).mp hknown
  obtain ⟨c, n, more, o, -, hn, hstory, -, hended, -⟩ :=
    flow_requests_follow_plan new_start ht rfl Exchange.later
  cases result with
  | error cause => cases of_decide_eq_true hsuccess
  | ok v =>
      cases of_decide_eq_true hsuccess
      rcases hended _ hresult with ⟨rfl, rfl, hplan⟩ | ⟨hbroken, -⟩
      · rw [List.append_nil] at hstory
        exact ⟨start, n, _, new_start, rfl, ht, hn, hsent, hplan.symm, hresult, hstory⟩
      · cases hbroken

end Southbound.System
