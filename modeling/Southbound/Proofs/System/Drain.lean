import Southbound.Proofs.System.Records

/-!
# Sessions that have ended come to their end

The jobs of a session that has ended do not wait.  Whatever else goes on or stands still,
the lane that was released can do its jobs one after another, the last of which clears the
device (`System.exists_blank`).

All of them were accepted before the jobs of the session that goes on
(`System.Ascending`).
-/

namespace Southbound.System

/-- Some events in which only one lane goes on. -/
def OnlyLane (l : LaneId) (es : List Event) : Prop := ∀ e ∈ es, e = .startJob l ∨ e = .stepJob l

variable {s s' : System} {d : DeviceId} {c : ConnectionId} {r : Record} {e : Event} {l : LaneId}
  {lane : Lane Job} {t : Ticket} {job : Job} {es es' : List Event}

theorem OnlyLane.append (h : OnlyLane l es) (h' : OnlyLane l es') : OnlyLane l (es ++ es') := by
  intro e he
  cases List.mem_append.mp he with
  | inl hmem => exact h e hmem
  | inr hmem => exact h' e hmem

theorem onlyLane_start (l : LaneId) : OnlyLane l [.startJob l] := by simp [OnlyLane]

theorem onlyLane_step (l : LaneId) : OnlyLane l [.stepJob l] := by simp [OnlyLane]

/-! ## Programs that do not wait -/

theorem results?_isSome {ps : List Promise} (h : ∀ p ∈ ps, (s.result? p).isSome) :
    (s.results? ps).isSome := by
  induction ps with
  | nil => rfl
  | cons p ps ih =>
      obtain ⟨hp, hps⟩ := List.forall_mem_cons.mp h
      obtain ⟨result, hresult⟩ := Option.isSome_iff_exists.mp hp
      obtain ⟨results, hresults⟩ := Option.isSome_iff_exists.mp (ih hps)
      rw [results?] at hresults ⊢
      simp [hresult, hresults]

/-- A program that can go on does not wait. -/
theorem perform_ne_wait {α : Type} {q : Effect} {next : q.Answer → Program α}
    (h : s.canRun (.step q next) = true) : s.perform d c q ≠ .wait := by
  cases q with
  | send m =>
      simp only [perform]
      split <;> simp
  | await p =>
      obtain ⟨result, hresult⟩ := Option.isSome_iff_exists.mp h
      simp [perform, hresult]
  | gather members last =>
      rw [canRun, Bool.and_eq_true, decide_eq_true_eq] at h
      obtain ⟨results, hresults⟩ :=
        Option.isSome_iff_exists.mp (results?_isSome (List.countP_eq_length.mp h.1))
      have hlast : ∀ p ∈ last.toList, (s.result? p).isSome := by
        cases last with
        | none => simp
        | some p => simpa using h.2
      obtain ⟨closing, hclosing⟩ := Option.isSome_iff_exists.mp (results?_isSome hlast)
      simp [perform, hresults, hclosing]
  | readGroup g =>
      simp only [perform]
      split <;> simp
  | _ => simp [perform]

/-! ## One job of a lane -/

theorem get?_finish (hl : s.pipeline.lanes.get? l = some lane)
    (hfinish : s'.pipeline.lanes = s.pipeline.lanes.modify l Lane.finish) :
    s'.pipeline.lanes.get? l = some lane.finish := by
  rw [hfinish, Lanes.get?_modify, if_pos rfl, hl]
  rfl

theorem get?_startJob (hl : s.pipeline.lanes.get? l = some lane) :
    (s.startJob l).pipeline.lanes.get? l = some lane.start := by
  rw [startJob, Lanes.get?_modify, if_pos rfl, hl]
  rfl

/-- The job of a lane is answered and put back. -/
theorem stepJob_answer {q : Effect} {next : q.Answer → Program (Outcome Result)} {a : q.Answer}
    (hl : s.pipeline.lanes.get? l = some lane)
    (hjob : lane.running = some ⟨t, .operate c (.step q next)⟩)
    (hperform : s.perform lane.device c q = .answer a s') :
    s.stepJob l = s'.suspendJob l ⟨t, .operate c (next a)⟩ ∧
      (s.stepJob l).pipeline.lanes.get? l =
        some { lane with running := some ⟨t, .operate c (next a)⟩ } := by
  have hstep : s.stepJob l = s'.suspendJob l ⟨t, .operate c (next a)⟩ := by
    simp [stepJob, hl, hjob, stepProgram, hperform]
  refine ⟨hstep, ?_⟩
  rw [hstep, (perform_effects hperform).lanes_suspendJob, Lanes.get?_modify, if_pos rfl, hl]
  rfl

section Released

/-- A program in a lane that was released runs to its end. -/
theorem exists_finished_program {rest : Program (Outcome Result)} (hserved : s.Served)
    (hl : s.pipeline.lanes.get? l = some lane) (hreleased : lane.released = true)
    (hjob : lane.running = some ⟨t, .operate c rest⟩) :
    ∃ es, OnlyLane l es ∧ (s.go es).pipeline.lanes.get? l = some lane.finish := by
  induction rest generalizing s lane with
  | done result =>
      refine ⟨[.stepJob l], onlyLane_step l, ?_⟩
      exact get?_finish hl (by simp [after, stepJob, hl, hjob, stepProgram, finishJob])
  | step q next ih =>
      have hready := (hserved.session lane.device).jobReady_of_released hserved.accounted hl rfl
        hreleased hjob
      rw [jobReady, hl, Option.bind_some, hjob] at hready
      cases hperform : s.perform lane.device c q with
      | answer a s₁ =>
          obtain ⟨-, hl'⟩ := stepJob_answer hl hjob hperform
          obtain ⟨es, hes, hfinished⟩ := ih a (hserved.after (.stepJob l)) hl' hreleased rfl
          exact ⟨.stepJob l :: es, (onlyLane_step l).append hes, hfinished⟩
      | wait => exact absurd hperform (perform_ne_wait hready)
      | breakOff =>
          refine ⟨[.stepJob l], onlyLane_step l, ?_⟩
          refine get?_finish hl ?_
          simp [after, stepJob, hl, hjob, stepProgram, hperform, finishJob]

/-- A job in a lane that was released is done, and it may have cleared the device. -/
theorem exists_finished (hserved : s.Served) (hl : s.pipeline.lanes.get? l = some lane)
    (hreleased : lane.released = true) (hjob : lane.running = some job) :
    ∃ es, OnlyLane l es ∧ (s.go es).pipeline.lanes.get? l = some lane.finish ∧
      (job.work = .clear → (s.go es).records lane.device = ([], {})) := by
  obtain ⟨t, work⟩ := job
  cases work with
  | operate c rest =>
      obtain ⟨es, hes, hfinished⟩ := exists_finished_program hserved hl hreleased hjob
      exact ⟨es, hes, hfinished, nofun⟩
  | observe f =>
      refine ⟨[.stepJob l], onlyLane_step l, ?_, nofun⟩
      exact get?_finish hl (by simp [after, stepJob, hl, hjob, finishJob])
  | clear =>
      refine ⟨[.stepJob l], onlyLane_step l, ?_, fun _ => ?_⟩
      · exact get?_finish hl (by simp [after, stepJob, hl, hjob, finishJob])
      · simp [after, stepJob, hl, hjob, finishJob, records, GroupPresence.groups,
          GroupPresence.clearDevice]

/-- A lane that was released does the job that it has begun and all others, and the last of
them clears the device. -/
theorem exists_blank_running (hserved : s.Served) (hl : s.pipeline.lanes.get? l = some lane)
    (hreleased : lane.released = true) (hjob : lane.running = some job) :
    ∃ es, OnlyLane l es ∧ (s.go es).records lane.device = ([], {}) := by
  generalize hwaiting : lane.waiting = waiting
  induction waiting generalizing s lane job with
  | nil =>
      obtain ⟨es, hes, -, hblank⟩ := exists_finished hserved hl hreleased hjob
      have hlane : lane ∈ s.pipeline.lanes.ofDevice lane.device :=
        Lanes.mem_ofDevice.mpr ⟨List.mem_of_getElem? hl, rfl⟩
      have hclear := (hserved.session lane.device).endsClear lane hlane hreleased
      rcases hclear.cases_running hjob with ⟨-, t, rfl⟩ | ⟨pre, t, hlast⟩
      · exact ⟨es, hes, hblank rfl⟩
      · simp [hwaiting] at hlast
  | cons next waiting ih =>
      obtain ⟨es, hes, hfinished, -⟩ := exists_finished hserved hl hreleased hjob
      have hstarted := get?_startJob hfinished
      rw [Lanes.start_of_canStart (l := lane.finish) rfl hwaiting] at hstarted
      have hserved' := (hserved.go es).after (.startJob l)
      obtain ⟨es', hes', hblank⟩ := ih hserved' hstarted hreleased rfl rfl
      refine ⟨es ++ .startJob l :: es', hes.append ((onlyLane_start l).append hes'), ?_⟩
      rw [go_append, go_cons]
      exact hblank

/-- A lane that was released and has jobs does them, and the last of them clears the
device. -/
theorem exists_blank (hserved : s.Served) (hl : s.pipeline.lanes.get? l = some lane)
    (hreleased : lane.released = true) (hjobs : lane.jobs ≠ []) :
    ∃ es, OnlyLane l es ∧ (s.go es).records lane.device = ([], {}) := by
  cases hrunning : lane.running with
  | some job => exact exists_blank_running hserved hl hreleased hrunning
  | none =>
      cases hwaiting : lane.waiting with
      | nil => simp [Lane.jobs, hrunning, hwaiting] at hjobs
      | cons job waiting =>
          have hl' := get?_startJob hl
          rw [Lanes.start_of_canStart hrunning hwaiting] at hl'
          obtain ⟨es, hes, hblank⟩ :=
            exists_blank_running (hserved.after (.startJob l)) hl' hreleased rfl
          exact ⟨.startJob l :: es, (onlyLane_start l).append hes, hblank⟩

end Released

/-! ## While only one lane goes on -/

/-- The jobs of a lane that goes on have numbers that its jobs had before. -/
theorem exists_lane_after (hl : s.pipeline.lanes.get? l = some lane)
    (he : e = .startJob l ∨ e = .stepJob l) :
    ∃ lane', (s.after e).pipeline.lanes.get? l = some lane' ∧
      ∀ t ∈ lane'.jobs.map Job.ticket, t ∈ lane.jobs.map Job.ticket := by
  rcases he with rfl | rfl
  · refine ⟨lane.start, get?_startJob hl, ?_⟩
    rw [Lane.jobs_start]
    exact fun _ => id
  · have hstep := jobStep_stepJob s l
    show ∃ lane', (s.stepJob l).pipeline.lanes.get? l = some lane' ∧ _
    generalize s.stepJob l = s' at hstep ⊢
    have hfinish (hlanes : s'.pipeline.lanes = s.pipeline.lanes.modify l Lane.finish) :
        ∃ lane', s'.pipeline.lanes.get? l = some lane' ∧
          ∀ t ∈ lane'.jobs.map Job.ticket, t ∈ lane.jobs.map Job.ticket := by
      refine ⟨lane.finish, get?_finish hl hlanes, fun t ht => ?_⟩
      rw [Lane.jobs, List.map_append]
      exact List.mem_append_right _ ht
    cases hstep with
    | still => exact ⟨lane, hl, fun _ => id⟩
    | @answer lane₀ t c q next a s₁ hl₀ hjob hperform =>
        cases hl.symm.trans hl₀
        refine ⟨{ lane with running := some ⟨t, .operate c (next a)⟩ }, ?_, fun t' ht' => ?_⟩
        · rw [(perform_effects hperform).lanes_suspendJob, Lanes.get?_modify, if_pos rfl, hl]
          rfl
        · rw [Lane.jobs_of_running hjob]
          exact ht'
    | _ => exact hfinish rfl

/-- Whatever jobs that were accepted earlier do, it disturbs no record. -/
theorem OnlyLane.undisturbed (hes : OnlyLane l es) (hl : s.pipeline.lanes.get? l = some lane)
    (hearlier : ∀ t' ∈ lane.jobs.map Job.ticket, t' ≤ t) : s.Undisturbed d r t es := by
  induction es generalizing s lane with
  | nil => trivial
  | cons e es ih =>
      obtain ⟨he, hes⟩ := List.forall_mem_cons.mp hes
      obtain ⟨lane', hl', hsub⟩ := exists_lane_after hl he
      refine ⟨fun t' hsource hlt => ?_, ih hes hl' fun t' ht' => hearlier t' (hsub t' ht')⟩
      obtain ⟨l₀, lane₀, job, rfl, hl₀, hjob, rfl⟩ := sourceOf?_eq_some hsource
      rcases he with he | he
      · cases he
      · cases he
        cases hl.symm.trans hl₀
        have hle := hearlier job.ticket (List.mem_map_of_mem (Lane.mem_jobs.mpr (.inl hjob)))
        exact absurd hlt (Nat.not_lt.mpr hle)

/-- Jobs detach no device. -/
theorem OnlyLane.staysAttached (hes : OnlyLane l es) (hplain : s.Plain) :
    s.StaysAttached d es := by
  induction es generalizing s with
  | nil => trivial
  | cons e es ih =>
      obtain ⟨he, hes⟩ := List.forall_mem_cons.mp hes
      have hadministers : e.administers = false := by
        rcases he with rfl | rfl <;> rfl
      refine ⟨fun hsome => ?_, ih hes (step_after hplain e).2⟩
      rw [(attached_after_of_not_administers hplain hadministers).1]
      exact hsome

/-! ## The order of the jobs of all sessions -/

/-- The jobs of a device are in the order in which they were accepted, session by
session. -/
structure Ascending (s : System) (d : DeviceId) : Prop where
  ascending : (s.jobTickets d).Pairwise (· < ·)
  /-- The next number is greater than all these. -/
  bounded : ∀ t ∈ s.jobTickets d, t < s.pipeline.tickets

theorem ascending_new {config : Config} {s₀ : System} (h : System.new config = .ok s₀)
    (d : DeviceId) : s₀.Ascending d := by
  cases eq_of_new h
  exact ⟨.nil, List.forall_mem_nil _⟩

/-- A job joins the last lane, or those that are left are in their order. -/
theorem DeviceStep.jobTickets (h : DeviceStep s d e s') :
    s'.jobTickets d = s.jobTickets d ++ [s.pipeline.tickets] ∧
        s'.pipeline.tickets = s.pipeline.tickets + 1 ∨
      (s'.jobTickets d).Sublist (s.jobTickets d) ∧ s.pipeline.tickets ≤ s'.pipeline.tickets := by
  simp only [System.jobTickets, Lanes.jobsOf]
  have hjoined {pre : List (Lane Job)} {last : Lane Job}
      (hopen : OpenLane (s.pipeline.lanes.ofDevice d) pre last) (job : Job) :
      ((pre ++ [last.push job]).flatMap Lane.jobs).map Job.ticket =
        ((s.pipeline.lanes.ofDevice d).flatMap Lane.jobs).map Job.ticket ++ [job.ticket] := by
    rcases hopen.last with hall | ⟨hall, hnone⟩
    · simp [hall, Lane.jobs_push]
    · simp [hall, Lane.jobs_push, hnone]
  cases h with
  | aside hlanes _ htickets _ =>
      rw [hlanes]
      exact .inr ⟨.refl _, htickets⟩
  | queued _ hopen hlanes _ htickets _ => exact .inl ⟨by rw [hlanes, hjoined hopen], htickets⟩
  | detached _ _ hopen hlanes _ htickets _ =>
      refine .inl ⟨?_, htickets⟩
      rw [hlanes, ← hjoined hopen ⟨s.pipeline.tickets, .clear⟩]
      simp [Lane.jobs, Lane.push]
  | worked _ hbefore hbehind hwork htickets _ =>
      refine .inr ⟨?_, Nat.le_of_eq htickets.symm⟩
      rw [hbefore, hbehind]
      simp only [List.flatMap_append, List.flatMap_cons, List.map_append]
      refine (List.Sublist.refl _).append (List.Sublist.append ?_ (.refl _))
      rcases hwork.jobs with hsame | ⟨job, -, hjobs, hdone | ⟨c, rest, rest', -, hnext⟩⟩
      · simp [hsame]
      · rw [hdone, hjobs]
        exact List.sublist_cons_self _ _
      · rw [hnext, hjobs]
        exact .refl _

theorem Ascending.after (hserved : s.Served) (h : s.Ascending d) (e : Event) :
    (s.after e).Ascending d := by
  have hstep := deviceStep_after hserved.plain (hserved.session d).orderly e
  rcases hstep.jobTickets with ⟨hjoined, htickets⟩ | ⟨hsub, htickets⟩
  · constructor
    · rw [hjoined, List.pairwise_append]
      refine ⟨h.ascending, List.pairwise_singleton .., ?_⟩
      intro t ht t' ht'
      rw [List.mem_singleton.mp ht']
      exact h.bounded t ht
    · intro t ht
      rw [hjoined] at ht
      rw [htickets]
      cases List.mem_append.mp ht with
      | inl hold => exact Nat.lt_succ_of_lt (h.bounded t hold)
      | inr hnew => exact List.mem_singleton.mp hnew ▸ Nat.lt_succ_self _
  · refine ⟨h.ascending.sublist hsub, ?_⟩
    intro t ht
    exact Nat.lt_of_lt_of_le (h.bounded t (hsub.subset ht)) htickets

end Southbound.System
