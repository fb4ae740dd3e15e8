import Mathlib.Algebra.Ring.Nat
import Southbound.Proofs.Jobs.Alike

/-!
# Each job is done once

Whatever is queued and released, each job is done at most once, and whoever queued it gets the
result of that job and of no other (`Workshop.jobs_done_once`).  When the lanes go on until
none can, a job is left only in a lane that waits for a closed gate, and released lanes go on
like any other (`Workshop.settled_or_held`).
-/

namespace Southbound.Workshop

variable {α : Type} {w w' : Workshop α}

/-! ## Until no lane can go on -/

/-- How often lanes can go on: twice for each job that waits, and once for each that is being
done. -/
def stepsLeft (w : Workshop α) : Nat :=
  (w.lanes.all.map fun l => 2 * l.waiting.length + l.running.toList.length).sum

/-- A lane that goes on has fewer steps left.  Otherwise it rests. -/
theorem Stepped.rests_or_lt {i : LaneId} (hs : w.Stepped i w') :
    (w' = w ∧ ∀ l, w.lanes.get? i = some l → Rests w.gates l) ∨ w'.stepsLeft < w.stepsLeft := by
  cases hs with
  | still hrests => exact .inl ⟨rfl, hrests⟩
  | start l job jobs hl hr hw =>
      obtain ⟨pre, post, hall, hmod⟩ := Lanes.all_modify hl
      right
      simp only [stepsLeft, hmod, hall, Lanes.start_of_canStart hr hw, hr, hw, List.map_append,
        List.map_cons, List.sum_append, List.sum_cons, List.length_cons, Option.toList_none,
        Option.toList_some, List.length_nil]
      omega
  | finish l job written hl hr _ =>
      obtain ⟨pre, post, hall, hmod⟩ := Lanes.all_modify hl
      right
      simp only [stepsLeft, hmod, hall, Lane.finish, hr, List.map_append, List.map_cons,
        List.sum_append, List.sum_cons, Option.toList_none, Option.toList_some, List.length_cons,
        List.length_nil]
      omega

/-- Of some lanes one goes on, or all rest. -/
theorem foldl_step_cases (w : Workshop α) (is : List LaneId) :
    (is.foldl step w = w ∧ ∀ i ∈ is, ∀ l, w.lanes.get? i = some l → Rests w.gates l) ∨
      (is.foldl step w).stepsLeft < w.stepsLeft := by
  induction is generalizing w with
  | nil => exact .inl ⟨rfl, List.forall_mem_nil _⟩
  | cons i is ih =>
      rw [List.foldl_cons]
      rcases (w.stepped_step i).rests_or_lt with ⟨hsame, hrests⟩ | hless
      · rw [hsame]
        exact (ih w).imp_left fun ⟨he, hall⟩ => ⟨he, List.forall_mem_cons.mpr ⟨hrests, hall⟩⟩
      · refine .inr (Nat.lt_of_le_of_lt ?_ hless)
        rcases ih (w.step i) with ⟨he, -⟩ | hlt
        · exact Nat.le_of_eq (congrArg stepsLeft he)
        · exact Nat.le_of_lt hlt

/-- No lane can go on. -/
def AtRest (w : Workshop α) : Prop := ∀ l ∈ w.lanes.all, Rests w.gates l

theorem round_cases (w : Workshop α) :
    (w.round = w ∧ w.AtRest) ∨ w.round.stepsLeft < w.stepsLeft := by
  refine (w.foldl_step_cases _).imp_left fun ⟨he, hall⟩ => ⟨he, fun l hl => ?_⟩
  obtain ⟨i, hi, hget⟩ := List.mem_iff_getElem.mp hl
  exact hall i (List.mem_range.mpr hi) l (List.getElem?_eq_some_iff.mpr ⟨hi, hget⟩)

theorem atRest_rounds {n : Nat} (h : w.stepsLeft ≤ n) : (w.rounds n).AtRest := by
  have hrest (n : Nat) {w : Workshop α} (he : w.round = w) (hw : w.AtRest) :
      (w.rounds n).AtRest := by
    induction n with
    | zero => exact hw
    | succ n ih =>
        rw [rounds, he]
        exact ih
  induction n generalizing w with
  | zero =>
      rcases w.round_cases with ⟨he, hw⟩ | hless
      · exact hrest 0 he hw
      · exact absurd (Nat.lt_of_lt_of_le hless h) (Nat.not_lt_zero _)
  | succ n ih =>
      rcases w.round_cases with ⟨he, hw⟩ | hless
      · exact hrest (n + 1) he hw
      · exact ih (Nat.le_of_lt_succ (Nat.lt_of_lt_of_le hless h))

theorem stepsLeft_le (w : Workshop α) : w.stepsLeft ≤ 2 * w.openJobs := by
  rw [stepsLeft, openJobs]
  induction w.lanes.all with
  | nil => exact Nat.le_refl _
  | cons l ls ih =>
      simp only [List.map_cons, List.sum_cons, List.flatMap_cons, List.length_append, Lane.jobs]
      omega

/-- When the lanes go on until none can, none can. -/
theorem atRest_settle (w : Workshop α) : w.settle.AtRest := atRest_rounds w.stepsLeft_le

/-- To let the lanes go on until none can is a run in which lanes go on. -/
theorem settle_eq_go (w : Workshop α) :
    ∃ lanes : List LaneId, w.settle = w.go (lanes.map .step) := by
  rw [settle]
  generalize 2 * w.openJobs = n
  induction n generalizing w with
  | zero => exact ⟨[], rfl⟩
  | succ n ih =>
      obtain ⟨lanes, he⟩ := ih w.round
      refine ⟨List.range w.lanes.all.length ++ lanes, ?_⟩
      rw [rounds, he, round_eq_go, ← go_append, List.map_append]

/-! ## What has become of a job -/

/-- What has become of a job, which was queued for a device with a task. -/
inductive Stage (w : Workshop α) (n : Nat) (d : DeviceId) (task : ScriptedTask α) : Prop where
  /-- It waits in a lane of its device. -/
  | waits (l : Lane (ScriptedJob α)) : l ∈ w.lanes.all → l.device = d → ⟨n, task⟩ ∈ l.waiting →
      n ∉ w.starts → w.done.lookup n = none → Stage w n d task
  /-- A lane of its device does it, and it was started once. -/
  | runs (l : Lane (ScriptedJob α)) : l ∈ w.lanes.all → l.device = d →
      l.running = some ⟨n, task⟩ → w.starts.count n = 1 → w.done.lookup n = none →
      Stage w n d task
  /-- It was started once and has ended once, with the result of its task. -/
  | ended : n ∉ w.waiting → n ∉ w.running → w.starts.count n = 1 → w.ended.count n = 1 →
      w.done.lookup n = some (task.result d) → Stage w n d task

theorem lookup_eq_none_iff {n : Nat} : w.done.lookup n = none ↔ n ∉ w.ended := by
  rw [List.lookup_eq_none_iff, ended, List.mem_map]
  constructor
  · rintro h ⟨p, hp, rfl⟩
    simpa using h p hp
  · intro h p hp
    exact bne_iff_ne.mpr fun he => h ⟨p, hp, he.symm⟩

section Stage

variable {jobs : List (DeviceId × ScriptedTask α)} {n : Nat} {d : DeviceId}
  {task : ScriptedTask α}

/-- A job is that under its number. -/
theorem Keeps.job_eq (h : w.Keeps jobs) (hn : jobs[n]? = some (d, task))
    {l : Lane (ScriptedJob α)} (hl : l ∈ w.lanes.all) {job : ScriptedJob α} (hjob : job ∈ l.jobs)
    (hnumber : job.number = n) : l.device = d ∧ job = ⟨n, task⟩ := by
  obtain ⟨i, hi, hget⟩ := List.mem_iff_getElem.mp hl
  have hsame : jobs[job.number]? = some (l.device, job.task) :=
    h.lanes i l (List.getElem?_eq_some_iff.mpr ⟨hi, hget⟩) job hjob
  rw [hnumber, hn] at hsame
  obtain ⟨rfl, rfl⟩ := Prod.mk.inj (Option.some.inj hsame)
  exact ⟨rfl, hnumber ▸ rfl⟩

theorem Keeps.lookup_of_ended (h : w.Keeps jobs) (hn : jobs[n]? = some (d, task))
    (hended : n ∈ w.ended) : w.done.lookup n = some (task.result d) := by
  cases hlookup : w.done.lookup n with
  | none => exact absurd hended (lookup_eq_none_iff.mp hlookup)
  | some o =>
      obtain ⟨before, later, he, -⟩ := List.lookup_eq_some_iff.mp hlookup
      obtain ⟨d', task', hjob, rfl⟩ := h.done n o (he ▸ List.mem_append_right _ (.head _))
      rw [hn] at hjob
      obtain ⟨rfl, rfl⟩ := Prod.mk.inj (Option.some.inj hjob)
      rfl

/-- The results of jobs that were queued alike are the same where the same jobs have ended. -/
theorem Keeps.lookup_congr {jobs' : List (DeviceId × ScriptedTask α)} (h : w.Keeps jobs)
    (h' : w'.Keeps jobs') (hshape : w.shape = w'.shape) (hn : jobs[n]? = jobs'[n]?) :
    w.done.lookup n = w'.done.lookup n := by
  have hsame : w.ended = w'.ended := by rw [← ended_shape w, hshape, ended_shape]
  by_cases hended : n ∈ w.ended
  · obtain ⟨⟨_, o⟩, hmem, rfl⟩ := List.mem_map.mp hended
    obtain ⟨d, task, hjob, -⟩ := h.done _ o hmem
    rw [h.lookup_of_ended hjob hended, h'.lookup_of_ended (hn ▸ hjob) (hsame ▸ hended)]
  · rw [lookup_eq_none_iff.mpr hended, lookup_eq_none_iff.mpr (hsame ▸ hended)]

/-- Each job that was queued waits, is being done or has ended. -/
theorem Tidy.stage (htidy : w.Tidy) (hkeeps : w.Keeps jobs) (hn : jobs[n]? = some (d, task)) :
    Stage w n d task := by
  have hlt : n < w.next := hkeeps.count ▸ (List.getElem?_eq_some_iff.mp hn).1
  have hone : w.waiting.count n + (w.running.count n + w.ended.count n) = 1 := by
    rw [← List.count_append, ← List.count_append, htidy.places.count_eq]
    exact (List.nodup_range.count).trans (if_pos (List.mem_range.mpr hlt))
  have hstarts : w.starts.count n = w.running.count n + w.ended.count n := by
    rw [htidy.starts.count_eq, List.count_append]
  by_cases hwaiting : n ∈ w.waiting
  · have hpos := List.count_pos_iff.mpr hwaiting
    obtain ⟨l, hl, hmem⟩ := List.mem_flatMap.mp hwaiting
    obtain ⟨job, hjob, hnumber⟩ := List.mem_map.mp hmem
    obtain ⟨hd, rfl⟩ := hkeeps.job_eq hn hl (Lane.mem_jobs.mpr (.inr hjob)) hnumber
    refine .waits l hl hd hjob (List.count_eq_zero.mp (by omega)) (lookup_eq_none_iff.mpr ?_)
    exact List.count_eq_zero.mp (by omega)
  by_cases hrunning : n ∈ w.running
  · have hpos := List.count_pos_iff.mpr hrunning
    obtain ⟨l, hl, hmem⟩ := List.mem_flatMap.mp hrunning
    obtain ⟨job, hjob, hnumber⟩ := List.mem_map.mp hmem
    have hjob : l.running = some job := Option.mem_toList.mp hjob
    obtain ⟨hd, rfl⟩ := hkeeps.job_eq hn hl (Lane.mem_jobs.mpr (.inl hjob)) hnumber
    refine .runs l hl hd hjob (by omega) (lookup_eq_none_iff.mpr ?_)
    exact List.count_eq_zero.mp (by omega)
  · rw [List.count_eq_zero.mpr hwaiting, List.count_eq_zero.mpr hrunning] at hone
    rw [List.count_eq_zero.mpr hrunning] at hstarts
    refine .ended hwaiting hrunning (by omega) (by omega) (hkeeps.lookup_of_ended hn ?_)
    exact List.count_pos_iff.mp (by omega)

end Stage

/-! ## All jobs -/

/-- Lanes that go on queue nothing. -/
theorem keeps_settle (es : List (Event α)) : (run es).settle.Keeps (jobsIn es) := by
  obtain ⟨lanes, he⟩ := (run es).settle_eq_go
  have hnone : jobsIn (lanes.map (Event.step (α := α))) = [] :=
    List.flatMap_eq_nil_iff.mpr fun e he => by
      obtain ⟨i, -, rfl⟩ := List.mem_map.mp he
      rfl
  have h := (keeps_run es).go (lanes.map .step)
  rwa [hnone, List.append_nil, ← he] at h

theorem tidy_settle (es : List (Event α)) : (run es).settle.Tidy := by
  obtain ⟨lanes, he⟩ := (run es).settle_eq_go
  rw [he]
  exact (tidy_run es).go _

/-- When the lanes go on until none can, a job has ended unless its lane is held. -/
theorem settled_or_held {es : List (Event α)} {n : Nat} {d : DeviceId} {task : ScriptedTask α}
    (hn : (jobsIn es)[n]? = some (d, task)) :
    (run es).settle.done.lookup n = some (task.result d) ∨
      ∃ l ∈ (run es).settle.lanes.all, l.device = d ∧ ⟨n, task⟩ ∈ l.jobs ∧
        Held (run es).settle.gates l := by
  have hheld {l : Lane (ScriptedJob α)} (hl : l ∈ (run es).settle.lanes.all)
      (hjob : ⟨n, task⟩ ∈ l.jobs) : Held (run es).settle.gates l :=
    ((run es).atRest_settle l hl).resolve_left (List.ne_nil_of_mem hjob)
  cases (tidy_settle es).stage (keeps_settle es) hn with
  | waits l hl hd hjob _ _ =>
      have hjob : ⟨n, task⟩ ∈ l.jobs := Lane.mem_jobs.mpr (.inr hjob)
      exact .inr ⟨l, hl, hd, hjob, hheld hl hjob⟩
  | runs l hl hd hjob _ _ =>
      have hjob : ⟨n, task⟩ ∈ l.jobs := Lane.mem_jobs.mpr (.inl hjob)
      exact .inr ⟨l, hl, hd, hjob, hheld hl hjob⟩
  | ended _ _ _ _ hresult => exact .inl hresult

/-- What whoever queued a job has got is its result, if they still wait for it. -/
theorem future?_eq (es : List (Event α)) (n : Nat) :
    (.drop n ∉ es ∧ future? es n = (run es).done.lookup n) ∨ .drop n ∈ es ∧ future? es n = none := by
  rw [future?]
  by_cases hdropped : Event.drop n ∈ es
  · have hany : es.any (·.drops n) = true :=
      List.any_eq_true.mpr ⟨_, hdropped, decide_eq_true rfl⟩
    exact .inr ⟨hdropped, if_pos hany⟩
  · have hany : ¬es.any (·.drops n) = true := by
      intro hany
      obtain ⟨e, he, hdrops⟩ := List.any_eq_true.mp hany
      cases e with
      | drop job => exact hdropped (of_decide_eq_true hdrops ▸ he)
      | enqueue d task => cases hdrops
      | removeDevice d => cases hdrops
      | openGate gate => cases hdrops
      | step i => cases hdrops
    exact .inl ⟨hdropped, if_neg hany⟩

/-- Each job waits, is being done or has ended, and is started once.  A job that has ended has
given the result of its task to whoever queued it, if they still wait for it, and it failed as
broken off if it was, or if that is the failure that it returned.  When the lanes go on until
none can, which is a run too, a job has ended unless its lane does one that waits for a closed
gate.  How jobs end and who waits for them makes no difference to which jobs start and end, nor
to the results of other jobs. -/
theorem jobs_done_once (es : List (Event α)) :
    (∀ n d task, (jobsIn es)[n]? = some (d, task) →
      Stage (run es) n d task ∧
      (∀ o, future? es n = some o → o = task.result d ∧
        (o = .error (.brokenOff d) ↔ task = .breakOff ∨ task = .refuse (.brokenOff d))) ∧
      (n ∈ (run es).ended → .drop n ∉ es → future? es n = some (task.result d)) ∧
      ((run es).settle.done.lookup n = some (task.result d) ∨
        ∃ l ∈ (run es).settle.lanes.all, l.device = d ∧ ⟨n, task⟩ ∈ l.jobs ∧
          Held (run es).settle.gates l)) ∧
    (∃ lanes : List LaneId, (run es).settle = run (es ++ lanes.map .step)) ∧
    ∀ es', Alike es es' →
      (run es).shape = (run es').shape ∧ (run es).settle.shape = (run es').settle.shape ∧
      ∀ n, (jobsIn es)[n]? = (jobsIn es')[n]? →
        (run es).done.lookup n = (run es').done.lookup n ∧
        (run es).settle.done.lookup n = (run es').settle.done.lookup n := by
  have hkeeps := keeps_run es
  refine ⟨fun n d task hn => ⟨(tidy_run es).stage hkeeps hn, fun o ho => ?_, fun hended hkept => ?_,
    settled_or_held hn⟩, ?_, fun es' halike => ?_⟩
  · have hresult : o = task.result d := by
      rcases future?_eq es n with ⟨-, he⟩ | ⟨-, he⟩
      · have hlookup := he.symm.trans ho
        by_cases hended : n ∈ (run es).ended
        · rw [hkeeps.lookup_of_ended hn hended] at hlookup
          exact (Option.some.inj hlookup).symm
        · rw [lookup_eq_none_iff.mpr hended] at hlookup
          cases hlookup
      · cases he.symm.trans ho
    rw [hresult]
    exact ⟨rfl, ScriptedTask.result_eq_brokenOff_iff⟩
  · rcases future?_eq es n with ⟨-, he⟩ | ⟨hdropped, -⟩
    · rw [he, hkeeps.lookup_of_ended hn hended]
    · exact absurd hdropped hkept
  · obtain ⟨lanes, he⟩ := (run es).settle_eq_go
    exact ⟨lanes, by rw [he, run, run, go_append]⟩
  · have hshape : (run es).shape = (run es').shape := halike.shape_go rfl
    refine ⟨hshape, shape_settle_congr hshape, fun n hn => ⟨?_, ?_⟩⟩
    · exact hkeeps.lookup_congr (keeps_run es') hshape hn
    · exact (keeps_settle es).lookup_congr (keeps_settle es') (shape_settle_congr hshape) hn

/-! ## A job that breaks off -/

namespace Mixed

/-- The lane of the first two jobs is released, and the third has another.  Nobody waits for
the result of the second. -/
def events (first : ScriptedTask Nat) : List (Event Nat) :=
  [.enqueue ⟨"a"⟩ first, .enqueue ⟨"a"⟩ (.give 1), .drop 1, .removeDevice ⟨"a"⟩,
    .enqueue ⟨"a"⟩ (.refuse .cancelled), .step 0, .step 0, .step 0, .step 1, .step 1, .step 0]

theorem alike (first first' : ScriptedTask Nat) (h : first.shape = first'.shape) :
    Alike (events first) (events first') :=
  .task _ h (Alike.refl _)

end Mixed

/-- The first of three jobs breaks off.  All are done, and the others end as they do when the
first returns a value. -/
theorem jobs_done_once_of_mixed :
    (jobsIn (Mixed.events .breakOff))[0]? = some (⟨"a"⟩, .breakOff) ∧
      (run (Mixed.events .breakOff)).ended = [1, 2, 0] ∧
      future? (Mixed.events .breakOff) 0 = some (.error (.brokenOff ⟨"a"⟩)) ∧
      future? (Mixed.events .breakOff) 1 = none ∧
      future? (Mixed.events .breakOff) 2 = some (.error .cancelled) ∧
      (run (Mixed.events .breakOff)).done.lookup 1 =
        (run (Mixed.events (.give 0))).done.lookup 1 := by
  have h := jobs_done_once (Mixed.events .breakOff)
  have hended : (run (Mixed.events .breakOff)).ended = [1, 2, 0] := rfl
  have hfirst := (h.1 0 ⟨"a"⟩ .breakOff rfl).2.2.1
  have hthird := (h.1 2 ⟨"a"⟩ (.refuse .cancelled) rfl).2.2.1
  have hothers := (h.2.2 _ (Mixed.alike .breakOff (.give 0) rfl)).2.2 1 rfl
  rw [hended] at hfirst hthird
  refine ⟨rfl, hended, hfirst (by decide) ?_, rfl, hthird (by decide) ?_, hothers.1⟩
  · simp [Mixed.events]
  · simp [Mixed.events]

end Southbound.Workshop
