import Southbound.Proofs.Jobs.AllJobs

/-!
# Where the jobs of a workshop are

What can happen to a `Workshop` is a `Workshop.Event`.  When a lane goes on is left open, so a
list of events is a run under any schedule, and a job that takes long is one whose lane does
not go on.  Nobody needs to wait for the result of a job, and the lanes do not know who does
(`Workshop.Event.drop`).

Each job is in one place: it waits in a lane, it is the one that a lane does, or it has ended.
Those that do not wait were started, each once (`Workshop.Tidy`).  A job keeps its device and
its task wherever it is, and if it has ended its result is that of its task
(`Workshop.Keeps`).
-/

namespace Southbound

variable {ι α : Type}

/-! ## Lanes among others -/

namespace Lanes

variable {ls : Lanes ι} {d : DeviceId}

/-- A lane that is changed stays in its place. -/
theorem all_modify {i : LaneId} {l : Lane ι} (h : ls.get? i = some l) :
    ∃ pre post, ls.all = pre ++ l :: post ∧
      ∀ f : Lane ι → Lane ι, (ls.modify i f).all = pre ++ f l :: post := by
  rw [get?, List.getElem?_eq_some_iff] at h
  obtain ⟨hi, rfl⟩ := h
  refine ⟨ls.all.take i, ls.all.drop (i + 1), ?_, fun f => ?_⟩
  · rw [← List.drop_eq_getElem_cons hi, List.take_append_drop]
  · exact List.modify_eq_take_cons_drop hi

/-- A job joins the one lane that takes the jobs of its device, or a new one. -/
theorem all_enqueue (h : Orderly (ls.ofDevice d)) (job : ι) :
    (∃ generation,
        (ls.enqueue d job).all = ls.all ++ [{ device := d, generation, waiting := [job] }]) ∨
      ∃ pre l post, ls.all = pre ++ l :: post ∧
        (ls.enqueue d job).all = pre ++ l.push job :: post := by
  by_cases hany : ls.all.any (·.takes d) = true
  · obtain ⟨l, hl, htakes⟩ := List.any_eq_true.mp hany
    obtain ⟨pre, post, hall⟩ := List.append_of_mem hl
    simp only [Lane.takes, Bool.and_eq_true, decide_eq_true_eq, Bool.not_eq_true'] at htakes
    obtain ⟨rfl, hopen⟩ := htakes
    -- Of two lanes of the device, the first would be released.
    have hofDevice : ls.ofDevice l.device = pre.filter (·.device = l.device) ++
        l :: post.filter (·.device = l.device) := by
      rw [ofDevice, hall, List.filter_append, List.filter_cons_of_pos (by simp)]
    rw [Orderly, hofDevice, List.pairwise_append, List.pairwise_cons] at h
    have hpre {l' : Lane ι} (hl' : l' ∈ pre) : l'.takes l.device = false := by
      rw [Lane.takes, Bool.and_eq_false_iff, Bool.not_eq_false']
      refine (Decidable.em (l'.device = l.device)).symm.imp (by simpa using ·) fun hd => ?_
      exact h.2.2 l' (List.mem_filter.mpr ⟨hl', by simpa using hd⟩) l (.head _)
    have hpost {l' : Lane ι} (hl' : l' ∈ post) : l'.takes l.device = false := by
      rw [Lane.takes, Bool.and_eq_false_iff]
      refine .inl (decide_eq_false fun hd => ?_)
      have hreleased := h.2.1.1 l' (List.mem_filter.mpr ⟨hl', by simpa using hd⟩)
      rw [hopen] at hreleased
      cases hreleased
    have hkeep {ls' : List (Lane ι)} (hno : ∀ l' ∈ ls', l'.takes l.device = false) :
        ls'.map (fun l' => if l'.takes l.device then l'.push job else l') = ls' :=
      (List.map_congr_left fun l' hl' => by rw [hno l' hl']; rfl).trans (List.map_id' ls')
    refine .inr ⟨pre, l, post, hall, ?_⟩
    have hself : l.takes l.device = true := by simp [Lane.takes, hopen]
    rw [enqueue, if_pos hany, hall, List.map_append, List.map_cons, hkeep fun _ => hpre,
      hkeep fun _ => hpost, if_pos hself]
  · exact .inl ⟨_, by rw [enqueue, if_neg hany]⟩

end Lanes

/-! ## Tasks -/

namespace ScriptedTask

/-- The gate that a task waits for. -/
def waitsFor? : ScriptedTask α → Option String
  | pass gate _ => some gate
  | _ => none

/-- The gate that a task opens. -/
def opens? : ScriptedTask α → Option String
  | unlock gate _ => some gate
  | _ => none

/-- The result of a task of a device.  A task that breaks off has none of its own, and fails. -/
def result (d : DeviceId) : ScriptedTask α → Outcome α
  | give value => .ok value
  | refuse cause => .error cause
  | breakOff => .error (.brokenOff d)
  | pass _ value => .ok value
  | unlock _ value => .ok value

/-- A task fails as broken off if it is, or if that is the very failure that it returns. -/
theorem result_eq_brokenOff_iff {d : DeviceId} {task : ScriptedTask α} :
    task.result d = .error (.brokenOff d) ↔
      task = .breakOff ∨ task = .refuse (.brokenOff d) := by
  cases task <;> simp [result]

end ScriptedTask

namespace Workshop

variable {w : Workshop α}

/-- A task ends unless the gate that it waits for is closed. -/
theorem outcome?_cases (w : Workshop α) (d : DeviceId) (task : ScriptedTask α) :
    w.outcome? d task = some (task.result d, task.opens?) ∨
      w.outcome? d task = none ∧ ∃ gate, task.waitsFor? = some gate ∧ gate ∉ w.gates := by
  cases task with
  | pass gate value =>
      by_cases hgate : w.gates.contains gate = true
      · exact .inl (if_pos hgate)
      · exact .inr ⟨if_neg hgate, gate, rfl, by simpa using hgate⟩
  | give value => exact .inl rfl
  | refuse cause => exact .inl rfl
  | breakOff => exact .inl rfl
  | unlock gate value => exact .inl rfl

/-! ## Events -/

/-- What can happen to a workshop. -/
inductive Event (α : Type) where
  | enqueue (device : DeviceId) (task : ScriptedTask α)
  | removeDevice (device : DeviceId)
  | openGate (gate : String)
  /-- A lane goes on. -/
  | step (lane : LaneId)
  /-- Nobody waits for the result of a job any more. -/
  | drop (job : Nat)

def after (w : Workshop α) : Event α → Workshop α
  | .enqueue d task => (w.enqueue d task).2
  | .removeDevice d => (w.removeDevice d).2
  | .openGate gate => w.openGate gate
  | .step i => w.step i
  | .drop _ => w

def go (w : Workshop α) (es : List (Event α)) : Workshop α := es.foldl after w

/-- A workshop after some events, in which there were no jobs before. -/
def run (es : List (Event α)) : Workshop α := ({} : Workshop α).go es

theorem go_append (w : Workshop α) (es es' : List (Event α)) :
    w.go (es ++ es') = (w.go es).go es' :=
  List.foldl_append

/-- To let every lane go on once is a run. -/
theorem round_eq_go (w : Workshop α) :
    w.round = w.go ((List.range w.lanes.all.length).map .step) := by
  rw [round, go, List.foldl_map]
  rfl

/-- The job that is queued in an event. -/
def Event.queued : Event α → List (DeviceId × ScriptedTask α)
  | enqueue d task => [(d, task)]
  | _ => []

/-- The jobs that are queued in some events, each at its number. -/
def jobsIn (es : List (Event α)) : List (DeviceId × ScriptedTask α) := es.flatMap Event.queued

/-- Whether nobody waits for the result of a job after an event. -/
def Event.drops (n : Nat) : Event α → Bool
  | drop job => job = n
  | _ => false

/-- What whoever queued a job has got after some events. -/
def future? (es : List (Event α)) (n : Nat) : Option (Outcome α) :=
  if es.any (·.drops n) then none else (run es).done.lookup n

/-! ## What a lane does when it goes on -/

/-- A lane whose job waits for a gate that is closed. -/
def Held (gates : List String) (l : Lane (ScriptedJob α)) : Prop :=
  ∃ job gate, l.running = some job ∧ job.task.waitsFor? = some gate ∧ gate ∉ gates

/-- A lane that cannot go on. -/
def Rests (gates : List String) (l : Lane (ScriptedJob α)) : Prop :=
  l.jobs = [] ∨ Held gates l

/-- All that a lane can do when it goes on. -/
inductive Stepped (w : Workshop α) (i : LaneId) : Workshop α → Prop where
  | still : (∀ l, w.lanes.get? i = some l → Rests w.gates l) → Stepped w i w
  | start (l : Lane (ScriptedJob α)) (job : ScriptedJob α) (jobs : List (ScriptedJob α)) :
      w.lanes.get? i = some l → l.running = none → l.waiting = job :: jobs →
      Stepped w i { w with
        lanes := w.lanes.modify i Lane.start
        log := ⟨l.device, l.generation, false, job.number⟩ :: w.log }
  | finish (l : Lane (ScriptedJob α)) (job : ScriptedJob α) (written : List LogLine) :
      w.lanes.get? i = some l → l.running = some job → (∀ line ∈ written, line.isEnd = true) →
      Stepped w i { w with
        lanes := w.lanes.modify i Lane.finish
        gates := job.task.opens?.toList ++ w.gates
        log := written ++ w.log
        done := (job.number, job.task.result l.device) :: w.done }

theorem stepped_step (w : Workshop α) (i : LaneId) : w.Stepped i (w.step i) := by
  rw [step]
  split
  · next hnone =>
      refine .still fun l hl => ?_
      rw [hnone] at hl
      cases hl
  · next l hl =>
      have honly {l' : Lane (ScriptedJob α)} (hl' : w.lanes.get? i = some l') : l' = l :=
        Option.some.inj (hl'.symm.trans hl)
      split
      · next hr =>
          split
          · next hw =>
              refine .still fun l' hl' => .inl ?_
              rw [honly hl', Lane.jobs, hr, hw]
              rfl
          · next job jobs hw => exact .start l job jobs hl hr hw
      · next job hr =>
          rcases w.outcome?_cases l.device job.task with he | ⟨he, gate, hwaits, hclosed⟩
          · rw [he]
            cases hb : breaks job.task with
            | true => exact .finish l job [] hl hr (by simp)
            | false =>
                exact .finish l job [⟨l.device, l.generation, true, job.number⟩] hl hr (by simp)
          · rw [he]
            exact .still fun l' hl' => .inr ⟨job, gate, honly hl' ▸ hr, hwaits, hclosed⟩

/-! ## The place of each job -/

/-- The numbers of the jobs that wait. -/
def waiting (w : Workshop α) : List Nat :=
  w.lanes.all.flatMap fun l => l.waiting.map (·.number)

/-- The numbers of the jobs that are being done. -/
def running (w : Workshop α) : List Nat :=
  w.lanes.all.flatMap fun l => l.running.toList.map (·.number)

/-- The numbers of the jobs that have ended, the latest first. -/
def ended (w : Workshop α) : List Nat := w.done.map Prod.fst

/-- The numbers of the jobs that were started, the latest first. -/
def starts (w : Workshop α) : List Nat := (w.log.filter (!·.isEnd)).map (·.job)

/-- A workshop in which nothing is done twice, and nothing is lost. -/
structure Tidy (w : Workshop α) : Prop where
  /-- The jobs of each device can be queued in one lane only. -/
  lanes : ∃ moves, w.lanes = Lanes.after moves
  /-- Each job is in one place. -/
  places : (w.waiting ++ (w.running ++ w.ended)).Perm (List.range w.next)
  /-- Those that do not wait were started, each once. -/
  starts : w.starts.Perm (w.running ++ w.ended)

theorem tidy_new : ({} : Workshop α).Tidy := ⟨⟨[], rfl⟩, .refl _, .refl _⟩

theorem Tidy.move (h : w.Tidy) (m : LaneMove (ScriptedJob α)) :
    ∃ moves, w.lanes.move m = Lanes.after moves := by
  obtain ⟨moves, he⟩ := h.lanes
  exact ⟨moves ++ [m], by rw [he, Lanes.after_concat]⟩

theorem Tidy.enqueue (h : w.Tidy) (d : DeviceId) (task : ScriptedTask α) :
    (w.enqueue d task).2.Tidy := by
  obtain ⟨moves, he⟩ := h.lanes
  have horderly : Orderly (w.lanes.ofDevice d) := he ▸ Lanes.orderly_after d moves
  have hplaces : (w.enqueue d task).2.waiting.Perm (w.next :: w.waiting) ∧
      (w.enqueue d task).2.running = w.running := by
    simp only [waiting, running, Workshop.enqueue]
    rcases Lanes.all_enqueue horderly ⟨w.next, task⟩ with ⟨generation, hall⟩ | ⟨pre, l, post, hl, hall⟩
    · rw [hall]
      simp [List.perm_append_singleton]
    · rw [hall, hl]
      simp only [List.flatMap_append, List.flatMap_cons, Lane.push, List.map_append, and_true,
        List.map_cons, List.map_nil, List.append_assoc, List.cons_append, List.nil_append]
      exact (List.perm_middle.append_left _).trans List.perm_middle
  refine ⟨h.move (.enqueue d ⟨w.next, task⟩), ?_, ?_⟩
  · rw [hplaces.2]
    have hnext := (hplaces.1.append_right (w.running ++ w.ended)).trans (h.places.cons w.next)
    rw [show (w.enqueue d task).2.next = w.next + 1 from rfl, List.range_succ]
    exact hnext.trans (List.perm_append_singleton ..).symm
  · rw [hplaces.2]
    exact h.starts

theorem Tidy.removeDevice (h : w.Tidy) (d : DeviceId) : (w.removeDevice d).2.Tidy := by
  have hwaiting : (w.removeDevice d).2.waiting = w.waiting := by
    simp only [waiting, Workshop.removeDevice, Lanes.removeDevice, List.flatMap_map]
    congr 1
    funext l
    split <;> rfl
  have hrunning : (w.removeDevice d).2.running = w.running := by
    simp only [running, Workshop.removeDevice, Lanes.removeDevice, List.flatMap_map]
    congr 1
    funext l
    split <;> rfl
  refine ⟨h.move (.removeDevice d), ?_, ?_⟩
  · rw [hwaiting, hrunning]
    exact h.places
  · rw [hrunning]
    exact h.starts

/-- A job that starts does not wait any more, and one that ends is not done any more. -/
theorem Tidy.stepped {w' : Workshop α} {i : LaneId} (h : w.Tidy) (hs : w.Stepped i w') :
    w'.Tidy := by
  have hplaces := h.places
  have hstarts := h.starts
  rw [List.perm_iff_count] at hplaces hstarts
  cases hs with
  | still _ => exact h
  | start l job jobs hl hr hw =>
      obtain ⟨pre, post, hall, hmod⟩ := Lanes.all_modify hl
      refine ⟨h.move (.start i), List.perm_iff_count.mpr fun n => ?_,
        List.perm_iff_count.mpr fun n => ?_⟩
      · have hn := hplaces n
        simp only [waiting, running, ended, hall, hmod, Lanes.start_of_canStart hr hw, hr, hw,
          List.flatMap_append, List.flatMap_cons, List.count_append, Option.toList_none,
          Option.toList_some, List.map_cons, List.map_nil, List.count_cons, List.count_nil] at hn ⊢
        omega
      · have hn := hstarts n
        simp only [Workshop.starts, running, ended, hall, hmod, Lanes.start_of_canStart hr hw, hr,
          List.flatMap_append, List.flatMap_cons, List.count_append, Option.toList_none,
          Option.toList_some, List.map_cons, List.map_nil, List.count_cons, List.count_nil,
          List.filter_cons, Bool.not_false, ↓reduceIte] at hn ⊢
        omega
  | finish l job written hl hr hwritten =>
      obtain ⟨pre, post, hall, hmod⟩ := Lanes.all_modify hl
      have hends : written.filter (!·.isEnd) = [] :=
        List.filter_eq_nil_iff.mpr fun line hline => by simp [hwritten line hline]
      refine ⟨h.move (.finish i), List.perm_iff_count.mpr fun n => ?_,
        List.perm_iff_count.mpr fun n => ?_⟩
      · have hn := hplaces n
        simp only [waiting, running, ended, hall, hmod, Lane.finish, hr, List.flatMap_append,
          List.flatMap_cons, List.count_append, Option.toList_none, Option.toList_some,
          List.map_cons, List.map_nil, List.count_cons, List.count_nil] at hn ⊢
        omega
      · have hn := hstarts n
        simp only [Workshop.starts, running, ended, hall, hmod, Lane.finish, hr, hends,
          List.flatMap_append, List.flatMap_cons, List.count_append, Option.toList_none,
          Option.toList_some, List.map_cons, List.map_nil, List.count_cons, List.count_nil,
          List.filter_append, List.nil_append] at hn ⊢
        omega

theorem Tidy.after (h : w.Tidy) (e : Event α) : (w.after e).Tidy := by
  cases e with
  | enqueue d task => exact h.enqueue d task
  | removeDevice d => exact h.removeDevice d
  | openGate gate => exact ⟨h.lanes, h.places, h.starts⟩
  | step i => exact h.stepped (w.stepped_step i)
  | drop n => exact h

theorem Tidy.go (h : w.Tidy) (es : List (Event α)) : (w.go es).Tidy := by
  induction es generalizing w with
  | nil => exact h
  | cons e es ih => exact ih (h.after e)

theorem tidy_run (es : List (Event α)) : (run es).Tidy := tidy_new.go es

/-! ## The device and the task of each job -/

/-- A workshop whose jobs have the devices and the tasks with which they were queued. -/
structure Keeps (jobs : List (DeviceId × ScriptedTask α)) (w : Workshop α) : Prop where
  count : w.next = jobs.length
  lanes : w.lanes.AllJobs fun d job => jobs[job.number]? = some (d, job.task)
  /-- What has ended has the result of its own task. -/
  done : ∀ n o, (n, o) ∈ w.done → ∃ d task, jobs[n]? = some (d, task) ∧ o = task.result d

section Keeps

variable {jobs : List (DeviceId × ScriptedTask α)}

theorem keeps_new : ({} : Workshop α).Keeps [] := by
  refine ⟨rfl, fun i l hl => ?_, fun n o hn => ?_⟩
  · rw [Lanes.get?, List.getElem?_nil] at hl
    cases hl
  · cases hn

theorem Keeps.enqueue (h : w.Keeps jobs) (d : DeviceId) (task : ScriptedTask α) :
    (w.enqueue d task).2.Keeps (jobs ++ [(d, task)]) := by
  have hkeep {n : Nat} {d' : DeviceId} {task' : ScriptedTask α} (hn : jobs[n]? = some (d', task')) :
      (jobs ++ [(d, task)])[n]? = some (d', task') := by
    rw [List.getElem?_append_left (List.getElem?_eq_some_iff.mp hn).1, hn]
  refine ⟨?_, (h.lanes.mono fun _ _ => hkeep).enqueue ?_, fun n o hn => ?_⟩
  · rw [List.length_append, ← h.count]
    rfl
  · rw [h.count]
    exact List.getElem?_concat_length
  · obtain ⟨d', task', hjob, ho⟩ := h.done n o hn
    exact ⟨d', task', hkeep hjob, ho⟩

theorem Keeps.stepped {w' : Workshop α} {i : LaneId} (h : w.Keeps jobs) (hs : w.Stepped i w') :
    w'.Keeps jobs := by
  cases hs with
  | still _ => exact h
  | start l job jobs hl hr hw => exact ⟨h.count, h.lanes.start i, h.done⟩
  | finish l job written hl hr hwritten =>
      refine ⟨h.count, h.lanes.finish i, fun n o hn => ?_⟩
      cases List.mem_cons.mp hn with
      | inr hold => exact h.done n o hold
      | inl hnew =>
          obtain ⟨rfl, rfl⟩ := Prod.mk.inj hnew
          exact ⟨_, _, h.lanes i l hl job (Lane.mem_jobs.mpr (.inl hr)), rfl⟩

theorem Keeps.after (h : w.Keeps jobs) (e : Event α) : (w.after e).Keeps (jobs ++ e.queued) := by
  have hnone {w' : Workshop α} (h : w'.Keeps jobs) : w'.Keeps (jobs ++ []) := by
    rwa [List.append_nil]
  cases e with
  | enqueue d task => exact h.enqueue d task
  | removeDevice d => exact hnone ⟨h.count, h.lanes.removeDevice d, h.done⟩
  | openGate gate => exact hnone ⟨h.count, h.lanes, h.done⟩
  | step i => exact hnone (h.stepped (w.stepped_step i))
  | drop n => exact hnone h

theorem Keeps.go (h : w.Keeps jobs) (es : List (Event α)) : (w.go es).Keeps (jobs ++ jobsIn es) := by
  induction es generalizing w jobs with
  | nil => rwa [jobsIn, List.flatMap_nil, List.append_nil]
  | cons e es ih =>
      rw [jobsIn, List.flatMap_cons, ← List.append_assoc]
      exact ih (h.after e)

theorem keeps_run (es : List (Event α)) : (run es).Keeps (jobsIn es) := by
  have h := keeps_new.go es
  rwa [List.nil_append] at h

end Keeps

end Workshop

end Southbound
