import Southbound.Proofs.Jobs.Places

/-!
# How jobs end, and other jobs

Which job a lane does, and when, does not depend on how jobs end, nor on who waits for their
results.  `Workshop.shape` is what is left of a workshop without that: every result is the
same.  It decides what happens next (`Workshop.shape_after`).  So in two runs that differ in
such things only (`Workshop.Alike`), the same jobs are started and the same jobs end
(`Workshop.Alike.shape_go`).
-/

namespace Southbound

variable {ι κ α : Type}

/-! ## Lanes of other jobs -/

/-- A lane with other jobs in the places of its jobs. -/
def Lane.map (f : ι → κ) (l : Lane ι) : Lane κ where
  device := l.device
  generation := l.generation
  running := l.running.map f
  waiting := l.waiting.map f
  released := l.released

@[simp] theorem Lane.takes_map (f : ι → κ) (l : Lane ι) (d : DeviceId) :
    (l.map f).takes d = l.takes d := rfl

@[simp] theorem Lane.map_map {μ : Type} (f : ι → κ) (g : κ → μ) (l : Lane ι) :
    (l.map f).map g = l.map (g ∘ f) := by
  simp [Lane.map]

@[simp] theorem Lane.map_push (f : ι → κ) (l : Lane ι) (job : ι) :
    (l.push job).map f = (l.map f).push (f job) := by
  simp [Lane.map, Lane.push]

@[simp] theorem Lane.map_finish (f : ι → κ) (l : Lane ι) : l.finish.map f = (l.map f).finish := rfl

@[simp] theorem Lane.map_start (f : ι → κ) (l : Lane ι) : l.start.map f = (l.map f).start := by
  cases hr : l.running <;> cases hw : l.waiting <;> simp [Lane.map, Lane.start, hr, hw]

namespace Lanes

def map (f : ι → κ) (ls : Lanes ι) : Lanes κ := ⟨ls.all.map (Lane.map f)⟩

variable (f : ι → κ) (ls : Lanes ι)

@[simp] theorem get?_map (i : LaneId) : (ls.map f).get? i = (ls.get? i).map (Lane.map f) := by
  simp [map, get?]

theorem map_map {μ : Type} (g : κ → μ) : (ls.map f).map g = ls.map (g ∘ f) := by
  simp [map, Function.comp_def]

/-- The lane that takes the jobs of a device is changed. -/
theorem map_takes (d : DeviceId) {g : Lane ι → Lane ι} {g' : Lane κ → Lane κ}
    (hg : ∀ l, (g l).map f = g' (l.map f)) :
    (ls.all.map fun l => if l.takes d then g l else l).map (Lane.map f) =
      (ls.map f).all.map fun l => if l.takes d then g' l else l := by
  rw [map, List.map_map, List.map_map]
  refine List.map_congr_left fun l _ => ?_
  rw [Function.comp_apply, Function.comp_apply]
  by_cases htakes : l.takes d = true
  · rw [if_pos htakes, if_pos ((l.takes_map f d).trans htakes), hg]
  · rw [if_neg htakes, if_neg ((l.takes_map f d) ▸ htakes)]

theorem map_enqueue (d : DeviceId) (job : ι) :
    (ls.enqueue d job).map f = (ls.map f).enqueue d (f job) := by
  have hany : (ls.map f).all.any (·.takes d) = ls.all.any (·.takes d) := by
    simp [map, List.any_map, Function.comp_def]
  have hgeneration :
      ((ls.map f).all.filter (·.device = d)).length = (ls.all.filter (·.device = d)).length := by
    rw [map, List.filter_map, List.length_map]
    rfl
  rw [enqueue, enqueue, hany, hgeneration]
  split
  · exact congrArg Lanes.mk (ls.map_takes f d fun l => l.map_push f job)
  · simp [map, Lane.map]

theorem map_removeDevice (d : DeviceId) :
    (ls.removeDevice d).2.map f = ((ls.map f).removeDevice d).2 :=
  congrArg Lanes.mk (ls.map_takes f d fun _ => rfl)

theorem map_modify (i : LaneId) {g : Lane ι → Lane ι} {g' : Lane κ → Lane κ}
    (hg : ∀ l, (g l).map f = g' (l.map f)) :
    (ls.modify i g).map f = (ls.map f).modify i g' := by
  refine congrArg Lanes.mk (List.ext_getElem? fun j => ?_)
  simp only [modify, map, List.getElem?_map, List.getElem?_modify]
  cases ls.all[j]? with
  | none => rfl
  | some l =>
      by_cases hij : i = j
      · simp [hij, hg]
      · simp [hij]

end Lanes

/-! ## Shapes -/

/-- A task that waits for the same gate and opens the same, and returns nothing. -/
def ScriptedTask.shape : ScriptedTask α → ScriptedTask Unit
  | give _ => .give ()
  | refuse _ => .give ()
  | breakOff => .give ()
  | pass gate _ => .pass gate ()
  | unlock gate _ => .unlock gate ()

@[simp] theorem ScriptedTask.shape_shape (task : ScriptedTask α) : task.shape.shape = task.shape := by
  cases task <;> rfl

@[simp] theorem ScriptedTask.waitsFor?_shape (task : ScriptedTask α) :
    task.shape.waitsFor? = task.waitsFor? := by
  cases task <;> rfl

@[simp] theorem ScriptedTask.opens?_shape (task : ScriptedTask α) :
    task.shape.opens? = task.opens? := by
  cases task <;> rfl

def ScriptedJob.shape (job : ScriptedJob α) : ScriptedJob Unit := ⟨job.number, job.task.shape⟩

@[simp] theorem ScriptedJob.shape_shape (job : ScriptedJob α) : job.shape.shape = job.shape := by
  simp [shape]

@[simp] theorem Lanes.map_shape_shape (ls : Lanes (ScriptedJob α)) :
    (ls.map ScriptedJob.shape).map ScriptedJob.shape = ls.map ScriptedJob.shape := by
  rw [map_map]
  exact congrArg ls.map (funext ScriptedJob.shape_shape)

namespace Workshop

/-- What is left of a workshop without the results of its jobs: which jobs wait and are being
done in which lane, which gates are open, and which jobs were started and have ended. -/
def shape (w : Workshop α) : Workshop Unit where
  lanes := w.lanes.map ScriptedJob.shape
  gates := w.gates
  log := w.log.filter (!·.isEnd)
  done := w.done.map fun p => (p.1, .ok ())
  next := w.next

def Event.shape : Event α → Event Unit
  | enqueue d task => .enqueue d task.shape
  | removeDevice d => .removeDevice d
  | openGate gate => .openGate gate
  | step i => .step i
  | drop n => .drop n

variable {w : Workshop α}

@[simp] theorem shape_shape (w : Workshop α) : w.shape.shape = w.shape := by
  simp [shape, Function.comp_def]

theorem ended_shape (w : Workshop α) : w.shape.ended = w.ended := by
  simp [shape, ended, Function.comp_def]

/-- A task can end if and only if it can without its result. -/
theorem outcome?_shape (w : Workshop α) (d : DeviceId) (task : ScriptedTask α) :
    w.shape.outcome? d task.shape =
      (w.outcome? d task).map fun r => (.ok (), r.2) := by
  cases task with
  | pass gate value =>
      simp only [outcome?, ScriptedTask.shape]
      by_cases hgate : w.gates.contains gate = true
      · rw [if_pos hgate, if_pos (show w.shape.gates.contains gate = true from hgate)]
        rfl
      · rw [if_neg hgate, if_neg (show ¬w.shape.gates.contains gate = true from hgate)]
        rfl
  | give value => rfl
  | refuse cause => rfl
  | breakOff => rfl
  | unlock gate value => rfl

theorem shape_enqueue (w : Workshop α) (d : DeviceId) (task : ScriptedTask α) :
    (w.shape.enqueue d task.shape).2.shape = (w.enqueue d task).2.shape := by
  have hjob : ScriptedJob.shape ⟨w.next, task.shape⟩ = ScriptedJob.shape ⟨w.next, task⟩ := by
    simp [ScriptedJob.shape]
  simp only [shape, enqueue, Lanes.map_enqueue, Lanes.map_shape_shape, hjob, List.filter_filter,
    Bool.and_self, List.map_map, Function.comp_def]

theorem shape_removeDevice (w : Workshop α) (d : DeviceId) :
    (w.shape.removeDevice d).2.shape = (w.removeDevice d).2.shape := by
  simp only [shape, removeDevice, Lanes.map_removeDevice, Lanes.map_shape_shape,
    List.filter_filter, Bool.and_self, List.map_map, Function.comp_def]

/-- A lane is changed with or without the results of its jobs. -/
theorem map_shape_modify (ls : Lanes (ScriptedJob α)) (i : LaneId)
    {g : Lane (ScriptedJob α) → Lane (ScriptedJob α)}
    {g' : Lane (ScriptedJob Unit) → Lane (ScriptedJob Unit)}
    (hg : ∀ l, (g l).map ScriptedJob.shape = g' (l.map ScriptedJob.shape))
    (hg' : ∀ l, (g' l).map ScriptedJob.shape = g' (l.map ScriptedJob.shape)) :
    ((ls.map ScriptedJob.shape).modify i g').map ScriptedJob.shape =
      (ls.modify i g).map ScriptedJob.shape := by
  rw [Lanes.map_modify _ _ i hg', Lanes.map_shape_shape, Lanes.map_modify _ _ i hg]

/-- What a lane does does not depend on results. -/
theorem shape_step (w : Workshop α) (i : LaneId) : (w.shape.step i).shape = (w.step i).shape := by
  have hstart := map_shape_modify w.lanes i (Lane.map_start _) (Lane.map_start _)
  have hfinish := map_shape_modify w.lanes i (Lane.map_finish _) (Lane.map_finish _)
  -- The lines at the ends of jobs are left out.
  have hend {ends : Bool} {line : LogLine} {log : List LogLine} (hline : line.isEnd = true) :
      (if ends = true then log else line :: log).filter (!·.isEnd) = log.filter (!·.isEnd) := by
    cases ends <;> simp [hline]
  rw [step, step, show w.shape.lanes.get? i = _ from Lanes.get?_map ..]
  cases hl : w.lanes.get? i with
  | none => exact shape_shape w
  | some l =>
      obtain ⟨d, generation, running, waiting, released⟩ := l
      cases running with
      | none =>
          cases waiting with
          | nil => exact shape_shape w
          | cons job jobs =>
              simp only [Option.map_some, Option.map_none, Lane.map, List.map_cons, shape]
              rw [hstart]
              simp [Function.comp_def, ScriptedJob.shape]
      | some job =>
          simp only [Option.map_some, Lane.map]
          rw [show w.shape.outcome? d (ScriptedJob.shape job).task = _ from outcome?_shape ..]
          cases w.outcome? d job.task with
          | none => exact shape_shape w
          | some result =>
              obtain ⟨result, gate⟩ := result
              simp only [Option.map_some, shape]
              rw [hfinish, hend rfl, hend rfl]
              simp [Function.comp_def, ScriptedJob.shape]

theorem shape_after (w : Workshop α) (e : Event α) :
    (w.shape.after e.shape).shape = (w.after e).shape := by
  cases e with
  | enqueue d task => exact shape_enqueue w d task
  | removeDevice d => exact shape_removeDevice w d
  | openGate gate => simp [after, openGate, shape, Event.shape, Function.comp_def]
  | step i => exact shape_step w i
  | drop n => exact shape_shape w

/-! ## Runs that are alike -/

/-- Events that differ in how jobs end, and in who waits for their results. -/
inductive Alike : List (Event α) → List (Event α) → Prop where
  | nil : Alike [] []
  | same (e : Event α) {es es' : List (Event α)} : Alike es es' → Alike (e :: es) (e :: es')
  | task (d : DeviceId) {t t' : ScriptedTask α} {es es' : List (Event α)} :
      t.shape = t'.shape → Alike es es' → Alike (.enqueue d t :: es) (.enqueue d t' :: es')
  | dropLeft (n : Nat) {es es' : List (Event α)} : Alike es es' → Alike (.drop n :: es) es'
  | dropRight (n : Nat) {es es' : List (Event α)} : Alike es es' → Alike es (.drop n :: es')

variable {w' : Workshop α} {es es' : List (Event α)}

theorem Alike.refl (es : List (Event α)) : Alike es es := by
  induction es with
  | nil => exact .nil
  | cons e es ih => exact .same e ih

theorem shape_after_congr (h : w.shape = w'.shape) {e e' : Event α} (he : e.shape = e'.shape) :
    (w.after e).shape = (w'.after e').shape := by
  rw [← shape_after, ← shape_after w', h, he]

/-- In runs that are alike the same jobs are started, and the same end. -/
theorem Alike.shape_go (h : Alike es es') (hw : w.shape = w'.shape) :
    (w.go es).shape = (w'.go es').shape := by
  induction h generalizing w w' with
  | nil => exact hw
  | same e _ ih => exact ih (shape_after_congr hw rfl)
  | task d ht _ ih =>
      have he := congrArg (Event.enqueue d) ht
      exact ih (shape_after_congr hw he)
  | dropLeft n _ ih => exact ih hw
  | dropRight n _ ih => exact ih hw

/-- How long it takes until no lane can go on does not depend on results. -/
theorem openJobs_shape (w : Workshop α) : w.shape.openJobs = w.openJobs := by
  have hjobs (l : Lane (ScriptedJob α)) : (l.map ScriptedJob.shape).jobs.length = l.jobs.length := by
    cases hr : l.running <;> simp [Lane.map, Lane.jobs, hr]
  simp [openJobs, shape, Lanes.map, List.length_flatMap, Function.comp_def, hjobs]

theorem shape_round_congr (h : w.shape = w'.shape) : w.round.shape = w'.round.shape := by
  have hlanes : w.lanes.all.length = w'.lanes.all.length := by
    have hall := congrArg (fun w => w.lanes.all.length) h
    simpa [shape, Lanes.map] using hall
  rw [round_eq_go, round_eq_go, hlanes]
  exact (Alike.refl _).shape_go h

theorem shape_settle_congr (h : w.shape = w'.shape) : w.settle.shape = w'.settle.shape := by
  rw [settle, settle, ← openJobs_shape w, h, openJobs_shape]
  generalize 2 * w'.openJobs = n
  induction n generalizing w w' with
  | zero => exact h
  | succ n ih => exact ih (shape_round_congr h)

end Workshop

end Southbound
