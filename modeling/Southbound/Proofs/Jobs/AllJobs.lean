import Southbound.Proofs.Jobs.Moves

/-!
# All jobs of the lanes

`Lanes.AllJobs` says something of every job that is not done, together with the
device for which it was queued.  A job that is queued has to be checked once: no lane
that starts, finishes or is released makes a new one.
-/

namespace Southbound

variable {ι : Type}

theorem Lane.mem_jobs {l : Lane ι} {job : ι} :
    job ∈ l.jobs ↔ l.running = some job ∨ job ∈ l.waiting := by
  simp [Lane.jobs]

/-- A lane that starts a job has the same jobs. -/
@[simp] theorem Lane.jobs_start (l : Lane ι) : l.start.jobs = l.jobs := by
  simp only [Lane.start, Lane.jobs]
  split
  · next hr hw => simp [hr, hw]
  · rfl

namespace Lanes

/-- Every job that is not done has a property, which may depend on its device. -/
def AllJobs (ls : Lanes ι) (p : DeviceId → ι → Prop) : Prop :=
  ∀ i l, ls.get? i = some l → ∀ job ∈ l.jobs, p l.device job

variable {ls : Lanes ι} {p q : DeviceId → ι → Prop}

theorem AllJobs.mono (h : ls.AllJobs p) (hpq : ∀ d job, p d job → q d job) : ls.AllJobs q :=
  fun i l hl job hjob => hpq _ job (h i l hl job hjob)

theorem AllJobs.enqueue (h : ls.AllJobs p) {d : DeviceId} {job : ι} (hjob : p d job) :
    (ls.enqueue d job).AllJobs p := by
  intro i l hl job' hjob'
  cases get?_enqueue hl with
  | inr hnew =>
      obtain ⟨⟨generation, rfl⟩, -⟩ := hnew
      rw [List.mem_singleton.mp hjob']
      exact hjob
  | inl hold =>
      obtain ⟨l₀, hl₀, heq⟩ := hold
      rcases heq with rfl | ⟨htakes, rfl⟩
      · exact h i l hl₀ job' hjob'
      · rw [Lane.takes, Bool.and_eq_true, decide_eq_true_eq] at htakes
        rw [Lane.jobs, Lane.push, ← List.append_assoc] at hjob'
        cases List.mem_append.mp hjob' with
        | inl hm => exact h i l₀ hl₀ job' hm
        | inr hm =>
            rw [List.mem_singleton.mp hm]
            exact htakes.1 ▸ hjob

theorem AllJobs.removeDevice (h : ls.AllJobs p) (d : DeviceId) :
    (ls.removeDevice d).2.AllJobs p := by
  intro i l hl job hjob
  obtain ⟨l₀, hl₀, heq⟩ := get?_removeDevice hl
  rcases heq with rfl | rfl
  · exact h i l hl₀ job hjob
  · exact h i l₀ hl₀ job hjob

/-- A lane is changed, and the jobs that it has then are checked. -/
theorem AllJobs.modify (h : ls.AllJobs p) (i : LaneId) {f : Lane ι → Lane ι}
    (hf : ∀ l, ls.get? i = some l → ∀ job ∈ (f l).jobs, p (f l).device job) :
    (ls.modify i f).AllJobs p := by
  intro j l' hl' job hjob
  rw [get?_modify] at hl'
  split at hl'
  · next hij =>
      subst hij
      obtain ⟨l, hl, rfl⟩ := Option.map_eq_some_iff.mp hl'
      exact hf l hl job hjob
  · exact h j l' hl' job hjob

theorem AllJobs.start (h : ls.AllJobs p) (i : LaneId) : (ls.modify i Lane.start).AllJobs p := by
  refine h.modify i fun l hl job hjob => ?_
  rw [Lane.jobs_start] at hjob
  rw [start_device]
  exact h i l hl job hjob

theorem AllJobs.finish (h : ls.AllJobs p) (i : LaneId) : (ls.modify i Lane.finish).AllJobs p :=
  h.modify i fun l hl job hjob => h i l hl job (List.mem_append_right _ hjob)

end Lanes

end Southbound
