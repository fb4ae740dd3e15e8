import Southbound.Proofs.Jobs.AllJobs

/-!
# Devices with one lane

As long as the lane of a device is not released, the device has no other
(`Lanes.Single`).  Its jobs are then one queue (`Lanes.jobsOf`): a job joins it at its
end, and the one at its head is the one that is being done.
-/

namespace Southbound.Lanes

variable {ι : Type}

/-- The jobs of a device that are not done, lane after lane. -/
def jobsOf (ls : Lanes ι) (d : DeviceId) : List ι := (ls.ofDevice d).flatMap Lane.jobs

/-- A device has no lane, or one that takes jobs. -/
def Single (ls : Lanes ι) (d : DeviceId) : Prop :=
  ls.ofDevice d = [] ∨ ∃ l, ls.ofDevice d = [l] ∧ l.released = false

variable {ls : Lanes ι} {d d' : DeviceId}

theorem Single.orderly (h : ls.Single d) : Orderly (ls.ofDevice d) := by
  rcases h with he | ⟨l, he, -⟩
  · rw [he]
    exact .nil
  · rw [he]
    exact List.pairwise_singleton ..

theorem Single.of_ofDevice {ls' : Lanes ι} (h : ls.Single d)
    (he : ls'.ofDevice d = ls.ofDevice d) : ls'.Single d ∧ ls'.jobsOf d = ls.jobsOf d := by
  rw [Single, jobsOf]
  rw [he]
  exact ⟨h, rfl⟩

/-- The only lane of a device has all its jobs. -/
theorem Single.jobsOf_eq (h : ls.Single d) {i : LaneId} {l : Lane ι} (hl : ls.get? i = some l)
    (hd : l.device = d) : ls.jobsOf d = l.jobs := by
  have hmem : l ∈ ls.ofDevice d := mem_ofDevice.mpr ⟨List.mem_of_getElem? hl, hd⟩
  rcases h with he | ⟨l', he, -⟩
  · rw [he] at hmem
    cases hmem
  · rw [he] at hmem
    cases List.mem_singleton.mp hmem
    rw [jobsOf, he, List.flatMap_singleton]

/-- A job of a device joins its queue. -/
theorem Single.enqueue (h : ls.Single d) (job : ι) :
    (ls.enqueue d job).Single d ∧ (ls.enqueue d job).jobsOf d = ls.jobsOf d ++ [job] := by
  have hstep := ofDevice_enqueue h.orderly job
  simp only [Single, jobsOf] at *
  generalize ls.ofDevice d = before at h hstep ⊢
  generalize (ls.enqueue d job).ofDevice d = behind at hstep ⊢
  cases hstep with
  | fresh _ _ generation hall =>
      rcases h with rfl | ⟨l, rfl, hl⟩
      · exact ⟨.inr ⟨_, rfl, rfl⟩, rfl⟩
      · rw [hall l (.head _)] at hl
        cases hl
  | push pre l _ hl =>
      rcases h with he | ⟨l', he, -⟩
      · simp at he
      · obtain rfl : pre = [] := by simpa using congrArg List.length he
        refine ⟨.inr ⟨_, rfl, hl⟩, ?_⟩
        simp [Lane.jobs, Lane.push]

/-- A lane of another device, or no lane, is changed. -/
theorem Single.modify_of_ne (h : ls.Single d) {i : LaneId} {f : Lane ι → Lane ι}
    (hf : ∀ l, (f l).device = l.device) (hne : ∀ l, ls.get? i = some l → l.device ≠ d) :
    (ls.modify i f).Single d ∧ (ls.modify i f).jobsOf d = ls.jobsOf d := by
  cases ofDevice_modify ls d i hf with
  | inl hone =>
      obtain ⟨-, l, -, hl, hd, -⟩ := hone
      exact absurd hd (hne l hl)
  | inr hnone => exact h.of_ofDevice hnone.2

/-- The only lane of a device is changed. -/
theorem Single.modify (h : ls.Single d) {i : LaneId} {l : Lane ι} (hl : ls.get? i = some l)
    (hd : l.device = d) {f : Lane ι → Lane ι} (hf : ∀ l, (f l).device = l.device)
    (hr : (f l).released = l.released) :
    (ls.modify i f).Single d ∧ (ls.modify i f).jobsOf d = (f l).jobs := by
  have hsingle : (ls.modify i f).Single d := by
    cases ofDevice_modify ls d i hf with
    | inr hnone => exact absurd hd (hnone.1 l hl)
    | inl hone =>
        obtain ⟨pre, l', post, hl', -, he, hmod⟩ := hone
        cases hl.symm.trans hl'
        rcases h with he' | ⟨l', he', hopen⟩
        · simp [he'] at he
        · rcases List.append_eq_singleton_iff.mp (he.symm.trans he') with ⟨rfl, hl'⟩ | ⟨-, hl'⟩
          · obtain ⟨rfl, rfl⟩ := List.cons_eq_cons.mp hl'
            exact .inr ⟨f l, hmod, hr.trans hopen⟩
          · cases hl'
  refine ⟨hsingle, hsingle.jobsOf_eq (i := i) ?_ ((hf l).trans hd)⟩
  rw [get?_modify, if_pos rfl, hl, Option.map_some]

end Southbound.Lanes
