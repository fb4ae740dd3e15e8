import Southbound.Proofs.Jobs.Moves

/-!
# One job of a device at a time

A run of the lanes is `Serial` for a device if at no time two of its jobs are
between start and end, and its jobs start in the order in which they were queued.

A lane that is released does the jobs that it has, and knows nothing of the lane
that comes after it.  So the jobs of a device are serial, whatever the lanes do next,
exactly if they were `QueuedBehind`: each was queued when released lanes of the
device had nothing left to do (`serial_iff_queuedBehind`).  A job that is queued
behind a released lane which has not ended its own may overtake them
(`not_serial_beside_released`).
-/

namespace Southbound

variable {ι : Type} {d : DeviceId}

/-! ## Serial runs -/

namespace Lanes

/-- The jobs that some moves queue for a device, in order. -/
def queued (d : DeviceId) (moves : List (LaneMove ι)) : List ι := moves.flatMap (·.queued d)

/-- The jobs of a device that some moves start, in order. -/
def startedFrom (ls : Lanes ι) (d : DeviceId) : List (LaneMove ι) → List ι
  | [] => []
  | m :: ms => ls.startedBy d m ++ (ls.move m).startedFrom d ms

/-- The jobs of a device that start in a run, in order. -/
def started (d : DeviceId) (moves : List (LaneMove ι)) : List ι :=
  ({} : Lanes ι).startedFrom d moves

/-- A run in which the jobs of a device do not overlap, and start in the order in
which they were queued. -/
def Serial (d : DeviceId) (moves : List (LaneMove ι)) : Prop :=
  ∀ ms, ms <+: moves →
    ((after ms).inProgress d).length ≤ 1 ∧ started d ms <+: queued d ms

/-- A run in which no job of a device is queued while a released lane of the device
has jobs. -/
def QueuedBehind (d : DeviceId) (moves : List (LaneMove ι)) : Prop :=
  ∀ ms job, ms ++ [.enqueue d job] <+: moves →
    ∀ l ∈ (after ms).ofDevice d, l.released = true → l.jobs = []

theorem startedFrom_append (ls : Lanes ι) (d : DeviceId) (ms ms' : List (LaneMove ι)) :
    ls.startedFrom d (ms ++ ms') = ls.startedFrom d ms ++ (ls.go ms).startedFrom d ms' := by
  induction ms generalizing ls with
  | nil => rfl
  | cons m ms ih => simp [startedFrom, ih]

theorem started_concat (d : DeviceId) (ms : List (LaneMove ι)) (m : LaneMove ι) :
    started d (ms ++ [m]) = started d ms ++ (after ms).startedBy d m := by
  simp [started, startedFrom_append, startedFrom, after]

theorem queued_concat (d : DeviceId) (ms : List (LaneMove ι)) (m : LaneMove ι) :
    queued d (ms ++ [m]) = queued d ms ++ m.queued d := by
  simp [queued]

end Lanes

/-! ## Lanes in line -/

/-- Only the last of some lanes has jobs. -/
def Drained (ls : List (Lane ι)) : Prop := ls.Pairwise fun l _ => l.jobs = []

/-- A lane that has jobs is the last. -/
theorem Drained.eq_nil {pre post : List (Lane ι)} {l : Lane ι} (h : Drained (pre ++ l :: post))
    (hl : l.jobs ≠ []) : post = [] := by
  cases post with
  | nil => rfl
  | cons l' post =>
      have hcons := (List.pairwise_append.mp h).2.1
      exact absurd ((List.pairwise_cons.mp hcons).1 l' (.head _)) hl

/-- A lane among which only the last has jobs may change in place, if it gets none. -/
theorem Drained.replace {pre post : List (Lane ι)} {l l' : Lane ι}
    (h : Drained (pre ++ l :: post)) (hl : l.jobs = [] → l'.jobs = []) :
    Drained (pre ++ l' :: post) := by
  rw [Drained] at h ⊢
  rw [List.pairwise_append, List.pairwise_cons] at h ⊢
  obtain ⟨hpre, ⟨hpost, hrest⟩, hcross⟩ := h
  refine ⟨hpre, ⟨fun a ha => hl (hpost a ha), hrest⟩, fun a ha b _ => ?_⟩
  exact hcross a ha l (.head _)

theorem flatMap_waiting_eq_nil {ls : List (Lane ι)} (h : ∀ l ∈ ls, l.jobs = []) :
    ls.flatMap (·.waiting) = [] := by
  rw [List.flatMap_eq_nil_iff]
  intro l hl
  exact (List.append_eq_nil_iff.mp (h l hl)).2

theorem filterMap_running_eq_nil {ls : List (Lane ι)} (h : ∀ l ∈ ls, l.jobs = []) :
    ls.filterMap (·.running) = [] := by
  rw [List.filterMap_eq_nil_iff]
  intro l hl
  simpa using (List.append_eq_nil_iff.mp (h l hl)).1

/-- One job at most is being done in lanes of which only the last has jobs. -/
theorem Drained.length_running_le {ls : List (Lane ι)} (h : Drained ls) :
    (ls.filterMap (·.running)).length ≤ 1 := by
  induction ls using List.reverseRecOn with
  | nil => simp
  | append_singleton pre l _ =>
      rw [List.filterMap_append, filterMap_running_eq_nil (pairwise_concat_iff.mp h)]
      exact List.length_filterMap_le ..

namespace LaneStep

variable {ls ls' : List (Lane ι)} {queued started : List ι}

/-- Only the last lane has jobs after a step, if no job is queued while a released
lane has some. -/
theorem drained (hs : LaneStep d ls queued started ls') (h : Drained ls)
    (hq : queued ≠ [] → ∀ l ∈ ls, l.released = true → l.jobs = []) : Drained ls' := by
  cases hs with
  | still => exact h
  | fresh _ job g hall =>
      exact pairwise_concat_iff.mpr fun l hl => hq (by simp) l hl (hall l hl)
  | push pre l job hl => exact pairwise_concat_iff.mpr (pairwise_concat_iff.mp h)
  | release pre l => exact pairwise_concat_iff.mpr (pairwise_concat_iff.mp h)
  | start pre post l job jobs hr hw =>
      have hjobs : l.jobs ≠ [] := by simp [Lane.jobs, hw]
      exact h.replace fun he => absurd he hjobs
  | finish pre post l =>
      exact h.replace fun he => (List.append_eq_nil_iff.mp he).2

/-- What waits in lanes of which only the last has jobs, after a step: what waited
before and what is queued, without what starts. -/
theorem waiting (hs : LaneStep d ls queued started ls') (h : Drained ls) :
    ls.flatMap (·.waiting) ++ queued = started ++ ls'.flatMap (·.waiting) := by
  cases hs with
  | still => simp
  | fresh _ job g hall => simp
  | push pre l job hl => simp [Lane.push]
  | release pre l => simp
  | start pre post l job jobs hr hw =>
      have hjobs : l.jobs ≠ [] := by simp [Lane.jobs, hw]
      have hpost : post = [] := h.eq_nil hjobs
      subst hpost
      have hpre := flatMap_waiting_eq_nil (pairwise_concat_iff.mp h)
      simp [hpre, hw]
  | finish pre post l => simp [Lane.finish]

/-- A job that is queued is in the last lane, and released lanes come before it. -/
theorem exists_last {job : ι} (hs : LaneStep d ls [job] [] ls') :
    ∃ pre last, ls' = pre ++ [last] ∧ last.jobs ≠ [] ∧ ∀ l ∈ ls, l.released = true → l ∈ pre := by
  cases hs with
  | fresh _ _ g hall => exact ⟨ls, _, rfl, by simp [Lane.jobs], fun l hl _ => hl⟩
  | push pre l _ hl =>
      refine ⟨pre, l.push job, rfl, by simp [Lane.jobs, Lane.push], fun l' hl' hr => ?_⟩
      cases List.mem_append.mp hl' with
      | inl hm => exact hm
      | inr hm =>
          rw [List.mem_singleton.mp hm, hl] at hr
          cases hr

end LaneStep

namespace Lanes

/-- A run after which only the last lane of a device has jobs, and whose jobs have
started in order as far as they do not wait there. -/
structure InLine (d : DeviceId) (moves : List (LaneMove ι)) : Prop where
  /-- Only the last lane has jobs. -/
  drained : Drained ((after moves).ofDevice d)
  /-- What was queued has started, or waits. -/
  kept : queued d moves = started d moves ++ ((after moves).ofDevice d).flatMap (·.waiting)

theorem QueuedBehind.of_prefix {ms moves : List (LaneMove ι)} (h : QueuedBehind d moves)
    (hp : ms <+: moves) : QueuedBehind d ms :=
  fun ms' job hms' => h ms' job (hms'.trans hp)

/-- What lanes do of themselves queues nothing. -/
theorem QueuedBehind.append {moves rest : List (LaneMove ι)} (h : QueuedBehind d moves)
    (hrest : ∀ m ∈ rest, m.isCall = false) : QueuedBehind d (moves ++ rest) := by
  induction rest using List.reverseRecOn with
  | nil => simpa using h
  | append_singleton rest m ih =>
      intro ms job hp
      rw [← List.append_assoc, List.prefix_concat_iff] at hp
      cases hp with
      | inl he =>
          have hm : LaneMove.enqueue d job = m :=
            List.singleton_inj.mp (List.append_inj' he rfl).2
          have hcall := hrest m (by simp)
          rw [← hm] at hcall
          cases hcall
      | inr hp => exact ih (fun m' hm' => hrest m' (by simp [hm'])) ms job hp

theorem QueuedBehind.inLine {moves : List (LaneMove ι)} (h : QueuedBehind d moves) :
    InLine d moves := by
  induction moves using List.reverseRecOn with
  | nil => exact ⟨.nil, rfl⟩
  | append_singleton ms m ih =>
      obtain ⟨hdrained, hkept⟩ := ih (h.of_prefix (List.prefix_append ..))
      have hs := ofDevice_move (orderly_after d ms) m
      constructor
      · rw [after_concat]
        refine hs.drained hdrained fun hne l hl hr => ?_
        cases m with
        | enqueue d' job =>
            by_cases hd : d' = d
            · subst hd
              exact h ms job (List.prefix_refl _) l hl hr
            · simp [LaneMove.queued, hd] at hne
        | removeDevice d' => exact absurd rfl hne
        | start i => exact absurd rfl hne
        | finish i => exact absurd rfl hne
      · rw [queued_concat, started_concat, after_concat, hkept, List.append_assoc,
          List.append_assoc, hs.waiting hdrained]

/-- If no job was queued while a released lane had some, the jobs of the device are
serial. -/
theorem QueuedBehind.serial {moves : List (LaneMove ι)} (h : QueuedBehind d moves) :
    Serial d moves := by
  intro ms hp
  obtain ⟨hdrained, hkept⟩ := (h.of_prefix hp).inLine
  exact ⟨hdrained.length_running_le, hkept ▸ List.prefix_append ..⟩

/-! ## Lanes that overtake -/

/-- Any lane of a device can be the one that starts its next job. -/
theorem exists_start {ls : Lanes ι} {pre post : List (Lane ι)} {l : Lane ι}
    (h : ls.ofDevice d = pre ++ l :: post) :
    ∃ i, (ls.move (.start i)).ofDevice d = pre ++ l.start :: post := by
  obtain ⟨all₁, rest, hall, hpre, hrest⟩ := List.filter_eq_append_iff.mp h
  obtain ⟨all₂, all₃, rfl, hskip, hl, hpost⟩ := List.filter_eq_cons_iff.mp hrest
  refine ⟨(all₁ ++ all₂).length, ?_⟩
  have hnil : all₂.filter (·.device = d) = [] := List.filter_eq_nil_iff.mpr hskip
  have hmod : ls.all.modify (all₁ ++ all₂).length Lane.start =
      (all₁ ++ all₂) ++ l.start :: all₃ := by
    rw [hall, ← List.append_assoc]
    exact List.modifyTailIdx_add (List.modifyHead Lane.start) 0 (all₁ ++ all₂) (l :: all₃)
  simp only [decide_eq_true_eq] at hl
  simp only [move, Lanes.modify, ofDevice, hmod]
  simp [hpre, hnil, hpost, start_device, hl]

/-- A lane that has jobs does one once it has started. -/
theorem exists_running_start {l : Lane ι} (h : l.jobs ≠ []) :
    ∃ job, l.start.running = some job := by
  rw [Lane.start]
  split
  · exact ⟨_, rfl⟩
  · next hno =>
      cases hr : l.running with
      | some job => exact ⟨job, rfl⟩
      | none =>
          cases hw : l.waiting with
          | nil => exact absurd (by simp [Lane.jobs, hr, hw]) h
          | cons job jobs => exact absurd hw (hno job jobs hr)

/-- If two lanes of a device have jobs, two of its jobs can be in progress. -/
theorem exists_overlap {ls : Lanes ι} {pre mid post : List (Lane ι)} {l l' : Lane ι}
    (h : ls.ofDevice d = pre ++ l :: (mid ++ l' :: post)) (hl : l.jobs ≠ []) (hl' : l'.jobs ≠ []) :
    ∃ i j, 1 < ((ls.go [.start i, .start j]).inProgress d).length := by
  obtain ⟨i, hi⟩ := exists_start h
  have hi' : (ls.move (.start i)).ofDevice d = (pre ++ l.start :: mid) ++ l' :: post := by
    simpa using hi
  obtain ⟨j, hj⟩ := exists_start hi'
  obtain ⟨job, hjob⟩ := exists_running_start hl
  obtain ⟨job', hjob'⟩ := exists_running_start hl'
  refine ⟨i, j, ?_⟩
  rw [go_cons, go_cons, go_nil, inProgress, hj]
  simp only [List.filterMap_append, List.filterMap_cons, hjob, hjob', List.length_append,
    List.length_cons]
  omega

/-- A job that is queued behind a released lane which has jobs can overlap with
them. -/
theorem exists_overlap_of_enqueue {ls : Lanes ι} (h : Orderly (ls.ofDevice d)) (job : ι)
    {l : Lane ι} (hmem : l ∈ ls.ofDevice d) (hr : l.released = true) (hl : l.jobs ≠ []) :
    ∃ i j, 1 < (((ls.enqueue d job).go [.start i, .start j]).inProgress d).length := by
  obtain ⟨pre, last, he, hlast, hpre⟩ := (ofDevice_enqueue h job).exists_last
  obtain ⟨pre, mid, rfl⟩ := List.append_of_mem (hpre l hmem hr)
  have hsplit : (ls.enqueue d job).ofDevice d = pre ++ l :: (mid ++ last :: []) := by
    simpa using he
  exact exists_overlap hsplit hl hlast

/-! ## When the jobs of a device are serial -/

/-- The jobs of a device are serial, whatever the lanes do next, exactly if none was
queued while a released lane of the device had jobs. -/
theorem serial_iff_queuedBehind (d : DeviceId) (moves : List (LaneMove ι)) :
    (∀ ms rest, ms <+: moves → (∀ m ∈ rest, m.isCall = false) → Serial d (ms ++ rest)) ↔
      QueuedBehind d moves := by
  constructor
  · intro h ms job hp l hl hr
    by_contra hjobs
    obtain ⟨i, j, hover⟩ := exists_overlap_of_enqueue (orderly_after d ms) job hl hr hjobs
    have hserial := h (ms ++ [.enqueue d job]) [.start i, .start j] hp (by simp [LaneMove.isCall])
    have hle := (hserial _ (List.prefix_refl _)).1
    rw [after_append, after_concat] at hle
    exact absurd hle (Nat.not_le.mpr hover)
  · intro h ms rest hp hrest
    exact ((h.of_prefix hp).append hrest).serial

/-- A job that is queued behind a released lane overlaps with the one that this lane
has not ended. -/
theorem not_serial_beside_released :
    ¬ ∀ (d : DeviceId) (moves : List (LaneMove Nat)), Serial d moves := by
  intro h
  have hserial := h ⟨"a"⟩
    [.enqueue ⟨"a"⟩ 0, .start 0, .removeDevice ⟨"a"⟩, .enqueue ⟨"a"⟩ 1, .start 1]
  exact absurd (hserial _ (List.prefix_refl _)).1 (by decide)

end Lanes

/-- When the lanes of a workshop go on until none can, the jobs of a device are serial
if none was queued while a released lane of the device had jobs. -/
theorem Workshop.exists_serial_settle {α : Type} {w : Workshop α}
    {moves : List (LaneMove (ScriptedJob α))} (hw : w.lanes = Lanes.after moves)
    (h : Lanes.QueuedBehind d moves) :
    ∃ rest, w.settle.lanes = Lanes.after (moves ++ rest) ∧ Lanes.Serial d (moves ++ rest) := by
  obtain ⟨rest, hrest, he⟩ := w.settles_settle
  refine ⟨rest, ?_, (h.append hrest).serial⟩
  rw [he, hw, Lanes.after_append]

end Southbound
