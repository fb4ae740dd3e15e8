import Mathlib.Data.List.Induction
import Southbound.Jobs.Scripted

/-!
# Moves of the lanes

What can happen to the lanes is a `LaneMove`: jobs are queued, lanes are released,
and lanes start and finish jobs.  The first two are asked for.  When a lane starts
or finishes a job is left open, so a list of moves is a run under any schedule, and
a job that never finishes is one whose `finish` never comes.

Of the lanes of one device, `LaneStep` says all that a move can do, together with
the jobs that it queues and starts (`Lanes.ofDevice_move`).  It needs that only the
last lane of the device takes jobs, and every move keeps that
(`Lanes.orderly_after`).
-/

namespace Southbound

/-- What can happen to lanes. -/
inductive LaneMove (ι : Type) where
  /-- A job is queued for a device. -/
  | enqueue (device : DeviceId) (job : ι)
  /-- The lane of a device is released. -/
  | removeDevice (device : DeviceId)
  /-- A lane starts its next job, if it does none. -/
  | start (lane : LaneId)
  /-- The job of a lane is done. -/
  | finish (lane : LaneId)

variable {ι : Type}

/-- Whether a move is asked for. -/
def LaneMove.isCall : LaneMove ι → Bool
  | enqueue _ _ => true
  | removeDevice _ => true
  | start _ => false
  | finish _ => false

/-! ## Runs -/

namespace Lanes

/-- The lanes after a move. -/
def move (ls : Lanes ι) : LaneMove ι → Lanes ι
  | .enqueue d job => ls.enqueue d job
  | .removeDevice d => (ls.removeDevice d).2
  | .start i => ls.modify i Lane.start
  | .finish i => ls.modify i Lane.finish

/-- The lanes after some moves. -/
def go (ls : Lanes ι) (moves : List (LaneMove ι)) : Lanes ι := moves.foldl move ls

/-- The lanes after some moves, of which there were none before. -/
def after (moves : List (LaneMove ι)) : Lanes ι := ({} : Lanes ι).go moves

/-- The lanes of a device, in the order in which they were made. -/
def ofDevice (ls : Lanes ι) (d : DeviceId) : List (Lane ι) := ls.all.filter (·.device = d)

/-- The jobs of a device that have started and not ended. -/
def inProgress (ls : Lanes ι) (d : DeviceId) : List ι := (ls.ofDevice d).filterMap (·.running)

@[simp] theorem go_nil (ls : Lanes ι) : ls.go [] = ls := rfl

@[simp] theorem go_cons (ls : Lanes ι) (m : LaneMove ι) (ms : List (LaneMove ι)) :
    ls.go (m :: ms) = (ls.move m).go ms := rfl

theorem go_append (ls : Lanes ι) (ms ms' : List (LaneMove ι)) :
    ls.go (ms ++ ms') = (ls.go ms).go ms' :=
  List.foldl_append

theorem after_append (ms ms' : List (LaneMove ι)) : after (ms ++ ms') = (after ms).go ms' :=
  go_append _ ms ms'

theorem after_concat (ms : List (LaneMove ι)) (m : LaneMove ι) :
    after (ms ++ [m]) = (after ms).move m :=
  after_append ms [m]

end Lanes

/-- The job that a move queues for a device. -/
def LaneMove.queued (d : DeviceId) : LaneMove ι → List ι
  | enqueue d' job => if d' = d then [job] else []
  | _ => []

/-- The job of a device that a move starts. -/
def Lanes.startedBy (ls : Lanes ι) (d : DeviceId) : LaneMove ι → List ι
  | .start i =>
    match ls.get? i with
    | some l => if l.device = d ∧ l.running = none then l.waiting.take 1 else []
    | none => []
  | _ => []

/-! ## The lanes of one device -/

/-- What can happen to the lanes of a device: from one list of lanes to another,
with the jobs that are queued and the jobs that start. -/
inductive LaneStep (d : DeviceId) : List (Lane ι) → List ι → List ι → List (Lane ι) → Prop where
  /-- The move is about another device. -/
  | still (ls : List (Lane ι)) : LaneStep d ls [] [] ls
  /-- A job is queued in a new lane. -/
  | fresh (ls : List (Lane ι)) (job : ι) (generation : Nat) :
      (∀ l ∈ ls, l.released = true) →
      LaneStep d ls [job] [] (ls ++ [{ device := d, generation, waiting := [job] }])
  /-- A job is queued in the last lane. -/
  | push (pre : List (Lane ι)) (l : Lane ι) (job : ι) :
      l.released = false →
      LaneStep d (pre ++ [l]) [job] [] (pre ++ [l.push job])
  | release (pre : List (Lane ι)) (l : Lane ι) :
      LaneStep d (pre ++ [l]) [] [] (pre ++ [{ l with released := true }])
  | start (pre post : List (Lane ι)) (l : Lane ι) (job : ι) (jobs : List ι) :
      l.running = none → l.waiting = job :: jobs →
      LaneStep d (pre ++ l :: post) [] [job]
        (pre ++ { l with running := some job, waiting := jobs } :: post)
  | finish (pre post : List (Lane ι)) (l : Lane ι) :
      LaneStep d (pre ++ l :: post) [] [] (pre ++ l.finish :: post)

/-- Only the last of some lanes takes jobs. -/
def Orderly (ls : List (Lane ι)) : Prop := ls.Pairwise fun l _ => l.released = true

/-- Of some elements, all but the last have a property. -/
theorem pairwise_concat_iff {α : Type} {p : α → Prop} {pre : List α} {a : α} :
    (pre ++ [a]).Pairwise (fun b _ => p b) ↔ ∀ b ∈ pre, p b := by
  rw [List.pairwise_append]
  constructor
  · intro h b hb
    exact h.2.2 b hb a (.head _)
  · intro h
    exact ⟨List.pairwise_of_forall_mem_list fun b hb _ _ => h b hb, List.pairwise_singleton ..,
      fun b hb _ _ => h b hb⟩

/-- Lanes of which only the last takes jobs are all released, or the last is not. -/
theorem Orderly.cases {ls : List (Lane ι)} (h : Orderly ls) :
    (∀ l ∈ ls, l.released = true) ∨
      ∃ pre l, ls = pre ++ [l] ∧ l.released = false ∧ ∀ l' ∈ pre, l'.released = true := by
  induction ls using List.reverseRecOn with
  | nil => exact .inl (by simp)
  | append_singleton pre l _ =>
      have hpre := pairwise_concat_iff.mp h
      cases hl : l.released with
      | false => exact .inr ⟨pre, l, rfl, hl, hpre⟩
      | true =>
          left
          intro l' hl'
          cases List.mem_append.mp hl' with
          | inl hm => exact hpre l' hm
          | inr hm => rw [List.mem_singleton.mp hm, hl]

/-- What happens to a lane in its place, other lanes need not know. -/
theorem Orderly.replace {pre post : List (Lane ι)} {l l' : Lane ι}
    (h : Orderly (pre ++ l :: post)) (hl : l'.released = l.released) :
    Orderly (pre ++ l' :: post) := by
  rw [Orderly] at h ⊢
  rw [List.pairwise_append, List.pairwise_cons] at h ⊢
  obtain ⟨hpre, ⟨hpost, hrest⟩, hcross⟩ := h
  refine ⟨hpre, ⟨fun a ha => hl.trans (hpost a ha), hrest⟩, fun a ha b _ => ?_⟩
  exact hcross a ha l (.head _)

theorem LaneStep.orderly {d : DeviceId} {ls ls' : List (Lane ι)} {queued started : List ι}
    (hs : LaneStep d ls queued started ls') (h : Orderly ls) : Orderly ls' := by
  cases hs with
  | still => exact h
  | fresh _ job g hall => exact pairwise_concat_iff.mpr hall
  | push pre l job hl => exact h.replace rfl
  | release pre l => exact pairwise_concat_iff.mpr (pairwise_concat_iff.mp h)
  | start pre post l job jobs hr hw => exact h.replace rfl
  | finish pre post l => exact h.replace rfl

namespace Lanes

theorem mem_ofDevice {ls : Lanes ι} {d : DeviceId} {l : Lane ι} :
    l ∈ ls.ofDevice d ↔ l ∈ ls.all ∧ l.device = d := by
  simp [ofDevice]

/-- A lane that takes jobs of a device is among its lanes. -/
theorem any_takes (ls : Lanes ι) (d : DeviceId) :
    ls.all.any (·.takes d) = (ls.ofDevice d).any (!·.released) := by
  rw [ofDevice, List.any_filter]
  rfl

/-! ### Changes of the lane that takes jobs -/

section Taking

variable {f : Lane ι → Lane ι}

/-- A change of the lane that takes the jobs of a device, seen from that device. -/
theorem ofDevice_map_takes (ls : Lanes ι) (d : DeviceId) (hf : ∀ l, (f l).device = l.device) :
    ofDevice ⟨ls.all.map fun l => if l.takes d then f l else l⟩ d =
      (ls.ofDevice d).map fun l => if l.takes d then f l else l := by
  rw [ofDevice]
  rw [List.filter_map]
  congr 1
  refine List.filter_congr fun l _ => ?_
  simp only [Function.comp_apply]
  split
  · rw [hf]
  · rfl

/-- A change of the lane that takes the jobs of a device, seen from another. -/
theorem ofDevice_map_takes_of_ne (ls : Lanes ι) {d d' : DeviceId} (hne : d' ≠ d)
    (hf : ∀ l, (f l).device = l.device) :
    ofDevice ⟨ls.all.map fun l => if l.takes d' then f l else l⟩ d = ls.ofDevice d := by
  simp only [ofDevice]
  induction ls.all with
  | nil => rfl
  | cons l ls ih =>
      rw [List.map_cons, List.filter_cons, List.filter_cons, ih]
      by_cases ht : l.takes d' = true
      · have hl : l.device = d' := by
          simp only [Lane.takes, Bool.and_eq_true, decide_eq_true_eq] at ht
          exact ht.1
        simp [ht, hf, hl, hne]
      · simp [ht]

/-- If all lanes are released, there is none to change. -/
theorem map_takes_of_released {d : DeviceId} {ls : List (Lane ι)}
    (h : ∀ l ∈ ls, l.released = true) :
    ls.map (fun l => if l.takes d then f l else l) = ls :=
  (List.map_congr_left fun l hl => by simp [Lane.takes, h l hl]).trans (List.map_id' ls)

/-- If only the last lane is not released, it is the one that is changed. -/
theorem map_takes_concat {d : DeviceId} {pre : List (Lane ι)} {l : Lane ι}
    (hd : l.device = d) (hl : l.released = false) (hpre : ∀ l' ∈ pre, l'.released = true) :
    (pre ++ [l]).map (fun l => if l.takes d then f l else l) = pre ++ [f l] := by
  rw [List.map_append, map_takes_of_released hpre]
  simp [Lane.takes, hd, hl]

end Taking

/-! ### Changes of one lane -/

/-- A lane that is changed is one of its device, or not among the lanes of another. -/
theorem ofDevice_modify (ls : Lanes ι) (d : DeviceId) (i : LaneId) {f : Lane ι → Lane ι}
    (hf : ∀ l, (f l).device = l.device) :
    (∃ pre l post, ls.get? i = some l ∧ l.device = d ∧ ls.ofDevice d = pre ++ l :: post ∧
        (ls.modify i f).ofDevice d = pre ++ f l :: post) ∨
      ((∀ l, ls.get? i = some l → l.device ≠ d) ∧
        (ls.modify i f).ofDevice d = ls.ofDevice d) := by
  simp only [ofDevice, Lanes.modify, Lanes.get?]
  by_cases hi : i < ls.all.length
  · obtain ⟨pre, l, post, hall, hlen, hmod⟩ := List.exists_of_modify f hi
    have hget : ls.all[i]? = some l := by simp [hall, ← hlen]
    rw [hmod, hget, hall]
    by_cases hd : l.device = d
    · left
      refine ⟨pre.filter (·.device = d), l, post.filter (·.device = d), rfl, hd, ?_, ?_⟩
      · simp [hd]
      · simp [hf, hd]
    · right
      refine ⟨fun l' he => ?_, by simp [hf, hd]⟩
      cases he
      exact hd
  · right
    have hget : ls.all[i]? = none := List.getElem?_eq_none (Nat.le_of_not_lt hi)
    refine ⟨fun l he => ?_, ?_⟩
    · rw [hget] at he
      cases he
    · rw [List.modify_eq_self (Nat.le_of_not_lt hi)]

theorem start_of_canStart {l : Lane ι} {job : ι} {jobs : List ι} (hr : l.running = none)
    (hw : l.waiting = job :: jobs) :
    l.start = { l with running := some job, waiting := jobs } := by
  simp [Lane.start, hr, hw]

theorem start_device (l : Lane ι) : l.start.device = l.device := by
  rw [Lane.start]
  split <;> rfl

/-! ### What each move does -/

section Steps

variable {ls : Lanes ι} {d : DeviceId}

theorem ofDevice_enqueue_of_ne {d' : DeviceId} (hne : d' ≠ d) (job : ι) :
    (ls.enqueue d' job).ofDevice d = ls.ofDevice d := by
  simp only [enqueue, ofDevice]
  split
  · exact ofDevice_map_takes_of_ne ls hne fun _ => rfl
  · simp [List.filter_append, hne]

theorem ofDevice_removeDevice_of_ne {d' : DeviceId} (hne : d' ≠ d) :
    (ls.removeDevice d').2.ofDevice d = ls.ofDevice d :=
  ofDevice_map_takes_of_ne ls hne fun _ => rfl

/-- A job is queued in the last lane, or in a new one if that takes no jobs. -/
theorem ofDevice_enqueue (h : Orderly (ls.ofDevice d)) (job : ι) :
    LaneStep d (ls.ofDevice d) [job] [] ((ls.enqueue d job).ofDevice d) := by
  rw [enqueue]
  rw [any_takes]
  cases h.cases with
  | inl hall =>
      have hany : (ls.ofDevice d).any (!·.released) = false := by simpa using hall
      have hstep := LaneStep.fresh (d := d) _ job (ls.all.filter (·.device = d)).length hall
      rw [hany]
      simpa [ofDevice] using hstep
  | inr hlast =>
      obtain ⟨pre, l, he, hl, hpre⟩ := hlast
      have hany : (ls.ofDevice d).any (!·.released) = true := by simp [he, hl]
      have hd : l.device = d := (mem_ofDevice.mp (he ▸ List.mem_concat_self)).2
      rw [hany, if_pos rfl]
      have hmap := ofDevice_map_takes (f := (·.push job)) ls d fun _ => rfl
      rw [he, map_takes_concat hd hl hpre] at hmap
      rw [he]
      exact hmap ▸ .push pre l job hl

/-- The last lane is released, unless it was before. -/
theorem ofDevice_removeDevice (h : Orderly (ls.ofDevice d)) :
    LaneStep d (ls.ofDevice d) [] [] ((ls.removeDevice d).2.ofDevice d) := by
  have hmap := ofDevice_map_takes (f := fun l => { l with released := true }) ls d fun _ => rfl
  cases h.cases with
  | inl hall =>
      rw [map_takes_of_released hall] at hmap
      exact hmap ▸ .still _
  | inr hlast =>
      obtain ⟨pre, l, he, hl, hpre⟩ := hlast
      have hd : l.device = d := (mem_ofDevice.mp (he ▸ List.mem_concat_self)).2
      rw [he, map_takes_concat hd hl hpre] at hmap
      rw [he]
      exact hmap ▸ .release pre l

/-- A lane of the device starts its next job, or nothing happens. -/
theorem ofDevice_start (i : LaneId) :
    LaneStep d (ls.ofDevice d) [] (ls.startedBy d (.start i))
      ((ls.modify i Lane.start).ofDevice d) := by
  simp only [startedBy]
  cases ofDevice_modify ls d i start_device with
  | inr hnone =>
      obtain ⟨hne, hsame⟩ := hnone
      rw [hsame]
      cases hget : ls.get? i with
      | none => exact .still _
      | some l =>
          have hskip : ¬(l.device = d ∧ l.running = none) := fun hc => hne l hget hc.1
          simp only [if_neg hskip]
          exact .still _
  | inl hone =>
      obtain ⟨pre, l, post, hget, hld, he, hmod⟩ := hone
      rw [hget, he, hmod]
      simp only [hld, true_and]
      cases hr : l.running with
      | some job =>
          have hidle : l.start = l := by simp [Lane.start, hr]
          rw [hidle, if_neg (by simp)]
          exact .still _
      | none =>
          rw [if_pos rfl]
          cases hw : l.waiting with
          | nil =>
              have hidle : l.start = l := by simp [Lane.start, hr, hw]
              rw [hidle]
              exact .still _
          | cons job jobs =>
              rw [start_of_canStart hr hw]
              exact .start pre post l job jobs hr hw

/-- A lane of the device finishes its job, or nothing happens. -/
theorem ofDevice_finish (i : LaneId) :
    LaneStep d (ls.ofDevice d) [] [] ((ls.modify i Lane.finish).ofDevice d) := by
  cases ofDevice_modify ls d i (f := Lane.finish) fun _ => rfl with
  | inl hone =>
      obtain ⟨pre, l, post, -, -, he, hmod⟩ := hone
      rw [he, hmod]
      exact .finish pre post l
  | inr hnone =>
      rw [hnone.2]
      exact .still _

/-- All that a move can do to the lanes of a device. -/
theorem ofDevice_move (h : Orderly (ls.ofDevice d)) (m : LaneMove ι) :
    LaneStep d (ls.ofDevice d) (m.queued d) (ls.startedBy d m) ((ls.move m).ofDevice d) := by
  cases m with
  | enqueue d' job =>
      by_cases hd : d' = d
      · subst hd
        rw [LaneMove.queued, if_pos rfl]
        exact ofDevice_enqueue h job
      · rw [LaneMove.queued, if_neg hd, move, ofDevice_enqueue_of_ne hd]
        exact .still _
  | removeDevice d' =>
      by_cases hd : d' = d
      · subst hd
        exact ofDevice_removeDevice h
      · rw [move, ofDevice_removeDevice_of_ne hd]
        exact .still _
  | start i => exact ofDevice_start i
  | finish i => exact ofDevice_finish i

end Steps

/-- Only the last lane of a device takes jobs. -/
theorem orderly_after (d : DeviceId) (moves : List (LaneMove ι)) :
    Orderly ((after moves).ofDevice d) := by
  induction moves using List.reverseRecOn with
  | nil => exact List.Pairwise.nil
  | append_singleton ms m ih =>
      rw [after_concat]
      exact (ofDevice_move ih m).orderly ih

/-! ## Lanes by their numbers -/

theorem get?_modify (ls : Lanes ι) (i j : LaneId) (f : Lane ι → Lane ι) :
    (ls.modify i f).get? j = if i = j then (ls.get? j).map f else ls.get? j := by
  show (ls.all.modify i f)[j]? = _
  rw [List.getElem?_modify]
  split
  · simp [get?]
  · simp [get?]

/-- A lane after a job was queued: it is as it was, it took the job, or it is new. -/
theorem get?_enqueue {ls : Lanes ι} {d : DeviceId} {job : ι} {i : LaneId} {l : Lane ι}
    (h : (ls.enqueue d job).get? i = some l) :
    (∃ l₀, ls.get? i = some l₀ ∧ (l = l₀ ∨ l₀.takes d = true ∧ l = l₀.push job)) ∨
      (∃ generation, l = { device := d, generation, waiting := [job] }) ∧ ls.get? i = none := by
  rw [enqueue, get?] at h
  split at h
  · left
    rw [List.getElem?_map] at h
    cases hi : ls.all[i]? with
    | none =>
        rw [hi] at h
        cases h
    | some l₀ =>
        rw [hi] at h
        refine ⟨l₀, hi, ?_⟩
        have hl := Option.some.inj h
        dsimp only at hl
        split at hl
        · next ht => exact .inr ⟨ht, hl.symm⟩
        · exact .inl hl.symm
  · rw [List.getElem?_append] at h
    split at h
    · exact .inl ⟨l, h, .inl rfl⟩
    · next hlt =>
        right
        rw [List.getElem?_singleton] at h
        split at h
        · exact ⟨⟨_, (Option.some.inj h).symm⟩, List.getElem?_eq_none (Nat.le_of_not_lt hlt)⟩
        · cases h

/-- A lane after the lane of a device was released. -/
theorem get?_removeDevice {ls : Lanes ι} {d : DeviceId} {i : LaneId} {l : Lane ι}
    (h : (ls.removeDevice d).2.get? i = some l) :
    ∃ l₀, ls.get? i = some l₀ ∧ (l = l₀ ∨ l = { l₀ with released := true }) := by
  rw [removeDevice, get?] at h
  rw [List.getElem?_map] at h
  cases hi : ls.all[i]? with
  | none =>
      rw [hi] at h
      cases h
  | some l₀ =>
      rw [hi] at h
      refine ⟨l₀, hi, ?_⟩
      have hl := Option.some.inj h
      dsimp only at hl
      split at hl
      · exact .inr hl.symm
      · exact .inl hl.symm

end Lanes

/-! ## The lanes of a workshop -/

namespace Workshop

variable {α : Type}

/-- Some steps of lanes are moves that nobody asks for. -/
def Settles (w w' : Workshop α) : Prop :=
  ∃ moves, (∀ m ∈ moves, LaneMove.isCall m = false) ∧ w'.lanes = w.lanes.go moves

theorem Settles.refl (w : Workshop α) : w.Settles w := ⟨[], by simp, rfl⟩

theorem Settles.trans {w w' w'' : Workshop α} (h : w.Settles w') (h' : w'.Settles w'') :
    w.Settles w'' := by
  obtain ⟨ms, hms, he⟩ := h
  obtain ⟨ms', hms', he'⟩ := h'
  refine ⟨ms ++ ms', fun m hm => ?_, by rw [he', he, Lanes.go_append]⟩
  exact (List.mem_append.mp hm).elim (hms m) (hms' m)

theorem settles_step (w : Workshop α) (i : LaneId) : w.Settles (w.step i) := by
  rw [step]
  split
  · exact .refl w
  · split
    · split
      · exact .refl w
      · exact ⟨[.start i], by simp [LaneMove.isCall], rfl⟩
    · split
      · exact .refl w
      · exact ⟨[.finish i], by simp [LaneMove.isCall], rfl⟩

theorem settles_round (w : Workshop α) : w.Settles w.round := by
  rw [round]
  induction List.range w.lanes.all.length generalizing w with
  | nil => exact .refl w
  | cons i is ih => exact (settles_step w i).trans (ih _)

/-- Letting every lane go on until none can is a run in which lanes start and finish
jobs. -/
theorem settles_settle (w : Workshop α) : w.Settles w.settle := by
  rw [settle]
  generalize 2 * w.openJobs = n
  induction n generalizing w with
  | zero => exact .refl w
  | succ n ih => exact (settles_round w).trans (ih w.round)

end Workshop

end Southbound
