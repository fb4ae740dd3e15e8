import Southbound.Proofs.System.Lifecycle

/-!
# What an event does to errands

Errands are numbered as they are begun, so no two have the same number
(`System.Numbered`).  All that an event can do to them is one `System.ErrandStep`
(`System.errandStep_after`).  It tells those that detach all devices, one after another,
from the others: such an errand stays as it is until it goes on itself or is abandoned.
-/

namespace Southbound

/-- Whether an errand detaches devices one after another. -/
def Errand.isShutdown : Errand → Bool
  | .shutdown _ _ => true
  | _ => false

namespace System

variable {s s' : System} {n : ErrandId} {errand errand' : Errand} {e : Event}

/-! ## The numbers of errands -/

/-- No two errands have the same number. -/
structure Numbered (s : System) : Prop where
  distinct : (s.errands.map Prod.fst).Nodup
  /-- The next number is greater than all these. -/
  bounded : ∀ n ∈ s.errands.map Prod.fst, n < s.begun

/-- An errand is found by its number. -/
theorem Numbered.errand?_eq_some_iff (h : s.Numbered) :
    s.errand? n = some errand ↔ (n, errand) ∈ s.errands := by
  rw [errand?]
  have hdistinct := h.distinct
  generalize s.errands = errands at hdistinct
  induction errands with
  | nil => simp
  | cons first errands ih =>
      obtain ⟨n', errand'⟩ := first
      rw [List.map_cons, List.nodup_cons] at hdistinct
      rw [List.lookup_cons, List.mem_cons]
      by_cases hn : n = n'
      · subst hn
        have hnew : (n, errand) ∉ errands := fun hmem =>
          hdistinct.1 (List.mem_map.mpr ⟨_, hmem, rfl⟩)
        simp [hnew, eq_comm]
      · have hne : (n == n') = false := by simpa using hn
        rw [hne]
        simpa [hn] using ih hdistinct.2

theorem numbered_new {config : Config} {s₀ : System} (h : System.new config = .ok s₀) :
    s₀.Numbered := by
  cases eq_of_new h
  exact ⟨.nil, List.forall_mem_nil _⟩

/-- Some errands are kept. -/
theorem Numbered.of_sublist (h : s.Numbered) (hsub : s'.errands.Sublist s.errands)
    (hbegun : s'.begun = s.begun) : s'.Numbered where
  distinct := h.distinct.sublist (hsub.map _)
  bounded n hn := hbegun ▸ h.bounded n ((hsub.map _).subset hn)

theorem Numbered.begin (h : s.Numbered) (errand : Errand) : (s.begin errand).2.Numbered where
  distinct := by
    rw [System.begin, List.map_append, List.nodup_append]
    refine ⟨h.distinct, List.pairwise_singleton .., fun n hn n' hn' => ?_⟩
    rw [List.mem_singleton.mp hn']
    exact Nat.ne_of_lt (h.bounded n hn)
  bounded := by
    rw [System.begin, List.map_append]
    refine List.forall_mem_append.mpr ⟨fun n hn => Nat.lt_succ_of_lt (h.bounded n hn), ?_⟩
    exact List.forall_mem_singleton.mpr (Nat.lt_succ_self _)

@[simp] theorem map_fst_setErrand (s : System) (n : ErrandId) (errand : Errand) :
    (s.setErrand n errand).errands.map Prod.fst = s.errands.map Prod.fst := by
  simp [setErrand]

/-- The errands after one was put in the place of another. -/
theorem mem_setErrand (s : System) (n n' : ErrandId) :
    (n', errand') ∈ (s.setErrand n errand).errands ↔
      n' ≠ n ∧ (n', errand') ∈ s.errands ∨
        n' = n ∧ errand' = errand ∧ n ∈ s.errands.map Prod.fst := by
  simp only [setErrand, List.mem_map, Prod.mk.injEq, Prod.exists]
  constructor
  · rintro ⟨n₁, errand₁, hmem, rfl, rfl⟩
    by_cases hn : n₁ = n
    · exact .inr ⟨hn, if_pos hn, n₁, errand₁, hmem, hn⟩
    · rw [if_neg hn]
      exact .inl ⟨hn, hmem⟩
  · rintro (⟨hne, hmem⟩ | ⟨rfl, rfl, n₁, errand₁, hmem, rfl⟩)
    · exact ⟨n', errand', hmem, rfl, if_neg hne⟩
    · exact ⟨n₁, errand₁, hmem, rfl, if_pos rfl⟩

/-! ## Errands and programs -/

theorem run_errands {α : Type} (s : System) (d : DeviceId) (c : ConnectionId) (p : Program α) :
    (s.run d c p).2.errands = s.errands ∧ (s.run d c p).2.begun = s.begun := by
  induction p generalizing s with
  | done a => exact ⟨rfl, rfl⟩
  | step q next ih =>
      rw [run]
      cases hperform : s.perform d c q with
      | answer a s₁ =>
          have heff := perform_effects hperform
          obtain ⟨he, hb⟩ := ih a s₁
          exact ⟨he.trans heff.errands, hb.trans heff.begun⟩
      | wait => exact ⟨rfl, rfl⟩
      | breakOff => exact ⟨rfl, rfl⟩

theorem stepProgram_errands {α : Type} (s : System) (d : DeviceId) (c : ConnectionId)
    (p : Program α) :
    (s.stepProgram d c p).2.errands = s.errands ∧ (s.stepProgram d c p).2.begun = s.begun := by
  cases p with
  | done a => exact ⟨rfl, rfl⟩
  | step q next =>
      rw [stepProgram]
      cases hperform : s.perform d c q with
      | answer a s₁ => exact ⟨(perform_effects hperform).errands, (perform_effects hperform).begun⟩
      | wait => exact ⟨rfl, rfl⟩
      | breakOff => exact ⟨rfl, rfl⟩

theorem JobStep.begun {l : LaneId} (h : JobStep s l s') : s'.begun = s.begun := by
  cases h with
  | answer _ _ hperform => exact (perform_effects hperform).begun
  | _ => rfl

theorem errands_insert (s : System) (c : ConnectionId) :
    (s.insert c).errands = s.errands ∧ (s.insert c).begun = s.begun := by
  cases hd : s.deviceOf? c with
  | none => rw [insert_of_none hd]; exact ⟨rfl, rfl⟩
  | some d => rw [insert_eq hd]; exact ⟨rfl, rfl⟩

/-- An errand is put among the same others. -/
theorem setErrand_congr (h : s'.errands = s.errands) (n : ErrandId) (errand : Errand) :
    (s'.setErrand n errand).errands = (s.setErrand n errand).errands := by
  rw [setErrand, setErrand, h]

theorem isShutdown_errand (d : DeviceId) (c : ConnectionId) (progress : Progress (Outcome Result)) :
    (progress.errand d c).isShutdown = false := by
  cases progress <;> rfl

theorem errands_detachNext {s₁ : System} {ds : List DeviceId} (h : s.detachNext ds = (errand, s₁)) :
    s₁.errands = s.errands ∧ s₁.begun = s.begun := by
  rcases s.detachNext_split ds with ⟨hover, -⟩ | ⟨-, d, rest, t, s', -, -, hd, hnext⟩
  · cases hover.symm.trans h
    exact ⟨rfl, rfl⟩
  · cases hnext.symm.trans h
    obtain ⟨c, -, -, rfl⟩ := detach?_eq hd
    exact ⟨rfl, rfl⟩

/-! ## Events -/

/-- Errands that detach devices stay as they are, and others may go. -/
structure Passed (s s' : System) : Prop where
  begun : s'.begun = s.begun
  sublist : s'.errands.Sublist s.errands
  stays : ∀ errand ∈ s.errands, errand.2.isShutdown = true → errand ∈ s'.errands

theorem Passed.of_eq (he : s'.errands = s.errands) (hb : s'.begun = s.begun) : Passed s s' where
  begun := hb
  sublist := he ▸ .refl _
  stays _ hmem _ := he ▸ hmem

/-- All that an event can do to errands. -/
inductive ErrandStep (s : System) : Event → System → Prop where
  /-- Errands that detach no devices may go. -/
  | passed {e : Event} {s' : System} : Passed s s' → ErrandStep s e s'
  /-- Errands that detach no devices may go, and another such is begun. -/
  | begun {e : Event} {errand : Errand} {s₁ : System} : Passed s s₁ → errand.isShutdown = false →
      ErrandStep s e (s₁.begin errand).2
  | abandoned {n : ErrandId} {s' : System} :
      s'.errands = s.errands.filter (·.1 ≠ n) → s'.begun = s.begun → ErrandStep s (.abandon n) s'
  /-- An errand that detaches no devices goes on. -/
  | advanced {n : ErrandId} {errand errand' : Errand} {s' : System} :
      s.errand? n = some errand → errand.isShutdown = false → errand'.isShutdown = false →
      s'.errands = (s.setErrand n errand').errands → s'.begun = s.begun →
      ErrandStep s (.stepErrand n) s'
  /-- All devices are to be detached. -/
  | shutdown {errand : Errand} {s₁ : System} :
      s.pipeline.shuttingDown = false →
      detachNext { s with pipeline.shuttingDown := true } s.pipeline.devices = (errand, s₁) →
      ErrandStep s .shutdown (s₁.begin errand).2
  /-- A device was detached, and the next one is. -/
  | detached {n : ErrandId} {t : Ticket} {rest : List DeviceId} {errand : Errand} {s₁ : System} :
      s.errand? n = some (.shutdown t rest) → (s.jobResult? t).isSome →
      s.detachNext rest = (errand, s₁) → ErrandStep s (.stepErrand n) (s₁.setErrand n errand)

theorem errandStep_kept (he : s'.errands = s.errands) (hb : s'.begun = s.begun) :
    ErrandStep s e s' :=
  .passed (.of_eq he hb)

/-- An errand that detaches no devices is begun. -/
theorem errandStep_begin {s₁ : System} (he : s₁.errands = s.errands) (hb : s₁.begun = s.begun)
    (herrand : errand.isShutdown = false) : ErrandStep s e (s₁.begin errand).2 :=
  .begun (.of_eq he hb) herrand

/-- An errand runs a program. -/
theorem errandStep_beginProgram {s₁ : System} (h : Passed s s₁) (c : ConnectionId)
    (o : Operation Unit) : ErrandStep s e (s₁.beginProgram c o).2 := by
  obtain ⟨he, hb⟩ := s₁.run_errands (s₁.errandDevice c) c
    (Functor.map (fun _ => Result.done) o).run
  refine .begun ⟨hb.trans h.begun, he ▸ h.sublist, fun errand hmem herrand => ?_⟩
    (isShutdown_errand ..)
  rw [he]
  exact h.stays errand hmem herrand

/-- An errand that does not wait for a message is not taken for a batch. -/
theorem Numbered.mem_takePromises? {ns : List ErrandId} {ps : List Promise} (h : s.Numbered)
    (htake : s.takePromises? ns = some (ps, s')) (hmem : (n, errand) ∈ s.errands)
    (hreply : ∀ p, errand ≠ .reply p) : (n, errand) ∈ s'.errands := by
  induction ns generalizing s ps with
  | nil =>
      cases htake
      exact hmem
  | cons n' ns ih =>
      rw [System.takePromises?] at htake
      split at htake
      · next p hn =>
          obtain ⟨r, htail, he⟩ := Option.bind_eq_some_iff.mp htake
          cases he
          have hnumbered : Numbered { s with errands := s.errands.filter (·.1 ≠ n') } :=
            h.of_sublist List.filter_sublist rfl
          refine ih hnumbered htail (List.mem_filter.mpr ⟨hmem, ?_⟩)
          -- It is not the errand that waits for a message.
          simp only [ne_eq, decide_eq_true_eq]
          rintro rfl
          exact hreply p (Option.some.inj ((h.errand?_eq_some_iff.mpr hmem).symm.trans hn))
      · cases htake

/-- Of the errands, only some that wait for messages are taken for a batch. -/
theorem Numbered.takePromises? {ns : List ErrandId} {ps : List Promise} (h : s.Numbered)
    (htake : s.takePromises? ns = some (ps, s')) : Passed s s' := by
  have hrest : s'.begun = s.begun ∧ s'.errands.Sublist s.errands := by
    clear h
    induction ns generalizing s ps with
    | nil =>
        cases htake
        exact ⟨rfl, .refl _⟩
    | cons n ns ih =>
        rw [System.takePromises?] at htake
        split at htake
        · obtain ⟨r, htail, he⟩ := Option.bind_eq_some_iff.mp htake
          cases he
          exact (ih htail).imp_right fun hsub => hsub.trans List.filter_sublist
        · cases htake
  refine ⟨hrest.1, hrest.2, fun errand hmem herrand => h.mem_takePromises? htake hmem ?_⟩
  intro p heq
  rw [heq] at herrand
  cases herrand

/-- An errand goes on. -/
theorem errandStep_stepErrand (s : System) (n : ErrandId) :
    ErrandStep s (.stepErrand n) (s.stepErrand n) := by
  rw [stepErrand]
  cases hn : s.errand? n with
  | none => exact errandStep_kept rfl rfl
  | some errand =>
      rw [Option.bind_some]
      cases errand with
      | «over» result => exact errandStep_kept rfl rfl
      | reply p => exact errandStep_kept rfl rfl
      | attach c =>
          obtain ⟨he, hb⟩ := s.errands_insert c
          exact .advanced hn rfl rfl (setErrand_congr he n _) hb
      | job t quiet =>
          simp only [advanceErrand?]
          cases s.jobResult? t with
          | none => exact errandStep_kept rfl rfl
          | some result => exact .advanced hn rfl rfl rfl rfl
      | detach t =>
          simp only [advanceErrand?]
          cases s.jobResult? t with
          | none => exact errandStep_kept rfl rfl
          | some result => exact .advanced hn rfl rfl rfl rfl
      | shutdown t rest =>
          simp only [advanceErrand?]
          cases ht : s.jobResult? t with
          | none => exact errandStep_kept rfl rfl
          | some result => exact .detached hn (by rw [ht]; rfl) rfl
      | program c rest =>
          simp only [advanceErrand?]
          split
          · next errand' s₁ hsome =>
              split at hsome
              · cases hsome
                obtain ⟨he, hb⟩ := s.stepProgram_errands (s.errandDevice c) c rest
                exact .advanced hn rfl (isShutdown_errand ..) (setErrand_congr he n _) hb
              · cases hsome
          · exact errandStep_kept rfl rfl

/-- What an errand does when it goes on leaves the others alone. -/
theorem advanceErrand?_errands {s₁ : System} (h : s.advanceErrand? errand = some (errand', s₁)) :
    s₁.errands = s.errands := by
  cases errand with
  | «over» result => cases h
  | reply p => cases h
  | attach c =>
      cases h
      exact (s.errands_insert c).1
  | job t quiet =>
      obtain ⟨result, -, heq⟩ := Option.map_eq_some_iff.mp h
      cases heq
      rfl
  | detach t =>
      obtain ⟨result, -, heq⟩ := Option.map_eq_some_iff.mp h
      cases heq
      rfl
  | shutdown t rest =>
      obtain ⟨result, -, heq⟩ := Option.map_eq_some_iff.mp h
      exact (errands_detachNext heq).1
  | program c rest =>
      rw [advanceErrand?] at h
      split at h
      · cases h
        exact (s.stepProgram_errands (s.errandDevice c) c rest).1
      · cases h

theorem errandStep_after (h : s.Numbered) (e : Event) : ErrandStep s e (s.after e) := by
  cases e with
  | openConnection d codec wireCapacity =>
      simp only [after]
      split <;> exact errandStep_kept rfl rfl
  | send c x m =>
      simp only [after, beginSend?]
      cases hsend : s.send c x m with
      | none => exact errandStep_kept rfl rfl
      | some r =>
          have htail := send_transported hsend
          exact errandStep_begin htail.errands htail.begun rfl
  | barrier c =>
      exact errandStep_beginProgram (.of_eq rfl rfl) c .barrier
  | compose c ns barrierAfter =>
      simp only [after, beginBatch?]
      cases hps : s.takePromises? ns with
      | none => exact errandStep_kept rfl rfl
      | some r => exact errandStep_beginProgram (h.takePromises? hps) c _
  | cancel n =>
      simp only [after, cancel?]
      cases s.errand? n with
      | none => exact errandStep_kept rfl rfl
      | some errand =>
          cases errand with
          | reply p =>
              simp only [Option.map_some, Option.getD_some, withdraw]
              split <;> exact errandStep_kept rfl rfl
          | _ => exact errandStep_kept rfl rfl
  | abandon n => exact .abandoned rfl rfl
  | takeResults =>
      refine .passed ⟨rfl, List.filter_sublist, fun errand hmem herrand => ?_⟩
      obtain ⟨n, errand⟩ := errand
      cases errand with
      | shutdown t rest => exact List.mem_filter.mpr ⟨hmem, rfl⟩
      | _ => cases herrand
  | submit r quiet =>
      simp only [after, submit]
      split
      · exact errandStep_begin rfl rfl rfl
      · exact errandStep_begin rfl rfl rfl
  | noteStale flow =>
      simp only [after, noteStale]
      split
      · exact errandStep_begin rfl rfl rfl
      · exact errandStep_begin rfl rfl rfl
  | attach c =>
      rw [after_attach]
      split
      · exact errandStep_begin rfl rfl rfl
      · exact errandStep_begin (s.errands_insert c).1 (s.errands_insert c).2 rfl
  | lateAttach c =>
      simp only [after, beginLateAttach]
      split <;> exact errandStep_begin rfl rfl rfl
  | detach d =>
      simp only [after, beginDetach]
      split
      · next hd =>
          obtain ⟨c, -, -, rfl⟩ := detach?_eq hd
          exact errandStep_begin rfl rfl rfl
      · exact errandStep_begin rfl rfl rfl
  | shutdown =>
      simp only [after, beginShutdown]
      split
      · exact errandStep_begin rfl rfl rfl
      · next hrunning => exact .shutdown (by simpa using hrunning) rfl
  | stepJob l =>
      have hstep := jobStep_stepJob s l
      exact errandStep_kept hstep.errands hstep.begun
  | stepErrand n => exact errandStep_stepErrand s n
  | _ => exact errandStep_kept rfl rfl

/-- Errands keep their numbers. -/
theorem Numbered.after (h : s.Numbered) (e : Event) : (s.after e).Numbered := by
  have hstep := errandStep_after h e
  generalize s.after e = s' at hstep ⊢
  have hset {s₁ s₂ : System} (hs₁ : s₁.Numbered) {n : ErrandId} {errand : Errand}
      (he : s₂.errands = (s₁.setErrand n errand).errands) (hb : s₂.begun = s₁.begun) :
      s₂.Numbered := by
    constructor
    · rw [he, map_fst_setErrand]
      exact hs₁.distinct
    · rw [he, map_fst_setErrand, hb]
      exact hs₁.bounded
  cases hstep with
  | passed hpassed => exact h.of_sublist hpassed.sublist hpassed.begun
  | begun hpassed _ => exact (h.of_sublist hpassed.sublist hpassed.begun).begin _
  | abandoned he hb => exact h.of_sublist (he ▸ List.filter_sublist) hb
  | advanced _ _ _ he hb => exact hset h he hb
  | shutdown _ hnext =>
      obtain ⟨he, hb⟩ := errands_detachNext hnext
      exact (h.of_sublist (he ▸ .refl _) hb).begin _
  | detached _ _ hnext =>
      obtain ⟨he, hb⟩ := errands_detachNext hnext
      exact hset (h.of_sublist (he ▸ .refl _) hb) rfl rfl

/-- An errand stays as it is until it goes on, is abandoned or has its result taken, unless it
waits for a message. -/
theorem Numbered.mem_errands_after (h : s.Numbered) (hmem : (n, errand) ∈ s.errands)
    (hreply : ∀ p, errand ≠ .reply p) (hstep : e ≠ .stepErrand n) (habandon : e ≠ .abandon n)
    (htake : e = .takeResults → s.outcome? errand = none) :
    (n, errand) ∈ (s.after e).errands := by
  have hbegin {s₁ : System} (he : s₁.errands = s.errands) (errand' : Errand) :
      (n, errand) ∈ (s₁.begin errand').2.errands :=
    List.mem_append_left _ (he.symm ▸ hmem)
  have hprogram {s₁ : System} (hs₁ : (n, errand) ∈ s₁.errands) (c : ConnectionId)
      (o : Operation Unit) : (n, errand) ∈ (s₁.beginProgram c o).2.errands := by
    refine List.mem_append_left _ ?_
    rw [(s₁.run_errands _ c _).1]
    exact hs₁
  cases e with
  | openConnection d codec wireCapacity =>
      simp only [System.after]
      split <;> exact hmem
  | send c x m =>
      simp only [System.after, beginSend?]
      cases hsend : s.send c x m with
      | none => exact hmem
      | some r => exact hbegin (send_transported hsend).errands _
  | barrier c => exact hprogram hmem c _
  | compose c ns barrierAfter =>
      simp only [System.after, beginBatch?]
      cases hps : s.takePromises? ns with
      | none => exact hmem
      | some r => exact hprogram (h.mem_takePromises? hps hmem hreply) c _
  | cancel n' =>
      simp only [System.after, cancel?]
      cases s.errand? n' with
      | none => exact hmem
      | some errand' =>
          cases errand' with
          | reply p =>
              simp only [Option.map_some, Option.getD_some, withdraw]
              split <;> exact hmem
          | _ => exact hmem
  | abandon n' =>
      refine List.mem_filter.mpr ⟨hmem, ?_⟩
      simp only [ne_eq, decide_eq_true_eq]
      rintro rfl
      exact habandon rfl
  | takeResults => exact List.mem_filter.mpr ⟨hmem, by simp [htake rfl]⟩
  | submit r quiet =>
      simp only [System.after, submit]
      split <;> exact hbegin rfl _
  | noteStale flow =>
      simp only [System.after, noteStale]
      split <;> exact hbegin rfl _
  | attach c =>
      rw [after_attach]
      split
      · exact hbegin rfl _
      · exact hbegin (s.errands_insert c).1 _
  | lateAttach c =>
      simp only [System.after, beginLateAttach]
      exact hbegin rfl _
  | detach d =>
      simp only [System.after, beginDetach]
      split
      · next hd =>
          obtain ⟨c, -, -, rfl⟩ := detach?_eq hd
          exact hbegin rfl _
      · exact hbegin rfl _
  | shutdown =>
      simp only [System.after, beginShutdown]
      split
      · exact hbegin rfl _
      · have hsame : (detachNext { s with pipeline.shuttingDown := true }
            s.pipeline.devices).2.errands = s.errands := (errands_detachNext rfl).1
        exact hbegin hsame _
  | stepJob l =>
      show _ ∈ (s.stepJob l).errands
      rw [(jobStep_stepJob s l).errands]
      exact hmem
  | stepErrand n' =>
      have hne : n ≠ n' := by
        rintro rfl
        exact hstep rfl
      show _ ∈ (s.stepErrand n').errands
      rw [stepErrand]
      split
      · next errand' s₁ hnext =>
          obtain ⟨errand₀, -, hadvance⟩ := Option.bind_eq_some_iff.mp hnext
          exact (s₁.mem_setErrand ..).mpr (.inl ⟨hne, advanceErrand?_errands hadvance ▸ hmem⟩)
      · exact hmem
  | _ => exact hmem

end System

end Southbound
