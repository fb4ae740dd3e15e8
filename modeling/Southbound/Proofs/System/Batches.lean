import Southbound.Proofs.Operation.BatchFailures
import Southbound.Proofs.System.Drain
import Southbound.Proofs.System.ErrandSteps
import Southbound.Proofs.System.Pushes

/-!
# Batches that errands wait for

Messages that errands wait for can be made one batch, which a barrier may close.  Such an
errand is over only when all its results are known, in whatever order they came, and its
result is what they come to by the rule (`ComesTo`).  When all of them are known, the errand
comes to its end (`System.batches_settle`).

A result that is known stays as it is, so it does not matter when the errand looks at it.
-/

namespace Southbound.System

/-- The results of some messages are known, each with its transaction id. -/
def Knows (s : System) (ps : List Promise) (xs : List Settled) : Prop :=
  List.Forall₂ (fun p x => x.1 = p.xid ∧ s.result? p = some x.2) ps xs

/-- What is left of an errand that waits for a batch. -/
def gathering (members : List Promise) (barrier : Option Promise) : Program (Outcome Result) :=
  (Functor.map (fun _ => Result.done) (Operation.settleBatch members barrier)).run

variable {s s' : System} {n : ErrandId} {c : ConnectionId} {d : DeviceId} {e : Event}
  {members ps : List Promise} {barrier : Option Promise} {xs results : List Settled}
  {closing : Option Settled} {ns : List ErrandId} {barrierAfter : Option Bool}

theorem knows_of_results? (h : s.results? ps = some xs) : s.Knows ps xs := by
  induction ps generalizing xs with
  | nil =>
      cases h
      exact .nil
  | cons p ps ih =>
      rw [results?, List.mapM_cons] at h
      obtain ⟨x, hx, h⟩ := Option.bind_eq_some_iff.mp h
      obtain ⟨xs, hxs, h⟩ := Option.bind_eq_some_iff.mp h
      obtain ⟨o, ho, rfl⟩ := Option.map_eq_some_iff.mp hx
      cases h
      exact .cons ⟨rfl, ho⟩ (ih hxs)

theorem Knows.mono (h : s.Knows ps xs)
    (hkept : ∀ p o, s.result? p = some o → s'.result? p = some o) : s'.Knows ps xs :=
  List.Forall₂.imp (fun _ _ hx => ⟨hx.1, hkept _ _ hx.2⟩) h

theorem gathering_eq (members : List Promise) (barrier : Option Promise) :
    gathering members barrier = .step (.gather members barrier) fun results =>
      .done ((batchOutcome results.1 results.2).map fun _ => .done) := by
  show Program.step _ _ = Program.step _ _
  congr 1
  funext results
  show Program.bind (.done (batchOutcome results.1 results.2)) _ = _
  cases batchOutcome results.1 results.2 <;> rfl

/-- How far an errand has come that waits for a batch. -/
inductive Composing (s : System) (c : ConnectionId) (members : List Promise)
    (barrier : Option Promise) : Errand → Prop where
  | waiting : Composing s c members barrier (.program c (gathering members barrier))
  | gathered {results : List Settled} {closing : Option Settled} :
      s.Knows members results → s.Knows barrier.toList closing.toList →
      Composing s c members barrier
        (.program c (.done ((batchOutcome results closing).map fun _ => .done)))
  | ended {results : List Settled} {closing : Option Settled} :
      s.Knows members results → s.Knows barrier.toList closing.toList →
      Composing s c members barrier (.over ((batchOutcome results closing).map fun _ => .done))

theorem Composing.mono {errand : Errand} (h : s.Composing c members barrier errand)
    (hkept : ∀ p o, s.result? p = some o → s'.result? p = some o) :
    s'.Composing c members barrier errand := by
  cases h with
  | waiting => exact .waiting
  | gathered hmembers hbarrier => exact .gathered (hmembers.mono hkept) (hbarrier.mono hkept)
  | ended hmembers hbarrier => exact .ended (hmembers.mono hkept) (hbarrier.mono hkept)

/-- The results of a batch are known when the wait for them is over. -/
theorem knows_of_perform {a : List Settled × Option Settled}
    (h : s.perform d c (.gather members barrier) = .answer a s') :
    s' = s ∧ s.Knows members a.1 ∧ s.Knows barrier.toList a.2.toList := by
  cases performed_of_answer h with
  | @gathered _ _ results closing hresults hclosing =>
      refine ⟨rfl, knows_of_results? hresults, ?_⟩
      have hknows := knows_of_results? hclosing
      cases barrier with
      | none =>
          cases hknows
          exact .nil
      | some p =>
          obtain ⟨x, rest, hx, hrest, rfl⟩ := List.forall₂_cons_left_iff.mp hknows
          cases hrest
          exact .cons hx .nil

/-! ## Errands as they go on -/

/-- An errand is found as it was, or as it is after it went on, or not at all. -/
theorem errand?_after (h : s.Numbered) (hn : n < s.begun) (he : e ≠ .stepErrand n)
    {errand : Errand} (herrand : (s.after e).errand? n = some errand) :
    s.errand? n = some errand := by
  rw [(h.after e).errand?_eq_some_iff] at herrand
  rw [h.errand?_eq_some_iff]
  have hstep := errandStep_after h e
  generalize s.after e = s' at hstep herrand
  have hbegin {s₁ : System} {errand' : Errand} (hb : s₁.begun = s.begun)
      (hmem : (n, errand) ∈ (s₁.begin errand').2.errands) : (n, errand) ∈ s₁.errands := by
    rcases List.mem_append.mp hmem with hmem | hmem
    · exact hmem
    · cases List.mem_singleton.mp hmem
      exact absurd hb (Nat.ne_of_lt hn)
  cases hstep with
  | passed hpassed => exact hpassed.sublist.subset herrand
  | begun hpassed _ => exact hpassed.sublist.subset (hbegin hpassed.begun herrand)
  | abandoned hsame _ =>
      rw [hsame] at herrand
      exact (List.mem_filter.mp herrand).1
  | advanced _ _ _ hsame _ =>
      rw [hsame, mem_setErrand] at herrand
      rcases herrand with ⟨-, hmem⟩ | ⟨rfl, -⟩
      · exact hmem
      · exact absurd rfl he
  | shutdown _ hnext =>
      obtain ⟨hsame, hb⟩ := errands_detachNext hnext
      have hmem := hbegin hb herrand
      rw [hsame] at hmem
      exact hmem
  | detached _ _ hnext =>
      rw [mem_setErrand, (errands_detachNext hnext).1] at herrand
      rcases herrand with ⟨-, hmem⟩ | ⟨rfl, -⟩
      · exact hmem
      · exact absurd rfl he

/-- Errands are never given the numbers of others again. -/
theorem begun_le_after (h : s.Numbered) (e : Event) : s.begun ≤ (s.after e).begun := by
  have hstep := errandStep_after h e
  generalize s.after e = s' at hstep ⊢
  cases hstep with
  | passed hpassed => exact hpassed.begun.ge
  | begun hpassed _ => exact hpassed.begun.ge.trans (Nat.le_succ _)
  | abandoned _ hb => exact hb.ge
  | advanced _ _ _ _ hb => exact hb.ge
  | shutdown _ hnext => exact (errands_detachNext hnext).2.ge.trans (Nat.le_succ _)
  | detached _ _ hnext => exact (errands_detachNext hnext).2.ge

/-- An errand that was put in its own place is found there. -/
theorem errand?_setErrand_self {errand : Errand} (h : (s.errand? n).isSome) :
    (s.setErrand n errand).errand? n = some errand := by
  rw [errand?] at h
  rw [errand?, setErrand]
  generalize s.errands = errands at h
  induction errands with
  | nil => cases h
  | cons first errands ih =>
      obtain ⟨n', errand'⟩ := first
      by_cases hn : n = n'
      · subst hn
        simp
      · have hne : (n == n') = false := by simpa using hn
        rw [List.lookup_cons, hne] at h
        rw [List.map_cons, List.lookup_cons, hne]
        exact ih h

/-- An errand that can go on, without doing anything to the rest of the system. -/
theorem stepErrand_eq {errand errand' : Errand} (hn : s.errand? n = some errand)
    (he : s.advanceErrand? errand = some (errand', s)) :
    s.stepErrand n = s.setErrand n errand' ∧ (s.stepErrand n).errand? n = some errand' := by
  have hstep : s.stepErrand n = s.setErrand n errand' := by
    rw [stepErrand, hn, Option.bind_some, he]
  rw [hstep]
  exact ⟨rfl, errand?_setErrand_self (by rw [hn]; rfl)⟩

/-- A batch can be gathered when all results are known. -/
theorem canRun_gathering_iff : s.canRun (gathering members barrier) = true ↔
    ∀ p ∈ members ++ barrier.toList, (s.result? p).isSome := by
  rw [gathering_eq, canRun, Bool.and_eq_true, decide_eq_true_eq, knownCount,
    List.countP_eq_length, List.forall_mem_append]
  cases barrier <;> simp

theorem advanceErrand?_gathering
    (hknown : ∀ p ∈ members ++ barrier.toList, (s.result? p).isSome) :
    ∃ results closing, s.Knows members results ∧ s.Knows barrier.toList closing.toList ∧
      s.advanceErrand? (.program c (gathering members barrier)) = some
        (.program c (.done ((batchOutcome results closing).map fun _ => .done)), s) := by
  have hrun := canRun_gathering_iff.mpr hknown
  cases hperform : s.perform (s.errandDevice c) c (.gather members barrier) with
  | answer a s₁ =>
      obtain ⟨rfl, hmembers, hbarrier⟩ := knows_of_perform hperform
      refine ⟨a.1, a.2, hmembers, hbarrier, ?_⟩
      rw [advanceErrand?, if_pos hrun, gathering_eq]
      simp only [stepProgram, hperform]
      rfl
  | wait =>
      rw [gathering_eq] at hrun
      exact absurd hperform (perform_ne_wait hrun)
  | breakOff =>
      simp only [perform] at hperform
      split at hperform <;> cases hperform

/-- An errand that waits for a batch goes on, if it does anything, to gather it and then to end
with what it comes to. -/
theorem Composing.stepErrand {errand : Errand} (h : s.Composing c members barrier errand)
    (hn : s.errand? n = some errand) :
    ∃ errand', (s.stepErrand n).errand? n = some errand' ∧
      (s.stepErrand n).Composing c members barrier errand' := by
  have hstays (he : s.advanceErrand? errand = none) : s.stepErrand n = s := by
    rw [System.stepErrand, hn, Option.bind_some, he]
  cases h with
  | waiting =>
      by_cases hknown : ∀ p ∈ members ++ barrier.toList, (s.result? p).isSome
      · obtain ⟨results, closing, hmembers, hbarrier, he⟩ := advanceErrand?_gathering hknown
        obtain ⟨hstep, hfound⟩ := stepErrand_eq hn he
        refine ⟨_, hfound, ?_⟩
        rw [hstep]
        exact .gathered hmembers hbarrier
      · rw [hstays (by rw [advanceErrand?, if_neg (mt canRun_gathering_iff.mp hknown)])]
        exact ⟨_, hn, .waiting⟩
  | gathered hmembers hbarrier =>
      obtain ⟨hstep, hfound⟩ := stepErrand_eq hn rfl
      refine ⟨_, hfound, ?_⟩
      rw [hstep]
      exact .ended hmembers hbarrier
  | ended hmembers hbarrier =>
      rw [hstays rfl]
      exact ⟨_, hn, .ended hmembers hbarrier⟩

/-- When the results of its batch are known, an errand has its result after two steps. -/
theorem Composing.ends {errand : Errand} (h : s.Composing c members barrier errand)
    (hn : s.errand? n = some errand)
    (hknown : ∀ p ∈ members ++ barrier.toList, (s.result? p).isSome) :
    ∃ result, (s.go [.stepErrand n, .stepErrand n]).errand? n = some (.over result) := by
  show ∃ result, ((s.stepErrand n).stepErrand n).errand? n = some (.over result)
  have hover {s : System} {result : Outcome Result} (hn : s.errand? n = some (.over result)) :
      (s.stepErrand n).errand? n = some (.over result) := by
    rw [System.stepErrand, hn]
    exact hn
  cases h with
  | waiting =>
      obtain ⟨results, closing, -, -, he⟩ := advanceErrand?_gathering (c := c) hknown
      obtain ⟨-, hfound⟩ := stepErrand_eq hn he
      exact ⟨_, (stepErrand_eq hfound rfl).2⟩
  | gathered _ _ => exact ⟨_, hover (stepErrand_eq hn rfl).2⟩
  | ended _ _ => exact ⟨_, hover (hover hn)⟩

/-! ## Batches as they are made -/

/-- An errand that waits for a batch is begun. -/
theorem composing_run (s : System) (d : DeviceId) (c : ConnectionId) (members : List Promise)
    (barrier : Option Promise) :
    (s.run d c (gathering members barrier)).2 = s ∧
      s.Composing c members barrier ((s.run d c (gathering members barrier)).1.errand d c) := by
  cases hperform : s.perform d c (.gather members barrier) with
  | answer a s₁ =>
      obtain ⟨rfl, hmembers, hbarrier⟩ := knows_of_perform hperform
      have hrun : s₁.run d c (gathering members barrier) =
          (.finished ((batchOutcome a.1 a.2).map fun _ => .done), s₁) := by
        rw [gathering_eq, run, hperform]
        rfl
      rw [hrun]
      exact ⟨rfl, .ended hmembers hbarrier⟩
  | wait =>
      have hrun : s.run d c (gathering members barrier) =
          (.unfinished (gathering members barrier), s) := by
        rw [gathering_eq, run, hperform]
      rw [hrun]
      exact ⟨rfl, .waiting⟩
  | breakOff =>
      simp only [perform] at hperform
      split at hperform <;> cases hperform

/-- The members of a batch are messages that errands waited for. -/
theorem takePromises?_members (h : s.Numbered) (htake : s.takePromises? ns = some (ps, s')) :
    List.Forall₂ (fun n p => s.errand? n = some (.reply p)) ns ps := by
  induction ns generalizing s ps with
  | nil =>
      cases htake
      exact .nil
  | cons n ns ih =>
      rw [takePromises?] at htake
      split at htake
      · next p hn =>
          obtain ⟨r, htail, he⟩ := Option.bind_eq_some_iff.mp htake
          cases he
          have hfilter : Numbered { s with errands := s.errands.filter (·.1 ≠ n) } :=
            h.of_sublist List.filter_sublist rfl
          refine .cons hn (List.Forall₂.imp (fun n' p' hn' => ?_) (ih hfilter htail))
          rw [hfilter.errand?_eq_some_iff] at hn'
          exact h.errand?_eq_some_iff.mpr (List.mem_filter.mp hn').1
      · cases htake

/-- The barrier of a batch that is made on a connection. -/
def barrierFor (s : System) (c : ConnectionId) (barrierAfter : Option Bool) : Option Promise :=
  if barrierAfter = some true then (s.send c none .barrierRequest).map Prod.fst else none

/-- One batch is made of messages that errands waited for. -/
theorem composing_beginBatch? (h : s.Numbered)
    (hbegun : s.beginBatch? c ns barrierAfter = some (n, s'))
    (hopened : barrierAfter = some true → (s.connections[c]?).isSome) :
    ∃ members, List.Forall₂ (fun n p => s.errand? n = some (.reply p)) ns members ∧
      n < s'.begun ∧ ∃ errand, s'.errand? n = some errand ∧
        s'.Composing c members (s.barrierFor c barrierAfter) errand := by
  obtain ⟨⟨members, s₁⟩, htake, hbegin⟩ := Option.map_eq_some_iff.mp hbegun
  refine ⟨members, takePromises?_members h htake, ?_⟩
  have hs₁ : s₁.Numbered := h.of_sublist (h.takePromises? htake).sublist (h.takePromises? htake).begun
  obtain ⟨hsame, -⟩ := takePromises?_cases htake
  -- An errand that is begun with a program is found with what is left of it.
  have hprogram {o : Operation Unit} {barrier : Option Promise} (s₂ : System)
      (hbegin : s₁.beginProgram c o = (n, s'))
      (hrun : s₁.run (s₁.errandDevice c) c (Functor.map (fun _ => Result.done) o).run =
        s₂.run (s₁.errandDevice c) c (gathering members barrier))
      (hs₂ : s₂.Numbered) : n < s'.begun ∧ ∃ errand, s'.errand? n = some errand ∧
        s'.Composing c members barrier errand := by
    obtain ⟨hafter, hcomposing⟩ := composing_run s₂ (s₁.errandDevice c) c members barrier
    rw [beginProgram, hrun] at hbegin
    generalize s₂.run (s₁.errandDevice c) c (gathering members barrier) = left at *
    obtain ⟨progress, s₃⟩ := left
    cases hafter
    cases hbegin
    refine ⟨Nat.lt_succ_self _, _, (hs₂.begin _).errand?_eq_some_iff.mpr List.mem_concat_self, ?_⟩
    exact hcomposing.mono fun _ _ => id
  cases barrierAfter with
  | none => exact hprogram s₁ hbegin rfl hs₁
  | some b =>
      cases b with
      | false => exact hprogram s₁ hbegin rfl hs₁
      | true =>
          -- The barrier is sent first.
          obtain ⟨conn, hconn⟩ := Option.isSome_iff_exists.mp (hopened rfl)
          have hpromise : (s.send c none .barrierRequest).map Prod.fst =
              (s₁.send c none .barrierRequest).map Prod.fst := by
            rw [hsame, send, send, Option.map_map, Option.map_map]
            rfl
          cases hsend : s₁.send c none .barrierRequest with
          | none =>
              rw [hsend, send, hconn] at hpromise
              cases hpromise
          | some sent =>
              obtain ⟨p, s₂⟩ := sent
              have htransported := send_transported hsend
              rw [barrierFor, if_pos rfl, hpromise, hsend]
              refine hprogram s₂ hbegin ?_
                (hs₁.of_sublist (htransported.errands ▸ .refl _) htransported.begun)
              have hprog : (Functor.map (fun _ => Result.done)
                  (Operation.composeWithBarrier members true)).run =
                    .step (.send .barrierRequest) fun p => gathering members (some p) := rfl
              rw [hprog, run]
              simp only [perform, hsend]
              rfl

section Runs

variable {config : Config} {s₀ : System} (hnew : System.new config = .ok s₀)
include hnew

theorem numbered_go (es : List Event) : (s₀.go es).Numbered :=
  inv_go Numbered (fun _ e h => h.after e) (numbered_new hnew) es

/-- An errand that waits for a batch is over only when all results are known, and it can come to
its end then.  Its result is what they come to: it succeeds if every member was answered or
withdrawn, and the barrier, if there is one, answered by its reply or withdrawn.  Otherwise it
fails as a batch, with exactly the failures that stand in the way. -/
theorem batches_settle {es : List Event}
    (hbegun : (s₀.go es).beginBatch? c ns barrierAfter = some (n, s'))
    (hopened : barrierAfter = some true → ((s₀.go es).connections[c]?).isSome) :
    ∃ members barrier, List.Forall₂ (fun n p => (s₀.go es).errand? n = some (.reply p)) ns members ∧
      barrier = (s₀.go es).barrierFor c barrierAfter ∧
      (barrier.isSome ↔ barrierAfter = some true) ∧
      ∀ later errand, (s₀.go (es ++ .compose c ns barrierAfter :: later)).errand? n = some errand →
        (∀ result, errand = .over result → ∃ results closing outcome,
          (s₀.go (es ++ .compose c ns barrierAfter :: later)).Knows members results ∧
          (s₀.go (es ++ .compose c ns barrierAfter :: later)).Knows barrier.toList closing.toList ∧
          ComesTo results closing outcome ∧ result = outcome.map fun _ => .done) ∧
        ((∀ p ∈ members ++ barrier.toList,
            ((s₀.go (es ++ .compose c ns barrierAfter :: later)).result? p).isSome) →
          ∃ result, (s₀.go (es ++ .compose c ns barrierAfter :: (later ++
            [.stepErrand n, .stepErrand n]))).errand? n = some (.over result)) := by
  obtain ⟨members, hmembers, hlt, errand₀, hn₀, hcomposing₀⟩ :=
    composing_beginBatch? (numbered_go hnew es) hbegun hopened
  refine ⟨members, _, hmembers, rfl, ?_, ?_⟩
  · rw [barrierFor]
    split
    · next htrue =>
        obtain ⟨conn, hconn⟩ := Option.isSome_iff_exists.mp (hopened htrue)
        simp [send, hconn, htrue]
    · next hfalse => simp [hfalse]
  generalize (s₀.go es).barrierFor c barrierAfter = barrier at hcomposing₀ ⊢
  have hafter : (s₀.go es).after (.compose c ns barrierAfter) = s' := by
    simp only [after, hbegun]
    rfl
  -- How far the errand has come, after any events.
  have hcomposing (later : List Event) :
      n < (s₀.go (es ++ .compose c ns barrierAfter :: later)).begun ∧ ∀ errand,
        (s₀.go (es ++ .compose c ns barrierAfter :: later)).errand? n = some errand →
          (s₀.go (es ++ .compose c ns barrierAfter :: later)).Composing c members barrier errand := by
    induction later using List.reverseRecOn with
    | nil =>
        rw [go_concat, hafter]
        refine ⟨hlt, fun errand hn => ?_⟩
        cases hn₀.symm.trans hn
        exact hcomposing₀
    | append_singleton later e ih =>
        rw [← List.cons_append, ← List.append_assoc, go_concat]
        generalize es ++ .compose c ns barrierAfter :: later = run at ih ⊢
        obtain ⟨hlt, ih⟩ := ih
        have hnumbered := numbered_go hnew run
        have hserved := (served_new hnew).go run
        refine ⟨hlt.trans_le (begun_le_after hnumbered e), fun errand hn => ?_⟩
        by_cases he : e = .stepErrand n
        · subst he
          cases hbefore : (s₀.go run).errand? n with
          | none =>
              have hsame : (s₀.go run).after (.stepErrand n) = s₀.go run := by
                show (s₀.go run).stepErrand n = s₀.go run
                rw [stepErrand, hbefore]
                rfl
              rw [hsame, hbefore] at hn
              cases hn
          | some before =>
              obtain ⟨errand', hn', hgoes⟩ := (ih before hbefore).stepErrand hbefore
              cases hn'.symm.trans hn
              exact hgoes
        · exact (ih errand (errand?_after hnumbered hlt he hn)).mono fun p o =>
            result?_after hserved.plain hserved.accounted e
  intro later errand hn
  have hnow := (hcomposing later).2 errand hn
  refine ⟨fun result hover => ?_, fun hknown => ?_⟩
  · subst hover
    cases hnow with
    | @ended results closing hmembers hbarrier =>
        exact ⟨results, closing, _, hmembers, hbarrier, comesTo_batchOutcome .., rfl⟩
  · rw [← List.cons_append, ← List.append_assoc, go_append]
    exact hnow.ends hn hknown

end Runs

/-! ## A batch of which one member fails -/

namespace Mixture

/-- A message was refused by the device. -/
def isRefusal : Outcome Message → Bool
  | .error (.deviceRejected _) => true
  | _ => false

/-- Two messages are sent. -/
def asked : List Event :=
  [.openConnection ⟨"openflow:1"⟩ .judging 64, .send 0 none .barrierRequest,
    .send 0 none .barrierRequest]

/-- The barrier is answered first, by a message that is no reply to it, and the second message
before the first, which the device refuses. -/
def answered : List Event :=
  [.stepErrand 2, .receive 0 [0, 0, 0], .stepErrand 2, .receive 0 [0, 0], .stepErrand 2,
    .receive 0 [1]]

end Mixture

theorem batches_settle_of_mixture :
    ∃ s₀, System.new {} = .ok s₀ ∧
      ((s₀.go Mixture.asked).beginBatch? 0 [0, 1] (some true)).isSome ∧
      ((s₀.go (Mixture.asked ++ .compose 0 [0, 1] (some true) :: Mixture.answered)).errand? 2).any
        (fun errand => (s₀.outcome? errand).isNone) ∧
      ∃ results closing failures,
        (s₀.go (Mixture.asked ++ .compose 0 [0, 1] (some true) :: (Mixture.answered ++
          [.stepErrand 2, .stepErrand 2]))).errand? 2 = some (.over (.error (.batch 3 failures))) ∧
        results.map Prod.fst = [⟨1⟩, ⟨2⟩] ∧ closing.map Prod.fst = some ⟨3⟩ ∧
        ∀ f, f ∈ failures ↔ Reports results closing f := by
  let s₀ := start
  have hnew : System.new {} = .ok s₀ := rfl
  have hmade : ((s₀.go Mixture.asked).beginBatch? 0 [0, 1] (some true)).any (·.1 = 2) = true := by
    decide
  obtain ⟨⟨n, s'⟩, hbegun, hn⟩ := (Option.any_eq_true ..).mp hmade
  obtain rfl : n = 2 := of_decide_eq_true hn
  obtain ⟨members, barrier, hmembers, hbarrier, hclosed, hsettle⟩ :=
    batches_settle hnew hbegun fun _ => by decide
  have hwaits : ((s₀.go (Mixture.asked ++ .compose 0 [0, 1] (some true) ::
      Mixture.answered)).errand? 2).any (fun errand => (s₀.outcome? errand).isNone) = true := by
    decide
  obtain ⟨errand, herrand, -⟩ := (Option.any_eq_true ..).mp hwaits
  -- The messages of the batch are the two that were sent, and the barrier.
  obtain rfl : members = [⟨0, .awaited ⟨1⟩ 0⟩, ⟨0, .awaited ⟨2⟩ 1⟩] := by
    have h₀ : (s₀.go Mixture.asked).errand? 0 = some (.reply ⟨0, .awaited ⟨1⟩ 0⟩) := rfl
    have h₁ : (s₀.go Mixture.asked).errand? 1 = some (.reply ⟨0, .awaited ⟨2⟩ 1⟩) := rfl
    obtain ⟨p₀, rest, hp₀, hrest, rfl⟩ := List.forall₂_cons_left_iff.mp hmembers
    obtain ⟨p₁, none, hp₁, hnone, rfl⟩ := List.forall₂_cons_left_iff.mp hrest
    obtain rfl := List.forall₂_nil_left_iff.mp hnone
    cases h₀.symm.trans hp₀
    cases h₁.symm.trans hp₁
    rfl
  have hlast : (s₀.go Mixture.asked).barrierFor 0 (some true) = some ⟨0, .awaited ⟨3⟩ 2⟩ := rfl
  cases hbarrier.trans hlast
  have hknown : ∀ p ∈ [⟨0, .awaited ⟨1⟩ 0⟩, ⟨0, .awaited ⟨2⟩ 1⟩] ++
        (some ⟨0, .awaited ⟨3⟩ 2⟩ : Option Promise).toList,
      ((s₀.go (Mixture.asked ++ .compose 0 [0, 1] (some true) :: Mixture.answered)).result?
        p).isSome = true := by decide +kernel
  obtain ⟨result, hover⟩ := (hsettle Mixture.answered errand herrand).2 hknown
  have hends := hsettle (Mixture.answered ++ [.stepErrand 2, .stepErrand 2])
  obtain ⟨results, closing, outcome, hresults, hclosing, hcomes, hresult⟩ :=
    (hends _ hover).1 result rfl
  refine ⟨s₀, hnew, Option.isSome_iff_exists.mpr ⟨_, hbegun⟩, hwaits, results, closing, ?_⟩
  obtain ⟨x₀, rest, ⟨hx₀, hresult₀⟩, hrest, rfl⟩ := List.forall₂_cons_left_iff.mp hresults
  obtain ⟨x₁, none, ⟨hx₁, -⟩, hnone, rfl⟩ := List.forall₂_cons_left_iff.mp hrest
  obtain rfl := List.forall₂_nil_left_iff.mp hnone
  obtain ⟨x₂, none, ⟨hx₂, -⟩, hnone, hlist⟩ := List.forall₂_cons_left_iff.mp hclosing
  obtain rfl := List.forall₂_nil_left_iff.mp hnone
  obtain rfl : closing = some x₂ := by
    cases closing with
    | none => cases hlist
    | some x =>
        cases hlist
        rfl
  cases hcomes with
  | succeeded hanswered _ =>
      -- The first member was refused.
      have hrefused : ((s₀.go (Mixture.asked ++ .compose 0 [0, 1] (some true) ::
          (Mixture.answered ++ [.stepErrand 2, .stepErrand 2]))).result? ⟨0, .awaited ⟨1⟩ 0⟩).all
            Mixture.isRefusal = true := by decide +kernel
      rw [hresult₀, Option.all_some] at hrefused
      rcases hanswered x₀ List.mem_cons_self with ⟨m, hm⟩ | hcancelled
      · rw [hm] at hrefused
        cases hrefused
      · rw [hcancelled] at hrefused
        cases hrefused
  | @failed failures _ hreports _ =>
      rw [hresult] at hover
      refine ⟨failures, hover, ?_, ?_, hreports⟩
      · simp [hx₀, hx₁, Promise.xid, Reply.xid]
      · simp [hx₂, Promise.xid, Reply.xid]

end Southbound.System
