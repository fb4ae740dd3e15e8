import Southbound.Operation.Request

/-!
# What operations do

A *deed* is an effect with what was answered to it.  `Program.Comes` says how far a program
comes by some deeds, and `Operation.Does` with which outcome an operation ends after them.

The rules say for each way to put operations together which deeds it comes to
(`Operation.does_bind` and its like).  They are equivalences, so the deeds of an operation
can be worked out from its text, and nothing is lost.

An operation that has not come to its end can still do so (`Program.Comes.exists_end`).  So
the deeds of an operation are always the beginning of some that it ends with.
-/

namespace Southbound

/-- An effect and what was answered to it. -/
structure Deed where
  effect : Effect
  answer : effect.Answer

/-- The message that is handed over in a deed. -/
def Deed.message? : Deed → Option Message
  | ⟨.send m, _⟩ => some m
  | _ => none

/-- The messages that are handed over in some deeds, in their order. -/
def messagesOf (deeds : List Deed) : List Message := deeds.filterMap Deed.message?

@[simp] theorem messagesOf_nil : messagesOf [] = [] := rfl

@[simp] theorem messagesOf_append (h h' : List Deed) :
    messagesOf (h ++ h') = messagesOf h ++ messagesOf h' := List.filterMap_append

@[simp] theorem messagesOf_cons_send (m : Message) (p : Promise) (h : List Deed) :
    messagesOf (⟨.send m, p⟩ :: h) = m :: messagesOf h := rfl

variable {α β : Type}

/-! ## Programs -/

namespace Program

/-- What is left of a program after some deeds. -/
inductive Comes : Program α → List Deed → Program α → Prop where
  | here (p : Program α) : Comes p [] p
  | step {q : Effect} {next : q.Answer → Program α} {a : q.Answer} {h : List Deed}
      {p : Program α} : Comes (next a) h p → Comes (.step q next) (⟨q, a⟩ :: h) p

variable {p p' p'' : Program α} {h h' : List Deed} {a : α}

theorem Comes.append (hp : p.Comes h p') (hp' : p'.Comes h' p'') : p.Comes (h ++ h') p'' := by
  induction hp with
  | here p => exact hp'
  | step _ ih => exact .step (ih hp')

/-- A program goes on by one deed. -/
theorem Comes.concat {q : Effect} {next : q.Answer → Program α} (hp : p.Comes h (.step q next))
    (a : q.Answer) : p.Comes (h ++ [⟨q, a⟩]) (next a) :=
  hp.append (.step (.here _))

/-- Whatever was done, a program can come to an end. -/
theorem exists_end (p : Program α) : ∃ h a, p.Comes h (.done a) := by
  induction p with
  | done a => exact ⟨[], a, .here _⟩
  | step q next ih =>
      have hanswer : Nonempty q.Answer := by
        cases q with
        | send m => exact ⟨(default : Promise)⟩
        | await p => exact ⟨(.error .cancelled : Outcome Message)⟩
        | gather ps last => exact ⟨(([], none) : List Settled × Option Settled)⟩
        | hasGroup g => exact ⟨false⟩
        | readGroup g => exact ⟨(.ok none : Outcome (Option Group))⟩
        | noteStale flow => exact ⟨(.ok () : Outcome Unit)⟩
        | _ => exact ⟨()⟩
      obtain ⟨a⟩ := hanswer
      obtain ⟨h, b, hend⟩ := ih a
      exact ⟨⟨q, a⟩ :: h, b, .step hend⟩

theorem Comes.exists_end (hp : p.Comes h p') : ∃ more a, p.Comes (h ++ more) (.done a) := by
  obtain ⟨more, a, hend⟩ := p'.exists_end
  exact ⟨more, a, hp.append hend⟩

theorem comes_done {b : α} : (done b).Comes h (.done a) ↔ h = [] ∧ a = b := by
  constructor
  · intro hcomes
    cases hcomes
    exact ⟨rfl, rfl⟩
  · rintro ⟨rfl, rfl⟩
    exact .here _

theorem comes_step {q : Effect} {next : q.Answer → Program α} :
    (step q next).Comes h (.done a) ↔
      ∃ answer h', h = ⟨q, answer⟩ :: h' ∧ (next answer).Comes h' (.done a) := by
  constructor
  · intro hcomes
    cases hcomes with
    | step hnext => exact ⟨_, _, rfl, hnext⟩
  · rintro ⟨answer, h', rfl, hnext⟩
    exact .step hnext

/-- One program after another. -/
theorem comes_bind {f : α → Program β} {b : β} :
    (p.bind f).Comes h (.done b) ↔
      ∃ h₁ a h₂, h = h₁ ++ h₂ ∧ p.Comes h₁ (.done a) ∧ (f a).Comes h₂ (.done b) := by
  induction p generalizing h with
  | done a =>
      simp only [Program.bind, comes_done]
      constructor
      · exact fun hf => ⟨[], a, h, rfl, ⟨rfl, rfl⟩, hf⟩
      · rintro ⟨h₁, a', h₂, rfl, ⟨rfl, rfl⟩, hf⟩
        exact hf
  | step q next ih =>
      simp only [Program.bind, comes_step]
      constructor
      · rintro ⟨answer, h', rfl, hnext⟩
        obtain ⟨h₁, a, h₂, rfl, hp, hf⟩ := (ih answer).mp hnext
        exact ⟨⟨q, answer⟩ :: h₁, a, h₂, rfl, ⟨answer, h₁, rfl, hp⟩, hf⟩
      · rintro ⟨h₁, a, h₂, rfl, ⟨answer, h', rfl, hp⟩, hf⟩
        exact ⟨answer, h' ++ h₂, rfl, (ih answer).mpr ⟨h', a, h₂, rfl, hp, hf⟩⟩

end Program

/-! ## Operations -/

namespace Operation

/-- An operation ends with an outcome after some deeds. -/
def Does (o : Operation α) (h : List Deed) (r : Outcome α) : Prop := o.run.Comes h (.done r)

variable {o : Operation α} {h : List Deed}

theorem does_pure {a : α} {r : Outcome α} :
    Does (pure a : Operation α) h r ↔ h = [] ∧ r = .ok a :=
  Program.comes_done

theorem does_throw {e : Failure} {r : Outcome α} :
    Does (throw e : Operation α) h r ↔ h = [] ∧ r = .error e :=
  Program.comes_done

theorem does_ofOutcome {result r : Outcome α} : (ofOutcome result).Does h r ↔ h = [] ∧ r = result :=
  Program.comes_done

/-- One operation after another.  After a failure nothing more is done. -/
theorem does_bind {f : α → Operation β} {r : Outcome β} :
    (o >>= f).Does h r ↔
      (∃ h₁ a h₂, h = h₁ ++ h₂ ∧ o.Does h₁ (.ok a) ∧ (f a).Does h₂ r) ∨
        ∃ e, o.Does h (.error e) ∧ r = .error e := by
  have hrun : (o >>= f).Does h r ↔
      (o.run.bind fun result => ExceptT.bindCont f result).Comes h (.done r) := Iff.rfl
  rw [hrun, Program.comes_bind]
  constructor
  · rintro ⟨h₁, result, h₂, rfl, ho, hf⟩
    cases result with
    | ok a => exact .inl ⟨h₁, a, h₂, rfl, ho, hf⟩
    | error e =>
        obtain ⟨rfl, rfl⟩ := Program.comes_done.mp hf
        rw [List.append_nil]
        exact .inr ⟨e, ho, rfl⟩
  · rintro (⟨h₁, a, h₂, rfl, ho, hf⟩ | ⟨e, ho, rfl⟩)
    · exact ⟨h₁, .ok a, h₂, rfl, ho, hf⟩
    · exact ⟨h, .error e, [], (List.append_nil h).symm, ho, .here _⟩

/-- The value of an operation, seen in another way. -/
theorem does_map {f : α → β} {r : Outcome β} :
    (f <$> o).Does h r ↔ ∃ result, o.Does h result ∧ r = result.map f := by
  have hrun : (f <$> o).Does h r ↔
      (o.run.bind fun result => .done (Except.map f result)).Comes h (.done r) := by
    have hsame : (f <$> o : Operation β).run =
        o.run.bind fun result => .done (Except.map f result) := by
      show o.run.bind _ = _
      congr 1
      funext result
      cases result <;> rfl
    rw [Does, hsame]
  rw [hrun, Program.comes_bind]
  constructor
  · rintro ⟨h₁, result, h₂, rfl, ho, hf⟩
    obtain ⟨rfl, rfl⟩ := Program.comes_done.mp hf
    rw [List.append_nil]
    exact ⟨result, ho, rfl⟩
  · rintro ⟨result, ho, rfl⟩
    exact ⟨h, result, [], (List.append_nil h).symm, ho, .here _⟩

/-- A single effect, whatever it answers. -/
theorem does_lift {q : Effect} {r : Outcome q.Answer} :
    Does (ExceptT.lift (.perform q)) h r ↔ ∃ a, h = [⟨q, a⟩] ∧ r = .ok a := by
  have hrun : Does (ExceptT.lift (.perform q)) h r ↔
      (Program.step q fun a => .done (Except.ok a)).Comes h (.done r) := Iff.rfl
  rw [hrun, Program.comes_step]
  constructor
  · rintro ⟨a, h', rfl, hend⟩
    obtain ⟨rfl, rfl⟩ := Program.comes_done.mp hend
    exact ⟨a, rfl, rfl⟩
  · rintro ⟨a, rfl, rfl⟩
    exact ⟨a, [], rfl, .here _⟩

/-- The reply to a message is what its result is. -/
theorem does_reply {p : Promise} {r : Outcome Message} :
    (reply p).Does h r ↔ h = [⟨.await p, r⟩] := by
  have hrun : (reply p).Does h r ↔ (Program.step (.await p) .done).Comes h (.done r) := Iff.rfl
  rw [hrun, Program.comes_step]
  constructor
  · rintro ⟨a, h', rfl, hend⟩
    obtain ⟨rfl, rfl⟩ := Program.comes_done.mp hend
    rfl
  · rintro rfl
    exact ⟨r, [], rfl, .here _⟩

/-- A single effect, and then what follows its answer. -/
theorem does_lift_bind {q : Effect} {f : q.Answer → Operation β} {r : Outcome β} :
    Does (ExceptT.lift (.perform q) >>= f) h r ↔ ∃ a h', h = ⟨q, a⟩ :: h' ∧ (f a).Does h' r := by
  rw [does_bind]
  constructor
  · rintro (⟨h₁, a, h₂, rfl, hq, hf⟩ | ⟨e, hq, -⟩)
    · obtain ⟨a', rfl, ha⟩ := does_lift.mp hq
      cases ha
      exact ⟨a, h₂, rfl, hf⟩
    · obtain ⟨a, -, ha⟩ := does_lift.mp hq
      cases ha
  · rintro ⟨a, h', rfl, hf⟩
    exact .inl ⟨[⟨q, a⟩], a, h', rfl, does_lift.mpr ⟨a, rfl, rfl⟩, hf⟩

/-- An outcome, and then what follows its value.  After a failure nothing follows. -/
theorem does_ofOutcome_bind {result : Outcome α} {f : α → Operation β} {r : Outcome β} :
    (ofOutcome result >>= f).Does h r ↔
      (∃ a, result = .ok a ∧ (f a).Does h r) ∨ ∃ e, result = .error e ∧ h = [] ∧ r = .error e := by
  cases result with
  | ok a =>
      have hrun : (ofOutcome (.ok a) >>= f).Does h r ↔ (f a).Does h r := Iff.rfl
      rw [hrun]
      simp
  | error e =>
      have hrun : (ofOutcome (.error e) >>= f).Does h r ↔ (throw e : Operation β).Does h r := Iff.rfl
      rw [hrun, does_throw]
      simp

/-- The deeds in which some messages are sent one after another. -/
def sends (ms : List Message) (ps : List Promise) : List Deed :=
  List.zipWith (fun m p => ⟨.send m, p⟩) ms ps

theorem messagesOf_sends {ms : List Message} {ps : List Promise} (h : ps.length = ms.length) :
    messagesOf (sends ms ps) = ms := by
  induction ms generalizing ps with
  | nil => rfl
  | cons m ms ih =>
      cases ps with
      | nil => cases h
      | cons p ps => exact congrArg (m :: ·) (ih (Nat.succ.inj h))

theorem mem_sends {ms : List Message} {ps : List Promise} {deed : Deed} (h : deed ∈ sends ms ps) :
    ∃ m ∈ ms, ∃ p, deed = ⟨.send m, p⟩ := by
  rw [sends, ← List.map_uncurry_zip_eq_zipWith] at h
  obtain ⟨⟨m, p⟩, hmem, rfl⟩ := List.mem_map.mp h
  exact ⟨m, (List.of_mem_zip hmem).1, p, rfl⟩

theorem does_sendAll {ms : List Message} {r : Outcome (List Promise)} :
    (sendAll ms).Does h r ↔ ∃ ps, ps.length = ms.length ∧ h = sends ms ps ∧ r = .ok ps := by
  induction ms generalizing h r with
  | nil =>
      rw [sendAll, does_pure]
      constructor
      · rintro ⟨rfl, rfl⟩
        exact ⟨[], rfl, rfl, rfl⟩
      · rintro ⟨ps, hlength, rfl, rfl⟩
        cases List.eq_nil_of_length_eq_zero hlength
        exact ⟨rfl, rfl⟩
  | cons m ms ih =>
      rw [sendAll, send, does_lift_bind]
      constructor
      · rintro ⟨p, h', rfl, hrest⟩
        rcases does_bind.mp hrest with ⟨h₁, ps, h₂, rfl, hall, hpure⟩ | ⟨e, hall, -⟩
        · obtain ⟨ps', hlength, rfl, hps⟩ := ih.mp hall
          obtain ⟨rfl, rfl⟩ := does_pure.mp hpure
          cases hps
          exact ⟨p :: ps, congrArg (· + 1) hlength, by simp [sends], rfl⟩
        · obtain ⟨ps, -, -, hps⟩ := ih.mp hall
          cases hps
      · rintro ⟨ps, hlength, rfl, rfl⟩
        cases ps with
        | nil => cases hlength
        | cons p ps =>
            refine ⟨p, sends ms ps, rfl, does_bind.mpr (.inl ⟨sends ms ps, ps, [], ?_, ?_, ?_⟩)⟩
            · exact (List.append_nil _).symm
            · exact ih.mpr ⟨ps, Nat.succ.inj hlength, rfl, rfl⟩
            · exact does_pure.mpr ⟨rfl, rfl⟩

/-- Members of a batch are waited for together, and with them its barrier. -/
theorem does_settleBatch {ps : List Promise} {barrier : Option Promise} {r : Outcome Unit} :
    (settleBatch ps barrier).Does h r ↔
      ∃ results closing, h = [⟨.gather ps barrier, (results, closing)⟩] ∧
        r = batchOutcome results closing := by
  rw [settleBatch, gather, does_lift_bind]
  constructor
  · rintro ⟨⟨results, closing⟩, h', rfl, hend⟩
    obtain ⟨rfl, rfl⟩ := does_ofOutcome.mp hend
    exact ⟨results, closing, rfl, rfl⟩
  · rintro ⟨results, closing, rfl, rfl⟩
    exact ⟨(results, closing), [], rfl, does_ofOutcome.mpr ⟨rfl, rfl⟩⟩

/-- A barrier is sent before anything is waited for. -/
theorem does_composeWithBarrier {ps : List Promise} {barrierAfter : Bool} {r : Outcome Unit} :
    (composeWithBarrier ps barrierAfter).Does h r ↔
      ∃ results closing, r = batchOutcome results closing ∧
        (barrierAfter = false ∧ h = [⟨.gather ps none, (results, closing)⟩] ∨
          barrierAfter = true ∧ ∃ p, h =
            [⟨.send .barrierRequest, p⟩, ⟨.gather ps (some p), (results, closing)⟩]) := by
  cases barrierAfter with
  | false =>
      have hrun : composeWithBarrier ps false = settleBatch ps none := rfl
      rw [hrun, does_settleBatch]
      simp [and_comm]
  | true =>
      have hrun : composeWithBarrier ps true =
          (send .barrierRequest >>= fun p => settleBatch ps (some p)) := rfl
      rw [hrun, send, does_lift_bind]
      constructor
      · rintro ⟨p, h', rfl, hsettle⟩
        obtain ⟨results, closing, rfl, rfl⟩ := does_settleBatch.mp hsettle
        exact ⟨results, closing, rfl, .inr ⟨rfl, p, rfl⟩⟩
      · rintro ⟨results, closing, rfl, ⟨hfalse, -⟩ | ⟨-, p, rfl⟩⟩
        · cases hfalse
        · exact ⟨p, _, rfl, does_settleBatch.mpr ⟨results, closing, rfl, rfl⟩⟩

end Operation

end Southbound
