import Southbound.Operation.Request

/-!
# Disciplines of programs

A `Discipline` says which effects a program may ask for next, given what is known,
and what is known after each answer.  That a program follows a discipline is a matter
of its tree alone, whatever is answered (`Program.Follows`), and what holds of the
value in the end is part of it.

The rules go along the way operations are put together: one operation after another
(`Operation.follows_bind`), one for every element of a list, and a single effect
(`Operation.follows_lift`).  After a failure nothing more is done, so a failure
follows every discipline.
-/

namespace Southbound

/-- Which effects may come next, given what is known, and what is known after them. -/
structure Discipline (K : Type) where
  /-- Whether an effect may come next. -/
  may : K → Effect → Prop
  /-- What may be known after an effect and its answer. -/
  next : K → (e : Effect) → e.Answer → K → Prop

variable {K α β : Type} {D : Discipline K} {k : K}

/-! ## Programs -/

namespace Program

/-- A program follows a discipline, and its value has a property. -/
def Follows (D : Discipline K) : K → Program α → (K → α → Prop) → Prop
  | k, done a, post => post k a
  | k, step e next, post => D.may k e ∧ ∀ a k', D.next k e a k' → Follows D k' (next a) post

/-- A program follows a discipline, whatever its value. -/
def Obeys (D : Discipline K) (k : K) (p : Program α) : Prop := p.Follows D k fun _ _ => True

theorem Follows.mono {p : Program α} {post post' : K → α → Prop} (h : p.Follows D k post)
    (hpost : ∀ k a, post k a → post' k a) : p.Follows D k post' := by
  induction p generalizing k with
  | done a => exact hpost k a h
  | step e next ih => exact ⟨h.1, fun a k' hk' => ih a (h.2 a k' hk')⟩

theorem Follows.obeys {p : Program α} {post : K → α → Prop} (h : p.Follows D k post) :
    p.Obeys D k :=
  h.mono fun _ _ _ => trivial

/-- One program after another. -/
theorem Follows.bind {p : Program α} {f : α → Program β} {post : K → β → Prop}
    (h : p.Follows D k fun k' a => (f a).Follows D k' post) : (p.bind f).Follows D k post := by
  induction p generalizing k with
  | done a => exact h
  | step e next ih => exact ⟨h.1, fun a k' hk' => ih a (h.2 a k' hk')⟩

end Program

/-! ## Operations -/

namespace Operation

/-- An operation follows a discipline, and its value, if it has one, has a
property. -/
def Follows (D : Discipline K) (k : K) (o : Operation α) (post : K → α → Prop) : Prop :=
  Program.Follows D k o.run fun k' r => ∀ a, r = .ok a → post k' a

variable {o : Operation α} {post post' : K → α → Prop}

theorem Follows.mono (h : o.Follows D k post) (hpost : ∀ k a, post k a → post' k a) :
    o.Follows D k post' :=
  Program.Follows.mono h fun k' _ hr a ha => hpost k' a (hr a ha)

theorem Follows.obeys (h : o.Follows D k post) : o.run.Obeys D k := Program.Follows.obeys h

theorem follows_pure {a : α} (h : post k a) : Operation.Follows D k (pure a) post := by
  intro b hb
  cases hb
  exact h

theorem follows_throw (e : Failure) : Operation.Follows D k (throw e) post := by
  intro b hb
  cases hb

theorem follows_ofOutcome {r : Outcome α} (h : ∀ a, r = .ok a → post k a) :
    Operation.Follows D k (ofOutcome r) post := h

/-- One operation after another. -/
theorem follows_bind {f : α → Operation β} {post : K → β → Prop}
    (h : o.Follows D k fun k' a => (f a).Follows D k' post) :
    Operation.Follows D k (o >>= f) post := by
  refine Program.Follows.bind (Program.Follows.mono h fun k' r hr => ?_)
  cases r with
  | ok a => exact hr a rfl
  | error e =>
      intro b hb
      cases hb

/-- The value of an operation, seen in another way. -/
theorem follows_map {f : α → β} {post : K → β → Prop}
    (h : o.Follows D k fun k' a => post k' (f a)) : Operation.Follows D k (f <$> o) post := by
  refine Program.Follows.bind (Program.Follows.mono h fun k' r hr => ?_)
  cases r with
  | ok a =>
      intro b hb
      cases hb
      exact hr a rfl
  | error e =>
      intro b hb
      cases hb

/-- A single effect, whatever it answers. -/
theorem follows_lift {e : Effect} {post : K → e.Answer → Prop} (hmay : D.may k e)
    (hpost : ∀ a k', D.next k e a k' → post k' a) :
    Operation.Follows D k (ExceptT.lift (.perform e)) post := by
  refine ⟨hmay, fun a k' hk' b hb => ?_⟩
  cases hb
  exact hpost a k' hk'

/-- The operation goes on with the outcome of a program, whatever it is. -/
theorem follows_lift_run {o : Operation α} {post : K → Outcome α → Prop}
    (h : Program.Follows D k o.run post) :
    Operation.Follows D k (ExceptT.lift o.run) post := by
  refine Program.Follows.bind (Program.Follows.mono h fun k' r hr => ?_)
  intro b hb
  cases hb
  exact hr

/-- What holds before and after each of some messages that are sent holds after all. -/
theorem follows_sendAll {inv : K → Prop} {ms : List Message}
    (hmay : ∀ k, inv k → ∀ m ∈ ms, D.may k (.send m))
    (hnext : ∀ k m p k', inv k → D.next k (.send m) p k' → inv k') (hk : inv k) :
    Operation.Follows D k (sendAll ms) fun k' _ => inv k' := by
  induction ms generalizing k with
  | nil => exact follows_pure hk
  | cons m ms ih =>
      refine follows_bind (follows_lift (hmay k hk m (.head _)) fun p k' hk' => ?_)
      refine follows_bind ((ih (fun k hk m hm => hmay k hk m (.tail _ hm))
        (hnext k m p k' hk hk')).mono fun k'' ps hk'' => ?_)
      exact follows_pure hk''

/-- What holds before and after each element of a list holds after all. -/
theorem follows_forGroups_of_mem (inv : K → Prop) {f : GroupId → Operation Unit}
    {gs : List GroupId} (hf : ∀ k, ∀ g ∈ gs, inv k → (f g).Follows D k fun k' _ => inv k')
    (hk : inv k) : Operation.Follows D k (forGroups f gs) fun k' _ => inv k' := by
  induction gs generalizing k with
  | nil => exact follows_pure hk
  | cons g gs ih =>
      refine follows_bind ((hf k g (.head _) hk).mono fun k' _ hk' => ?_)
      exact ih (fun k g hg => hf k g (.tail _ hg)) hk'

/-- What holds before and after anything is done for a group holds after it is done for
every group of a list. -/
theorem follows_forGroups (inv : K → Prop) {f : GroupId → Operation Unit} {gs : List GroupId}
    (hf : ∀ k g, inv k → (f g).Follows D k fun k' _ => inv k') (hk : inv k) :
    Operation.Follows D k (forGroups f gs) fun k' _ => inv k' :=
  follows_forGroups_of_mem inv (fun k g _ => hf k g) hk

/-- The reply to a message, whatever the result of the message. -/
theorem follows_reply {p : Promise} {post : K → Message → Prop} (hmay : D.may k (.await p))
    (hpost : ∀ a k', D.next k (.await p) a k' → ∀ m, a = .ok m → post k' m) :
    Operation.Follows D k (reply p) post :=
  ⟨hmay, hpost⟩

end Operation

/-! ## Operations that do not fail -/

namespace Operation

/-- An operation follows a discipline and does not fail, and its value has a property. -/
def Succeeds (D : Discipline K) (k : K) (o : Operation α) (post : K → α → Prop) : Prop :=
  Program.Follows D k o.run fun k' r => ∃ a, r = .ok a ∧ post k' a

variable {o : Operation α} {post post' : K → α → Prop}

theorem Succeeds.mono (h : o.Succeeds D k post) (hpost : ∀ k a, post k a → post' k a) :
    o.Succeeds D k post' :=
  Program.Follows.mono h fun k' _ ⟨a, ha, hp⟩ => ⟨a, ha, hpost k' a hp⟩

theorem succeeds_pure {a : α} (h : post k a) : Operation.Succeeds D k (pure a) post := ⟨a, rfl, h⟩

theorem succeeds_ofOutcome {r : Outcome α} {a : α} (hr : r = .ok a) (h : post k a) :
    Operation.Succeeds D k (ofOutcome r) post := ⟨a, hr, h⟩

/-- One operation after another. -/
theorem succeeds_bind {f : α → Operation β} {post : K → β → Prop}
    (h : o.Succeeds D k fun k' a => (f a).Succeeds D k' post) :
    Operation.Succeeds D k (o >>= f) post := by
  refine Program.Follows.bind (Program.Follows.mono h fun k' r hr => ?_)
  obtain ⟨a, rfl, ha⟩ := hr
  exact ha

/-- The value of an operation, seen in another way. -/
theorem succeeds_map {f : α → β} {post : K → β → Prop}
    (h : o.Succeeds D k fun k' a => post k' (f a)) :
    Operation.Succeeds D k (f <$> o) post := by
  refine Program.Follows.bind (Program.Follows.mono h fun k' r hr => ?_)
  obtain ⟨a, rfl, ha⟩ := hr
  exact ⟨f a, rfl, ha⟩

/-- A single effect, whatever it answers. -/
theorem succeeds_lift {e : Effect} {post : K → e.Answer → Prop} (hmay : D.may k e)
    (hpost : ∀ a k', D.next k e a k' → post k' a) :
    Operation.Succeeds D k (ExceptT.lift (.perform e)) post :=
  ⟨hmay, fun a k' hk' => ⟨a, rfl, hpost a k' hk'⟩⟩

/-- The operation goes on with the outcome of a program, whatever it is. -/
theorem succeeds_lift_run {post : K → Outcome α → Prop} (h : Program.Follows D k o.run post) :
    Operation.Succeeds D k (ExceptT.lift o.run) post :=
  Program.Follows.bind (Program.Follows.mono h fun _ r hr => ⟨r, rfl, hr⟩)

/-- The reply to a message that does not fail. -/
theorem succeeds_reply {p : Promise} {post : K → Message → Prop} (hmay : D.may k (.await p))
    (hpost : ∀ a k', D.next k (.await p) a k' → ∃ m, a = .ok m ∧ post k' m) :
    Operation.Succeeds D k (reply p) post :=
  ⟨hmay, hpost⟩

end Operation

/-! ## Waiting -/

/-- A discipline under which a program may always wait and send barriers. -/
structure Discipline.Patient (D : Discipline K) : Prop where
  barrier : ∀ k, D.may k (.send .barrierRequest)
  /-- A result may be waited for. -/
  await : ∀ k p, D.may k (.await p)
  /-- Results may be waited for. -/
  gather : ∀ k ps p, D.may k (.gather ps p)

namespace Operation

theorem follows_barrier (h : D.Patient) : Operation.Follows D k barrier fun _ _ => True := by
  refine follows_bind (follows_lift (h.barrier k) fun p k' _ => ?_)
  refine follows_bind (follows_reply (h.await k' p) fun _ k'' _ m _ => ?_)
  exact follows_ofOutcome fun _ _ => trivial

theorem follows_settleBatch (h : D.Patient) (ps : List Promise) (p : Option Promise) :
    Operation.Follows D k (settleBatch ps p) fun _ _ => True := by
  refine follows_bind (follows_lift (h.gather k ps p) fun results k' _ => ?_)
  exact follows_ofOutcome fun _ _ => trivial

theorem follows_composeWithBarrier (h : D.Patient) (ps : List Promise) (barrierAfter : Bool) :
    Operation.Follows D k (composeWithBarrier ps barrierAfter) fun _ _ => True := by
  cases barrierAfter with
  | false => exact follows_settleBatch h ps none
  | true => exact follows_bind (follows_lift (h.barrier k) fun p k' _ => follows_settleBatch h ps p)

/-- Changes of flows are sent one after another, and then there is only waiting. -/
theorem follows_sendFlowMods (h : D.Patient) (inv : K → Prop) {mods : List FlowMod}
    (barrierAfter : Bool) (hmay : ∀ k, inv k → ∀ m ∈ mods, D.may k (.send (.flowMod m)))
    (hnext : ∀ k m p k', inv k → D.next k (.send m) p k' → inv k') (hk : inv k) :
    Operation.Follows D k (sendFlowMods mods barrierAfter) fun _ _ => True := by
  have hmay' : ∀ k, inv k → ∀ m ∈ mods.map Message.flowMod, D.may k (.send m) := by
    intro k hk m hm
    obtain ⟨mod, hmod, rfl⟩ := List.mem_map.mp hm
    exact hmay k hk mod hmod
  refine follows_bind ((follows_sendAll hmay' hnext hk).mono fun k' ps _ => ?_)
  split
  · exact follows_bind (follows_reply (h.await k' _) fun _ k'' _ m _ => follows_pure trivial)
  · exact follows_composeWithBarrier h ps barrierAfter

theorem follows_batchResult (h : D.Patient) (inv : K → Prop) {ms : List Message}
    (barrierAfter : Bool) (hmay : ∀ k, inv k → ∀ m ∈ ms, D.may k (.send m))
    (hnext : ∀ k m p k', inv k → D.next k (.send m) p k' → inv k') (hk : inv k) :
    Operation.Follows D k (batchResult ms barrierAfter) fun _ _ => True := by
  refine follows_bind ((follows_sendAll hmay hnext hk).mono fun k' ps _ => ?_)
  exact follows_lift_run (follows_composeWithBarrier h ps barrierAfter).obeys

end Operation

/-! ## Work -/

namespace Work

/-- The program of some work, if it has one, follows a discipline, and its value has a
property. -/
def Follows (D : Discipline K) (k : K) (post : K → Outcome Result → Prop) : Work → Prop
  | .operate _ rest => rest.Follows D k post
  | .observe _ => True
  | .clear => True

theorem follows_ofUnit {c : ConnectionId} {o : Operation Unit} {post : K → Result → Prop}
    (h : o.Follows D k fun k' _ => post k' .done) :
    (ofUnit c o).Follows D k fun k' r => ∀ v, r = .ok v → post k' v :=
  Operation.follows_map h

theorem follows_ofFlow {c : ConnectionId} {o : Operation FlowOutcome} {post : K → Result → Prop}
    (h : o.Follows D k fun k' outcome => post k' (.flow outcome)) :
    (ofFlow c o).Follows D k fun k' r => ∀ v, r = .ok v → post k' v :=
  Operation.follows_map h

/-- The program of some work, if it has one, follows a discipline. -/
def Obeys (D : Discipline K) (k : K) : Work → Prop
  | .operate _ rest => rest.Obeys D k
  | .observe _ => True
  | .clear => True

theorem obeys_ofUnit {c : ConnectionId} {o : Operation Unit} {post : K → Unit → Prop}
    (h : o.Follows D k post) : (ofUnit c o).Obeys D k := by
  have hmap : Operation.Follows D k (Functor.map (fun _ => Result.done) o) fun _ _ => True :=
    Operation.follows_map (h.mono fun _ _ _ => trivial)
  exact hmap.obeys

theorem obeys_ofFlow {c : ConnectionId} {o : Operation FlowOutcome} {post : K → FlowOutcome → Prop}
    (h : o.Follows D k post) : (ofFlow c o).Obeys D k := by
  have hmap : Operation.Follows D k (Functor.map Result.flow o) fun _ _ => True :=
    Operation.follows_map (h.mono fun _ _ _ => trivial)
  exact hmap.obeys

end Work

end Southbound
