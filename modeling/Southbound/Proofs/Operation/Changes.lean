import Southbound.Proofs.Operation.FlowPlan

/-!
# The changes of flows among what an operation does

An operation on a flow hands its changes over one right after the other, all of them or, if
the group of the flow cannot be had, none (`Request.Story.exists_burst`).  So as far as the
operation has come, the changes that it has handed over are the first of those that its request
comes to (`Request.Story.changesOf_prefix`).
-/

namespace Southbound

/-- The change of a flow that a message is for. -/
def Message.flowMod? : Message → Option FlowMod
  | .flowMod mod => some mod
  | _ => none

theorem Message.flowMod?_eq_some {m : Message} {mod : FlowMod} :
    m.flowMod? = some mod ↔ m = .flowMod mod := by
  cases m <;> simp [flowMod?]

/-- A removal is no addition. -/
theorem FlowMod.by_deleteStrict_ne_by_add (old updated : Flow) :
    FlowMod.by .deleteStrict old ≠ .by .add updated := by
  intro heq
  cases congrArg FlowMod.command heq

/-- The changes of flows that are handed over in some deeds, in their order. -/
def changesOf (deeds : List Deed) : List FlowMod := (messagesOf deeds).filterMap Message.flowMod?

section Deeds

variable {h h' : List Deed}

@[simp] theorem changesOf_nil : changesOf [] = [] := rfl

@[simp] theorem changesOf_append : changesOf (h ++ h') = changesOf h ++ changesOf h' := by
  rw [changesOf, messagesOf_append, List.filterMap_append, changesOf, changesOf]

@[simp] theorem changesOf_cons_send (mod : FlowMod) (p : Promise) (h : List Deed) :
    changesOf (⟨.send (.flowMod mod), p⟩ :: h) = mod :: changesOf h := rfl

theorem mem_changesOf {mod : FlowMod} :
    mod ∈ changesOf h ↔ ∃ p, (⟨.send (.flowMod mod), p⟩ : Deed) ∈ h := by
  rw [changesOf, List.mem_filterMap]
  constructor
  · rintro ⟨m, hm, hmod⟩
    obtain rfl := Message.flowMod?_eq_some.mp hmod
    obtain ⟨⟨q, a⟩, hin, hmessage⟩ := List.mem_filterMap.mp hm
    cases q with
    | send m =>
        cases hmessage
        exact ⟨a, hin⟩
    | _ => cases hmessage
  · rintro ⟨p, hin⟩
    exact ⟨.flowMod mod, List.mem_filterMap.mpr ⟨_, hin, rfl⟩, rfl⟩

theorem changesOf_sends {mods : List FlowMod} {ps : List Promise}
    (hlength : ps.length = mods.length) :
    changesOf (Operation.sends (mods.map .flowMod) ps) = mods := by
  rw [changesOf, Operation.messagesOf_sends (by simpa using hlength), List.filterMap_map]
  exact List.filterMap_some

/-- Deeds that hand over two changes and no other hand the second over once. -/
theorem promise_eq_of_mem_pair {before after : List Deed} {first second : FlowMod} {p p₁ p₂ : Promise}
    (hne : first ≠ second) (hbefore : changesOf before = []) (hafter : changesOf after = [])
    (hin : (⟨.send (.flowMod second), p⟩ : Deed) ∈ before ++ ⟨.send (.flowMod first), p₁⟩ ::
      ⟨.send (.flowMod second), p₂⟩ :: after) : p = p₂ := by
  have hnone {deeds : List Deed} (hdeeds : changesOf deeds = []) :
      (⟨.send (.flowMod second), p⟩ : Deed) ∉ deeds := fun hin => by
    have hmem := mem_changesOf.mpr ⟨p, hin⟩
    rw [hdeeds] at hmem
    cases hmem
  rw [List.mem_append, List.mem_cons, List.mem_cons] at hin
  rcases hin with hin | heq | heq | hin
  · exact absurd hin (hnone hbefore)
  · cases heq
    exact absurd rfl hne
  · cases heq
    rfl
  · exact absurd hin (hnone hafter)

end Deeds

/-- What is left of a program after some deeds comes by the later ones as far as the whole. -/
theorem Program.Comes.rest {α : Type} {p p' p'' : Program α} {h h' : List Deed}
    (hp : p.Comes h p') (hp' : p.Comes (h ++ h') p'') : p'.Comes h' p'' := by
  induction hp with
  | here p => exact hp'
  | step _ ih =>
      cases hp' with
      | step hnext => exact ih hnext

/-- Changes are sent one right after the other. -/
theorem Settles.exists_burst {mods : List FlowMod} {barrierAfter : Bool} {h : List Deed}
    {o : Outcome Unit} (hs : Settles mods barrierAfter h o) :
    ∃ ps after, ps.length = mods.length ∧
      h = Operation.sends (mods.map .flowMod) ps ++ after ∧ changesOf after = [] := by
  cases hs with
  | @alone mod p result hmods =>
      subst hmods
      exact ⟨[p], [⟨.await p, result⟩], rfl, rfl, rfl⟩
  | batch _ hlength => exact ⟨_, _, hlength, rfl, rfl⟩
  | closed hlength => exact ⟨_, _, hlength, rfl, rfl⟩

namespace Request

variable {policy : OperationPolicy} {r : Request} {n : Finding} {h h' : List Deed}
  {o : Outcome Result}

/-- A request on a flow hands its changes over one right after the other, if it hands any
over. -/
theorem Story.exists_burst (hs : r.Story policy n h o) : changesOf h = [] ∨
    ∃ before ps after, ps.length = r.changes.length ∧
      h = before ++ (Operation.sends (r.changes.map .flowMod) ps ++ after) ∧
      changesOf before = [] ∧ changesOf after = [] := by
  have hfinding : changesOf (n.deeds policy.rule) = [] := by
    rw [changesOf, n.messagesOf_deeds]
    cases n <;> rfl
  have hbefore {marks : List Deed} (hm : r.Marks policy marks) :
      changesOf (n.deeds policy.rule ++ marks) = [] := by
    rw [changesOf_append, hfinding, changesOf, hm.messagesOf]
    rfl
  cases hs with
  | unresolved _ => exact .inl hfinding
  | failed _ hm hsent =>
      obtain ⟨ps, after, hlength, rfl, hafter⟩ := hsent.exists_burst
      exact .inr ⟨_, ps, after, hlength, rfl, hbefore hm, hafter⟩
  | done _ hm hsent _ =>
      obtain ⟨ps, after, hlength, rfl, hafter⟩ := hsent.exists_burst
      refine .inr ⟨_, ps, after ++ r.recording, hlength, ?_, hbefore hm, ?_⟩
      · simp only [List.append_assoc]
      · rw [changesOf_append, hafter, changesOf, messagesOf_recording]
        rfl

/-- As far as a request has come, the changes that it has handed over are the first of those
that it comes to. -/
theorem Story.changesOf_prefix (hs : r.Story policy n (h ++ h') o) :
    changesOf h <+: r.changes := by
  rcases hs.exists_burst with hnone | ⟨before, ps, after, hlength, heq, hbefore, hafter⟩
  · rw [changesOf_append, List.append_eq_nil_iff] at hnone
    rw [hnone.1]
    exact List.nil_prefix
  · have hall : changesOf h ++ changesOf h' = r.changes := by
      rw [← changesOf_append, heq, changesOf_append, changesOf_append, hbefore,
        changesOf_sends hlength, hafter, List.nil_append, List.append_nil]
    exact hall ▸ List.prefix_append _ _

/-- From the first change of a request to the last nothing is done but to send. -/
theorem Story.exists_send (hs : r.Story policy n (h ++ h') o) (hsome : changesOf h ≠ [])
    (hpart : changesOf h ≠ r.changes) : ∃ m p rest, h' = ⟨.send m, p⟩ :: rest := by
  rcases hs.exists_burst with hnone | ⟨before, ps, after, hlength, heq, hbefore, hafter⟩
  · rw [changesOf_append, List.append_eq_nil_iff] at hnone
    exact absurd hnone.1 hsome
  rcases List.append_eq_append_iff.mp heq with ⟨later, rfl, -⟩ | ⟨later, rfl, hlater⟩
  · rw [changesOf_append, List.append_eq_nil_iff] at hbefore
    exact absurd hbefore.1 hsome
  rw [changesOf_append, hbefore, List.nil_append] at hpart
  rcases List.append_eq_append_iff.mp hlater with ⟨rest, rfl, rfl⟩ | ⟨rest, hsends, rfl⟩
  · -- All changes were handed over.
    rw [changesOf_append, List.append_eq_nil_iff] at hafter
    rw [changesOf_append, changesOf_sends hlength, hafter.1, List.append_nil] at hpart
    exact absurd rfl hpart
  · cases rest with
    | nil =>
        rw [List.append_nil] at hsends
        rw [← hsends, changesOf_sends hlength] at hpart
        exact absurd rfl hpart
    | cons deed rest =>
        have hmem : deed ∈ Operation.sends (r.changes.map .flowMod) ps :=
          hsends ▸ List.mem_append_cons_self
        obtain ⟨m, -, p, rfl⟩ := Operation.mem_sends hmem
        exact ⟨m, p, rest ++ after, rfl⟩

/-- A request that has handed over two changes, and comes to no more, has handed the second over
right after the first. -/
theorem Story.exists_pair (hs : r.Story policy n (h ++ h') o) {first second : FlowMod}
    (hchanges : r.changes = [first, second]) (hsent : changesOf h = [first, second]) :
    ∃ before p₁ p₂ after, h = before ++ ⟨.send (.flowMod first), p₁⟩ ::
        ⟨.send (.flowMod second), p₂⟩ :: after ∧ changesOf before = [] ∧ changesOf after = [] := by
  rcases hs.exists_burst with hnone | ⟨before, ps, after, hlength, heq, hbefore, hafter⟩
  · rw [changesOf_append, hsent] at hnone
    cases hnone
  · rw [hchanges] at hlength heq
    obtain ⟨p₁, p₂, rfl⟩ := List.length_eq_two.mp hlength
    have hpair : Operation.sends ([first, second].map .flowMod) [p₁, p₂] =
        [⟨.send (.flowMod first), p₁⟩, ⟨.send (.flowMod second), p₂⟩] := rfl
    rw [hpair] at heq
    rcases List.append_eq_append_iff.mp heq with ⟨later, rfl, -⟩ | ⟨later, rfl, hlater⟩
    · rw [changesOf_append, hsent] at hbefore
      cases hbefore
    · rw [changesOf_append, hbefore, List.nil_append] at hsent
      match later, hlater with
      | [], _ => cases hsent
      | [_], hlater =>
          cases (List.cons.inj hlater).1
          cases hsent
      | _ :: _ :: later, hlater =>
          obtain ⟨hfirst, hrest⟩ := List.cons.inj hlater
          obtain ⟨hsecond, -⟩ := List.cons.inj hrest
          subst hfirst hsecond
          exact ⟨before, p₁, p₂, later, rfl, hbefore, (List.cons.inj (List.cons.inj hsent).2).2⟩

/-- A request on a flow makes one change, or it removes a flow and adds another. -/
theorem flowMods_cases (hr : r.isFlow = true) :
    (∃ mod, r.flowMods = [mod] ∧
      ∀ path old updated, r = .updateFlow path old updated → mod.command = .modifyStrict) ∨
    ∃ path old updated, r = .updateFlow path old updated ∧
      r.flowMods = [.by .deleteStrict old.toStrict, .by .add updated.toStrict] := by
  rw [flowMods_eq_changes]
  cases r with
  | addFlow path f => exact .inl ⟨_, rfl, fun _ _ _ heq => by cases heq⟩
  | removeFlow path f => exact .inl ⟨_, rfl, fun _ _ _ heq => by cases heq⟩
  | updateFlow path old updated =>
      rw [changes]
      split
      · exact .inl ⟨_, rfl, fun _ _ _ _ => rfl⟩
      · exact .inr ⟨path, old, updated, rfl, rfl⟩
  | _ => cases hr

end Request

end Southbound
