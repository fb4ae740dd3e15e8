import Southbound.Proofs.System.GroupBatches

/-!
# Barriers after changes of single groups

A group says whether a barrier is asked for after its group-mod.  A request that adds, updates or
removes one group pays no heed to that.  In any run it hands over the group-mod and nothing else,
and it succeeds just if the device has confirmed it.

So what the group asks for is had as long as nothing depends on it: the request has not succeeded,
and no other operation has sent a message since (`System.honoursBarrier_iff`).  Otherwise it is
missing (`System.barrier_not_honoured`).
-/

namespace Southbound

theorem mem_messagesOf {h : List Deed} {m : Message} {p : Promise}
    (hmem : (⟨.send m, p⟩ : Deed) ∈ h) : m ∈ messagesOf h :=
  List.mem_filterMap.mpr ⟨_, hmem, rfl⟩

/-- A request that changes one group, and not in a batch, sends the change and nothing else. -/
theorem Request.messagesOf_of_alone {r : Request} {mod : GroupMod} {policy : OperationPolicy}
    {c c' : ConnectionId} {p : Program (Outcome Result)} {h : List Deed} {v : Outcome Result}
    (hmods : r.groupMods = [mod]) (halone : r.isGroupBatch = false)
    (hwork : r.work policy c = .operate c' p) (hcomes : p.Comes h (.done v)) :
    messagesOf h = [.groupMod mod] := by
  obtain ⟨q, o, rfl, -⟩ := exists_of_alone hmods halone hwork hcomes
  have hrecords : messagesOf ((confirmedMods policy.rule [mod] [o]).map GroupMod.deed) = [] := by
    refine messagesOf_of_isRecord fun deed hdeed => ?_
    obtain ⟨mod', -, rfl⟩ := List.mem_map.mp hdeed
    exact mod'.isRecord_deed
  exact congrArg (List.cons _) hrecords

namespace System

/-- In an event another job hands a message over, on the connection on which a job has handed over
the change of a group. -/
def IsFollowed (s : System) (es : List Event) (e : Event) (t : Ticket) (mod : GroupMod) : Prop :=
  ∃ p t' p' m', (⟨.send (.groupMod mod), p⟩ : Deed) ∈ s.deedsIn t es ∧
    (s.go es).asked? e = some (t', p', m') ∧ t' ≠ t ∧ p'.connection = p.connection

/-- In a run the job that changes one group does what the group says of a barrier. -/
structure HonoursBarrier (s : System) (es : List Event) (t : Ticket) (mod : GroupMod) : Prop where
  /-- The barrier comes before any message of another operation. -/
  before : mod.group.barrier = true → ∀ es₁ e es₂, es = es₁ ++ e :: es₂ →
    s.IsFollowed es₁ e t mod → ∃ q, (⟨.send .barrierRequest, q⟩ : Deed) ∈ s.deedsIn t es₁
  /-- The job succeeds only if the change was confirmed and the barrier answered. -/
  answered : mod.group.barrier = true → (s.go es).jobResult? t = some (.ok .done) →
    ∃ p q, (⟨.send (.groupMod mod), p⟩ : Deed) ∈ s.deedsIn t es ∧
      (s.go es).Confirmed p (.groupMod mod) ∧
      (⟨.send .barrierRequest, q⟩ : Deed) ∈ s.deedsIn t es ∧
      (s.go es).result? q = some (.ok .barrierReply)
  /-- Without a barrier just the change is sent. -/
  alone : mod.group.barrier = false → ∀ result, (s.go es).jobResult? t = some result →
    messagesOf (s.deedsIn t es) = [.groupMod mod]

variable {s : System} {t : Ticket} {r : Request} {mod : GroupMod} {es : List Event}
  {result : Outcome Result}

section Runs

variable {config : Config} {s₀ : System} (hnew : System.new config = .ok s₀)
  (hreq : (t, r) ∈ s₀.requestedIn es) (halone : r.isGroupBatch = false) (hmods : r.groupMods = [mod])
include hnew hreq halone hmods

/-- A job that has changed one group has sent the change, and has succeeded just if the device has
confirmed it. -/
theorem sent_of_alone (hresult : (s₀.go es).jobResult? t = some result) :
    messagesOf (s₀.deedsIn t es) = [.groupMod mod] ∧
      ∃ p, (⟨.send (.groupMod mod), p⟩ : Deed) ∈ s₀.deedsIn t es ∧
        (result = .ok .done ↔ (s₀.go es).Confirmed p (.groupMod mod)) := by
  have hne : r.groupMods ≠ [] := by simp [hmods]
  obtain ⟨c, program, hwork, hcomes⟩ := comes_of_groupMods hnew hreq hne hresult
  refine ⟨Request.messagesOf_of_alone hmods halone hwork hcomes, ?_⟩
  obtain ⟨p, o, hdeeds, hok⟩ := Request.exists_of_alone hmods halone hwork hcomes
  have ho : (s₀.go es).result? p = some o := by
    refine result?_of_await (t := t) hnew ?_
    rw [hdeeds]
    simp
  refine ⟨p, hdeeds ▸ .head _, hok.trans ?_⟩
  constructor
  · exact fun hconfirms => ⟨o, ho, by rwa [policy_go hnew]⟩
  · rintro ⟨o', ho', hconfirms⟩
    cases ho.symm.trans ho'
    rwa [policy_go hnew] at hconfirms

/-- A job that changes one group sends no other message than the change. -/
theorem messages_prefix_of_alone : messagesOf (s₀.deedsIn t es) <+: [.groupMod mod] := by
  obtain ⟨c, broke, htells⟩ := exists_tells hnew hreq
  obtain ⟨program, hwork⟩ :=
    Request.exists_operate_of_groupMods s₀.pipeline.policy c (r := r) (by simp [hmods])
  obtain ⟨rest, hrest⟩ := (htells program hwork).comes
  -- Whatever is left of the program comes to an end, and then all messages are sent.
  obtain ⟨more, v, hend⟩ := hrest.exists_end
  rw [← Request.messagesOf_of_alone hmods halone hwork hend, messagesOf_append]
  exact List.prefix_append ..

/-- It sends no barrier. -/
theorem notMem_barrier_of_alone {es₁ es₂ : List Event} (hes : es = es₁ ++ es₂) (q : Promise) :
    (⟨.send .barrierRequest, q⟩ : Deed) ∉ s₀.deedsIn t es₁ := by
  intro hmem
  have hlater : (⟨.send .barrierRequest, q⟩ : Deed) ∈ s₀.deedsIn t es := by
    rw [hes, deedsIn_append]
    exact List.mem_append_left _ hmem
  have hmessages := messages_prefix_of_alone hnew hreq halone hmods
  have hbarrier := hmessages.subset (mem_messagesOf hlater)
  cases List.mem_singleton.mp hbarrier

/-- In any run, and whatever the device answers, the job of a request that adds, updates or removes
one group hands over the change and nothing else, and it succeeds just if the device has confirmed
the change.  So what the group says of a barrier is honoured just if there is to be none, or if the
job has not succeeded and no other job has handed a message over since. -/
theorem honoursBarrier_iff :
    messagesOf (s₀.deedsIn t es) <+: [.groupMod mod] ∧
      (∀ result, (s₀.go es).jobResult? t = some result →
        messagesOf (s₀.deedsIn t es) = [.groupMod mod] ∧
          ∃ p, (⟨.send (.groupMod mod), p⟩ : Deed) ∈ s₀.deedsIn t es ∧
            (result = .ok .done ↔ (s₀.go es).Confirmed p (.groupMod mod))) ∧
      (s₀.HonoursBarrier es t mod ↔
        mod.group.barrier = false ∨ (s₀.go es).jobResult? t ≠ some (.ok .done) ∧
          ∀ es₁ e es₂, es = es₁ ++ e :: es₂ → ¬s₀.IsFollowed es₁ e t mod) := by
  have hsent (result : Outcome Result) (hresult : (s₀.go es).jobResult? t = some result) :=
    sent_of_alone hnew hreq halone hmods hresult
  have hnone {es₁ es₂ : List Event} (hes : es = es₁ ++ es₂) (q : Promise) :=
    notMem_barrier_of_alone hnew hreq halone hmods hes q
  refine ⟨messages_prefix_of_alone hnew hreq halone hmods, hsent, ?_⟩
  constructor
  · intro hhonours
    cases hflag : mod.group.barrier with
    | false => exact .inl rfl
    | true =>
        refine .inr ⟨fun hok => ?_, fun es₁ e es₂ hes hfollowed => ?_⟩
        · obtain ⟨p, q, -, -, hbarrier, -⟩ := hhonours.answered hflag hok
          exact hnone (List.append_nil es).symm q hbarrier
        · obtain ⟨q, hbarrier⟩ := hhonours.before hflag es₁ e es₂ hes hfollowed
          exact hnone hes q hbarrier
  · rintro (hflag | ⟨hfailed, hlast⟩)
    · refine ⟨fun h => ?_, fun h => ?_, fun _ result hresult => (hsent result hresult).1⟩
      · exact absurd (hflag.symm.trans h) Bool.false_ne_true
      · exact absurd (hflag.symm.trans h) Bool.false_ne_true
    · constructor
      case before => exact fun _ es₁ e es₂ hes hfollowed => absurd hfollowed (hlast es₁ e es₂ hes)
      case answered => exact fun _ hok => absurd hok hfailed
      case alone => exact fun _ result hresult => (hsent result hresult).1

end Runs

/-! ## A group that asks for a barrier -/

namespace Flagged

def device : DeviceId := ⟨"openflow:1"⟩

def group : Group := { id := ⟨7⟩, barrier := true }

/-- A request is accepted, and its message is sent and acknowledged. -/
def run (r : Request) : List Event :=
  [.openConnection device .acknowledging 64, .attach 0, .submit r false, .startJob 0, .stepJob 0,
    .writer 0, .writer 0, .receive 0 [0], .stepJob 0, .stepJob 0, .stepJob 0]

end Flagged

/-- A group that asks for a barrier is added without one.  A group that asks for none is updated as
it should be. -/
theorem honoursBarrier_iff_of_flagged :
    (0, .addGroup Flagged.device Flagged.group) ∈
        start.requestedIn (Flagged.run (.addGroup Flagged.device Flagged.group)) ∧
      messagesOf (start.deedsIn 0 (Flagged.run (.addGroup Flagged.device Flagged.group))) =
        [.groupMod ⟨.add, Flagged.group⟩] ∧
      ¬start.HonoursBarrier (Flagged.run (.addGroup Flagged.device Flagged.group)) 0
        ⟨.add, Flagged.group⟩ ∧
      (0, .updateGroup Flagged.device { id := ⟨7⟩ }) ∈
        start.requestedIn (Flagged.run (.updateGroup Flagged.device { id := ⟨7⟩ })) ∧
      start.HonoursBarrier (Flagged.run (.updateGroup Flagged.device { id := ⟨7⟩ })) 0
        ⟨.modify, { id := ⟨7⟩ }⟩ := by
  have hadd : (0, .addGroup Flagged.device Flagged.group) ∈
      start.requestedIn (Flagged.run (.addGroup Flagged.device Flagged.group)) := by decide
  have hupdate : (0, .updateGroup Flagged.device { id := ⟨7⟩ }) ∈
      start.requestedIn (Flagged.run (.updateGroup Flagged.device { id := ⟨7⟩ })) := by
    decide
  have hok : (start.go (Flagged.run (.addGroup Flagged.device Flagged.group))).jobResult? 0 =
      some (.ok .done) := rfl
  obtain ⟨-, hsent, hadded⟩ := honoursBarrier_iff new_start hadd rfl rfl
  obtain ⟨-, -, hupdated⟩ := honoursBarrier_iff new_start hupdate rfl rfl
  refine ⟨hadd, (hsent _ hok).1, fun hhonours => ?_, hupdate, hupdated.mpr (.inl rfl)⟩
  rcases hadded.mp hhonours with hflag | ⟨hfailed, -⟩
  · cases hflag
  · exact hfailed hok

/-- Not every request does what its group says of a barrier: a group that asks for one is added and
acknowledged, and no barrier was sent. -/
theorem barrier_not_honoured :
    ¬∀ (config : Config) (s₀ : System) (es : List Event) (t : Ticket) (r : Request) (mod : GroupMod),
      System.new config = .ok s₀ → (t, r) ∈ s₀.requestedIn es → r.isGroupBatch = false →
      r.groupMods = [mod] → s₀.HonoursBarrier es t mod := by
  intro hall
  have hadd : (0, .addGroup Flagged.device Flagged.group) ∈
      start.requestedIn (Flagged.run (.addGroup Flagged.device Flagged.group)) := by decide
  have hhonours := hall {} _ _ 0 _ ⟨.add, Flagged.group⟩ new_start hadd rfl rfl
  obtain ⟨-, q, -, -, hbarrier, -⟩ := hhonours.answered rfl rfl
  have hmessages : messagesOf
      (start.deedsIn 0 (Flagged.run (.addGroup Flagged.device Flagged.group))) =
        [.groupMod ⟨.add, Flagged.group⟩] := rfl
  have hmem := mem_messagesOf hbarrier
  rw [hmessages] at hmem
  cases List.mem_singleton.mp hmem

end System

end Southbound
