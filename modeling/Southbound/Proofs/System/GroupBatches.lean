import Southbound.Proofs.Operation.GroupBatches
import Southbound.Proofs.System.Batches
import Southbound.Proofs.System.Rewrites

/-!
# Batches of groups and single changes

A batch of additions or removals of groups leaves recorded what the same changes leave that are
done one by one with the same results, in any run in which the records of the device are left to
the jobs (`System.group_batches_leave_records`).  So what becomes of one member has nothing to do
with the others or with the barrier.

The results are those of the messages that the job has sent, as they are known in the run.
-/

namespace Southbound.System

/-- What came of the messages of a request for a batch of changes of groups. -/
structure HasBatch (s : System) (es : List Event) (t : Ticket) (r : Request) (ps : List Promise)
    (barrier : Option Promise) (results : List Settled) (closing : Option Settled) : Prop where
  /-- The messages were sent in their order, and no others. -/
  sent : ∃ rest, s.deedsIn t es = Operation.sends r.messages (ps ++ barrier.toList) ++ rest ∧
    messagesOf rest = []
  members : ps.length = r.groupMods.length
  closed : barrier.isSome = r.barrierAfter
  results : (s.go es).Knows ps results
  closing : (s.go es).Knows barrier.toList closing.toList

/-- Some changes of groups are done one after another with some results, each by a job of its
own to which the records of the device are left until it has its result.  Before that, nothing
that is recorded of the device changes. -/
inductive OneByOne (s : System) (d : DeviceId) : List GroupMod → List (Outcome Message) →
    List Event → List Event → Prop where
  | none (es : List Event) : OneByOne s d [] [] es es
  | next {mod : GroupMod} {o : Outcome Message} {mods : List GroupMod}
      {outcomes : List (Outcome Message)} {es before later es' : List Event} {t : Ticket}
      {r : Request} {p : Promise} : (s.go (es ++ before)).records d = (s.go es).records d →
      (t, r) ∈ s.requestedIn (es ++ before) → r.device = d → r.isGroupBatch = false →
      r.groupMods = [mod] → s.deedsIn t (es ++ before) = [] →
      (s.go (es ++ before)).LeftTo d t later →
      ((s.go (es ++ before ++ later)).jobResult? t).isSome →
      (⟨.send (.groupMod mod), p⟩ : Deed) ∈ s.deedsIn t (es ++ before ++ later) →
      (s.go (es ++ before ++ later)).result? p = some o →
      OneByOne s d mods outcomes (es ++ before ++ later) es' →
      OneByOne s d (mod :: mods) (o :: outcomes) es es'

/-- What a request for a batch of changes of groups has left recorded when it has its result, in
a run that goes on with some events after it was accepted, by the results of its messages. -/
structure BatchLeaves (s : System) (es later : List Event) (r : Request)
    (results : List Settled) (closing : Option Settled) (result : Outcome Result) : Prop where
  /-- Groups were added whose addition was answered without an error, or with the word that they
  are there already. -/
  added : ∀ d gs barrierAfter, r = .addGroups d gs barrierAfter → ∀ g,
    (s.go (es ++ later)).Has d (.group g) ↔ (s.go es).Has d (.group g) ∨ ∃ (i : Nat) (group : Group)
      (x : Xid) (o : Outcome Message), gs[i]? = some group ∧ group.id = g ∧
        results[i]? = some (x, o) ∧ ∃ existed, s.pipeline.policy.rule.verdict o = .ok existed
  /-- Groups were taken away whose removal was answered without an error. -/
  removed : ∀ d gs barrierAfter, r = .removeGroups d gs barrierAfter → ∀ g,
    (s.go (es ++ later)).Has d (.group g) ↔ (s.go es).Has d (.group g) ∧ ¬∃ (i : Nat) (group : Group)
      (x : Xid) (m : Message), gs[i]? = some group ∧ group.id = g ∧ results[i]? = some (x, .ok m)
  flows : (s.go (es ++ later)).pipeline.flows.device r.device =
    (s.go es).pipeline.flows.device r.device
  /-- The same changes leave the same groups if they are done one by one with these results. -/
  oneByOne : ∀ es₁ es₂, s.OneByOne r.device r.groupMods (results.map Prod.snd) es₁ es₂ →
    (s.go es₁).pipeline.groups.groups r.device = (s.go es).pipeline.groups.groups r.device →
      (s.go es₂).pipeline.groups.groups r.device =
        (s.go (es ++ later)).pipeline.groups.groups r.device
  /-- The batch has succeeded exactly if the device has confirmed all changes and has answered
  the barrier, if there is one, with the reply to it. -/
  succeeded : result = .ok .done ↔
    (∀ (i : Nat) mod x o, r.groupMods[i]? = some mod → results[i]? = some (x, o) →
      s.pipeline.policy.rule.confirms (.groupMod mod) o = true) ∧
    ∀ x, closing = some x → x.2 = .ok .barrierReply
  /-- Otherwise it has failed with just the failures that remain, each under its own index and
  transaction id. -/
  failed : result ≠ .ok .done → ∃ failures,
    result = .error (.batch (r.groupMods.length + closing.toList.length) failures) ∧
      failures ≠ [] ∧
      (∀ f, f ∈ failures ↔ Remains s.pipeline.policy.rule r.groupMods results closing f) ∧
      failures.Pairwise fun f g => f.step.Before g.step

variable {s : System} {d : DeviceId} {e : Event} {t : Ticket} {r : Request} {g : GroupId}
  {es later es' : List Event} {mods : List GroupMod} {outcomes : List (Outcome Message)}
  {ps : List Promise} {barrier : Option Promise} {results : List Settled}
  {closing : Option Settled} {result : Outcome Result}

section Runs

variable {config : Config} {s₀ : System} (hnew : System.new config = .ok s₀)
include hnew

/-- What a job has waited for together are the results of those messages. -/
theorem knows_of_gather {a : List Settled × Option Settled}
    (hgather : (⟨.gather ps barrier, a⟩ : Deed) ∈ s₀.deedsIn t es) :
    (s₀.go es).Knows ps a.1 ∧ (s₀.go es).Knows barrier.toList a.2.toList := by
  obtain ⟨h, more, heq⟩ := List.append_of_mem hgather
  obtain ⟨es₁, e, es₂, rfl, -, hdeed⟩ := exists_of_deedsIn heq
  obtain ⟨l, lane, c, next, s', -, -, -, hperform⟩ := deedOf?_eq_some hdeed
  obtain ⟨-, hresults, hclosing⟩ := knows_of_perform hperform
  have hkept (p : Promise) (o : Outcome Message) (ho : (s₀.go es₁).result? p = some o) :=
    result?_go hnew ho (e :: es₂)
  exact ⟨hresults.mono hkept, hclosing.mono hkept⟩

/-- A request that changes groups has come to the end of its work when it has a result. -/
theorem comes_of_groupMods (hreq : (t, r) ∈ s₀.requestedIn es) (hmods : r.groupMods ≠ [])
    (hresult : (s₀.go es).jobResult? t = some result) :
    ∃ c p, r.work s₀.pipeline.policy c = .operate c p ∧
      p.Comes (s₀.deedsIn t es) (.done result) := by
  obtain ⟨c, broke, htells⟩ := exists_tells hnew hreq
  obtain ⟨p, hp⟩ := Request.exists_operate_of_groupMods s₀.pipeline.policy c hmods
  refine ⟨c, p, hp, ?_⟩
  cases ((htells p hp).ended result hresult).1 with
  | value hdone => exact hdone
  | @brokenOff g next hread _ =>
      obtain ⟨more, o, hdone⟩ := (hread.concat (.ok none)).exists_end
      refine absurd ?_ (Request.notMem_of_groupMods hmods hp hdone g (.ok none))
      simp

/-- The records of a device that is left to a job on groups follow from those before its first
deed. -/
theorem records_of_groupMods (hreq : (t, r) ∈ s₀.requestedIn es) (hmods : r.groupMods ≠ [])
    (hfresh : s₀.deedsIn t es = []) (hleft : (s₀.go es).LeftTo r.device t later) :
    (s₀.go (es ++ later)).records r.device = recordAll s₀.pipeline.flows.key
      ((s₀.go es).records r.device) (s₀.deedsIn t (es ++ later)) := by
  rw [deedsIn_append, hfresh, List.nil_append]
  exact records_go hnew hreq (fun c => Request.exists_operate_of_groupMods _ c hmods) hleft

/-- What changes of groups leave recorded that are done one by one. -/
theorem OneByOne.records (h : s₀.OneByOne d mods outcomes es es') :
    (s₀.go es').records d = recordAll s₀.pipeline.flows.key ((s₀.go es).records d)
      ((confirmedMods s₀.pipeline.policy.rule mods outcomes).map GroupMod.deed) := by
  induction h with
  | none es => rfl
  | @next mod o mods outcomes es before later es' t r p hbefore hreq hd halone hmod hfresh hleft
      hdone hsent hp _ ih =>
      subst hd
      rw [← hbefore]
      generalize es ++ before = run at hreq hfresh hleft hdone hsent hp ih ⊢
      have hmods : r.groupMods ≠ [] := by simp [hmod]
      obtain ⟨result, hresult⟩ := Option.isSome_iff_exists.mp hdone
      obtain ⟨c, program, hwork, hcomes⟩ :=
        comes_of_groupMods hnew (requestedIn_subset hreq later) hmods hresult
      obtain ⟨q, o', hdeeds, -⟩ := Request.exists_of_alone hmod halone hwork hcomes
      -- The one message that was sent is the one with this result.
      have hawait : (⟨.await q, o'⟩ : Deed) ∈ s₀.deedsIn t (run ++ later) := by
        rw [hdeeds]
        simp
      have hq : p = q := by
        rw [hdeeds] at hsent
        rcases List.mem_cons.mp hsent with hsame | hin
        · cases hsame
          rfl
        · rcases List.mem_cons.mp hin with hother | hin
          · cases hother
          · obtain ⟨mod', -, hrecord⟩ := List.mem_map.mp hin
            have hisRecord := mod'.isRecord_deed
            rw [hrecord] at hisRecord
            cases hisRecord
      subst hq
      cases hp.symm.trans (result?_of_await hnew hawait)
      have hrecords := records_of_groupMods hnew hreq hmods hfresh hleft
      have hboth : (confirmedMods s₀.pipeline.policy.rule (mod :: mods) (o :: outcomes)).map
            GroupMod.deed =
          (confirmedMods s₀.pipeline.policy.rule [mod] [o]).map GroupMod.deed ++
            (confirmedMods s₀.pipeline.policy.rule mods outcomes).map GroupMod.deed := by
        rw [confirmedMods_cons, List.map_append]
      rw [ih, hrecords, hdeeds, hboth, recordAll_append]
      rfl

/-- What came of the messages of a request for a batch of changes of groups that has a result,
if none of them was withdrawn: what the request has recorded, and its result. -/
theorem exists_batch (hreq : (t, r) ∈ s₀.requestedIn es) (hmods : r.groupMods ≠ [])
    (hbatch : r.isGroupBatch = true) (hresult : (s₀.go es).jobResult? t = some result)
    (hkept : ∀ m p, (⟨.send m, p⟩ : Deed) ∈ s₀.deedsIn t es → ¬(s₀.go es).Withdrawn p) :
    ∃ ps barrier results closing, s₀.HasBatch es t r ps barrier results closing ∧
      (∃ outcome, result = outcome.map (fun _ => .done) ∧
        GroupsCome s₀.pipeline.policy.rule r.groupMods results closing outcome) ∧
      ∀ key R, recordAll key R (s₀.deedsIn t es) = recordAll key R
        ((confirmedMods s₀.pipeline.policy.rule r.groupMods (results.map Prod.snd)).map
          GroupMod.deed) := by
  obtain ⟨c, program, hwork, hcomes⟩ := comes_of_groupMods hnew hreq hmods hresult
  obtain ⟨ps, barrier, results, closing, hs⟩ :=
    Request.exists_batchStory hmods hbatch hwork hcomes
  obtain ⟨records, hrecords, hdeeds, -⟩ := hs.deeds
  have hgather : (⟨.gather ps barrier, (results, closing)⟩ : Deed) ∈ s₀.deedsIn t es := by
    rw [hdeeds]
    simp
  obtain ⟨hresults, hclosing⟩ := knows_of_gather hnew hgather
  have hlength : results.length = r.groupMods.length := hresults.length_eq.symm.trans hs.members
  have hnone : NoneWithdrawn results closing := by
    intro x hx hcancelled
    obtain ⟨i, hi⟩ := List.mem_iff_getElem?.mp hx
    obtain ⟨p, hp, -, hresult⟩ := exists_getElem?_of_forall₂ (List.rel_append hresults hclosing) hi
    obtain ⟨m, hsend⟩ := hs.exists_send hmods hp
    rw [hcancelled] at hresult
    refine hkept m p ?_ hresult
    rw [hdeeds]
    exact List.mem_append_left _ hsend
  have hnothing : messagesOf records = [] := messagesOf_of_isRecord hrecords
  exact ⟨ps, barrier, results, closing, ⟨⟨_, hdeeds, hnothing⟩, hs.members, hs.closed, hresults,
    hclosing⟩, hs.comes hlength hnone, fun key R => hs.recordAll hlength hnone⟩

/-- What a batch leaves follows from what it has recorded. -/
theorem batchLeaves_of_records (hhas : s₀.HasBatch (es ++ later) t r ps barrier results closing)
    (hend : ∃ outcome, result = outcome.map (fun _ => .done) ∧
      GroupsCome s₀.pipeline.policy.rule r.groupMods results closing outcome)
    (hrecords : (s₀.go (es ++ later)).records r.device = recordAll s₀.pipeline.flows.key
      ((s₀.go es).records r.device) ((confirmedMods s₀.pipeline.policy.rule r.groupMods
        (results.map Prod.snd)).map GroupMod.deed)) :
    s₀.BatchLeaves es later r results closing result := by
  obtain ⟨outcome, rfl, hcome⟩ := hend
  have hlength : results.length = r.groupMods.length :=
    hhas.results.length_eq.symm.trans hhas.members
  have hgroups (g : GroupId) := congrArg (g ∈ ·.1) hrecords
  constructor
  case added =>
    rintro d gs barrierAfter rfl g
    rw [has_group_iff, has_group_iff, ← exists_added_iff, ← mem_recordAll_added fun mod hmod => ?_]
    · exact iff_of_eq (hgroups g)
    · rw [command_of_mem_confirmedMods hmod]
      decide
  case removed =>
    rintro d gs barrierAfter rfl g
    rw [has_group_iff, has_group_iff, ← exists_removed_iff,
      ← mem_recordAll_removed fun mod hmod => command_of_mem_confirmedMods hmod]
    exact iff_of_eq (hgroups g)
  case flows => exact (congrArg Prod.snd hrecords).trans (recordAll_deed_snd _ _)
  case oneByOne =>
    intro es₁ es₂ hone hsame
    have hsingle := congrArg Prod.fst (hone.records hnew)
    refine hsingle.trans (.trans ?_ (congrArg Prod.fst hrecords).symm)
    exact recordAll_deed_fst_congr hsame _
  case succeeded =>
    refine Iff.trans ?_ hcome.eq_ok_iff
    cases outcome <;> simp [Except.map]
  case failed =>
    intro hne
    cases hcome with
    | succeeded _ _ => exact absurd rfl hne
    | @failed failures hsome hmem hpairwise =>
        rw [← hlength]
        exact ⟨failures, rfl, hsome, hmem, hpairwise⟩

/-- A batch that is being done comes to its end when all its messages are sent and their results
are known. -/
theorem exists_result_of_running {l : LaneId} {lane : Lane Job} {c : ConnectionId}
    {rest : Program (Outcome Result)} (hreq : (t, r) ∈ s₀.requestedIn es)
    (hmods : r.groupMods ≠ []) (hbatch : r.isGroupBatch = true)
    (hl : (s₀.go es).pipeline.lanes.get? l = some lane) (hd : lane.device = r.device)
    (hjob : lane.running = some ⟨t, .operate c rest⟩)
    (hsent : messagesOf (s₀.deedsIn t es) = r.messages)
    (hknown : ∀ m p, (⟨.send m, p⟩ : Deed) ∈ s₀.deedsIn t es → ((s₀.go es).result? p).isSome) :
    ∃ n, ((s₀.go (es ++ List.replicate n (.stepJob l))).jobResult? t).isSome := by
  induction rest generalizing es lane with
  | done result =>
      refine ⟨1, ?_⟩
      have hstep : (s₀.go es).stepJob l = (s₀.go es).finishJob l t result := by
        simp [stepJob, hl, hjob, stepProgram]
      show ((s₀.go (es ++ [.stepJob l])).jobResult? t).isSome
      rw [go_concat]
      show (((s₀.go es).stepJob l).jobResult? t).isSome
      rw [hstep]
      simp [jobResult?, finishJob]
  | step q next ih =>
      obtain ⟨c', broke, htells⟩ := exists_tells hnew hreq
      obtain ⟨p, hp⟩ := Request.exists_operate_of_groupMods s₀.pipeline.policy c' hmods
      obtain ⟨-, rest', hrest, hcomes⟩ :=
        (htells p hp).jobs l lane hl _ (Lane.mem_jobs.mpr (.inl hjob)) rfl
      cases hrest
      have hnext := Request.next_of_batch hmods hbatch hp hcomes hsent
      cases hperform : (s₀.go es).perform lane.device c q with
      | answer a s₁ =>
          have hl' : ((s₀.go es).after (.stepJob l)).pipeline.lanes.get? l = _ :=
            (stepJob_answer hl hjob hperform).2
          have hdeed : (s₀.go es).deedOf? t (.stepJob l) = some ⟨q, a⟩ := by
            simp [deedOf?, Event.lane?, hl, hjob, hperform]
          have hdeeds : s₀.deedsIn t (es ++ [.stepJob l]) = s₀.deedsIn t es ++ [⟨q, a⟩] := by
            rw [deedsIn_concat, hdeed]
            rfl
          -- No message is sent any more.
          have hquiet (m : Message) : q ≠ .send m := by
            rintro rfl
            rcases hnext with ⟨_, _, hgather, -⟩ | hrecord
            · cases hgather
            · cases hrecord
          have hnone : Deed.message? ⟨q, a⟩ = none := by
            cases q with
            | send m => exact absurd rfl (hquiet m)
            | _ => rfl
          have hsent' : messagesOf (s₀.deedsIn t (es ++ [.stepJob l])) = r.messages := by
            rw [hdeeds, messagesOf_append, hsent]
            simp [messagesOf, hnone]
          have hknown' (m : Message) (promise : Promise)
              (hin : (⟨.send m, promise⟩ : Deed) ∈ s₀.deedsIn t (es ++ [.stepJob l])) :
              ((s₀.go (es ++ [.stepJob l])).result? promise).isSome := by
            rw [hdeeds] at hin
            rcases List.mem_append.mp hin with hin | hin
            · obtain ⟨o, ho⟩ := Option.isSome_iff_exists.mp (hknown m promise hin)
              rw [result?_go hnew ho [.stepJob l]]
              rfl
            · cases List.mem_singleton.mp hin
              exact absurd rfl (hquiet m)
          rw [← go_concat] at hl'
          obtain ⟨n, hn⟩ := ih a (requestedIn_subset hreq _) hl' hd rfl hsent' hknown'
          rw [List.append_assoc] at hn
          exact ⟨n + 1, hn⟩
      | wait =>
          have hrun : (s₀.go es).canRun (.step q next) = true := by
            rcases hnext with ⟨ps, barrier, rfl, hpromises⟩ | hrecord
            · have hgathering : (s₀.go es).canRun (gathering ps barrier) = true :=
                canRun_gathering_iff.mpr fun promise hpromise => by
                  obtain ⟨m, hm⟩ := hpromises promise hpromise
                  exact hknown m promise hm
              rw [gathering_eq] at hgathering
              exact hgathering
            · cases q <;> first | rfl | cases hrecord
          exact absurd hperform (perform_ne_wait hrun)
      | breakOff =>
          rcases hnext with ⟨ps, barrier, rfl, -⟩ | hrecord
          · simp only [perform] at hperform
            split at hperform <;> cases hperform
          · cases q <;> cases hrecord <;> cases hperform

/-- What a request for a batch of additions or removals of groups leaves recorded, and its result,
in any run in which the records of its device are left to its job and no message of it is
withdrawn.  It has a result in the end when all its messages have theirs. -/
theorem group_batches_leave_records (hreq : (t, r) ∈ s₀.requestedIn es)
    (hbatch : r.isGroupBatch = true) (hmods : r.groupMods ≠ []) (hfresh : s₀.deedsIn t es = [])
    (hleft : (s₀.go es).LeftTo r.device t later)
    (hkept : ∀ m p, (⟨.send m, p⟩ : Deed) ∈ s₀.deedsIn t (es ++ later) →
      ¬(s₀.go (es ++ later)).Withdrawn p) :
    (∀ result, (s₀.go (es ++ later)).jobResult? t = some result →
      ∃ ps barrier results closing,
        s₀.HasBatch (es ++ later) t r ps barrier results closing ∧
          s₀.BatchLeaves es later r results closing result) ∧
      ((s₀.go (es ++ later)).Runs r.device t →
        messagesOf (s₀.deedsIn t (es ++ later)) = r.messages →
        (∀ m p, (⟨.send m, p⟩ : Deed) ∈ s₀.deedsIn t (es ++ later) →
          ((s₀.go (es ++ later)).result? p).isSome) →
        ∃ l n, ((s₀.go (es ++ later ++ List.replicate n (.stepJob l))).jobResult? t).isSome) := by
  constructor
  · intro result hresult
    obtain ⟨ps, barrier, results, closing, hhas, hend, hdeeds⟩ :=
      exists_batch hnew (requestedIn_subset hreq later) hmods hbatch hresult hkept
    have hrecords := records_of_groupMods hnew hreq hmods hfresh hleft
    rw [hdeeds] at hrecords
    exact ⟨ps, barrier, results, closing, hhas, batchLeaves_of_records hnew hhas hend hrecords⟩
  · rintro ⟨l, lane, ⟨_, work⟩, hl, hd, hjob, rfl⟩ hsent hknown
    have hreq' := requestedIn_subset hreq later
    obtain ⟨c, broke, htells⟩ := exists_tells hnew hreq'
    obtain ⟨p, hp⟩ := Request.exists_operate_of_groupMods s₀.pipeline.policy c hmods
    obtain ⟨-, rest, hwork, -⟩ := (htells p hp).jobs l lane hl _ (Lane.mem_jobs.mpr (.inl hjob)) rfl
    cases hwork
    exact ⟨l, exists_result_of_running hnew hreq' hmods hbatch hl hd hjob hsent hknown⟩

end Runs

/-! ## A batch of which one member is there already and the other is refused -/

namespace Mixed

def device : DeviceId := ⟨"openflow:1"⟩

/-- Frames that are as long as the transaction id says.  What the device answers is said by their
first octet. -/
def codec : Codec := .numbered fun f =>
  if f.head? = some 1 then .error ⟨5, 1, ""⟩
  else if f.head? = some 2 then .error ⟨6, 0, ""⟩
  else .barrierReply

def groups : List Group := [{ id := ⟨5⟩ }, { id := ⟨6⟩ }]

def answers : List (Outcome Message) :=
  [.error (.deviceRejected ⟨6, 0, ""⟩), .error (.deviceRejected ⟨5, 1, ""⟩)]

def request : Request := .addGroups device groups true

def begun : List Event :=
  [.openConnection device codec 64, .attach 0, .submit request false, .startJob 0]

/-- The barrier is answered first, and the first group last. -/
def work : List Event :=
  [.stepJob 0, .stepJob 0, .stepJob 0, .receive 0 [0, 0, 0], .receive 0 [1, 0], .receive 0 [2],
    .stepJob 0, .stepJob 0]

/-- The groups are to be added one by one, and the first job has begun. -/
def singles : List Event :=
  [.openConnection device codec 64, .attach 0] ++
    groups.map (fun g => .submit (.addGroup device g) false) ++ [.startJob 0]

/-- A job sends its message and records what it has to when it is answered. -/
def first : List Event := [.stepJob 0, .receive 0 [2], .stepJob 0, .stepJob 0]

def second : List Event := [.stepJob 0, .receive 0 [1, 0], .stepJob 0]

theorem oneByOne : start.OneByOne device (groups.map (⟨.add, ·⟩)) answers singles
    (singles ++ [] ++ (first ++ [.stepJob 0]) ++ [.startJob 0] ++ (second ++ [.stepJob 0])) := by
  have hleft {es later : List Event} {t : Ticket} (hstays : start.StaysAttached device (es ++ later))
      (hruns : ((start.go es).pipeline.lanes.get? 0).any (fun lane =>
        lane.device = device && lane.running.any (·.ticket = t)) = true)
      (hunsettled : (start.go (es ++ later)).jobResult? t = none) :
      (start.go es).LeftTo device t (later ++ [.stepJob 0]) :=
    leftTo_of_runs new_start hstays (runs_of_any hruns) hunsettled _
  have hsent {es : List Event} {t : Ticket} {m : Message} {p : Promise}
      (h : (start.deedsIn t es).head? = some ⟨.send m, p⟩) :
      (⟨.send m, p⟩ : Deed) ∈ start.deedsIn t es := List.mem_of_head? h
  refine @OneByOne.next start device _ _ _ _ singles [] (first ++ [.stepJob 0]) _ 0
    (.addGroup device { id := ⟨5⟩ }) ⟨0, .awaited ⟨1⟩ 0⟩ rfl (by decide) rfl rfl rfl (by decide)
    (hleft (by decide) (by decide) (by decide)) (by decide) (hsent rfl) rfl ?_
  refine @OneByOne.next start device _ _ _ _ _ [.startJob 0] (second ++ [.stepJob 0]) _ 1
    (.addGroup device { id := ⟨6⟩ }) ⟨0, .awaited ⟨2⟩ 1⟩ ?_ (by decide) rfl rfl rfl (by decide)
    (hleft (by decide) (by decide) (by decide)) (by decide) (hsent rfl) rfl (.none _)
  rw [go_concat]
  rfl

end Mixed

theorem group_batches_leave_records_of_mixed :
    (0, Mixed.request) ∈ start.requestedIn Mixed.begun ∧
      start.deedsIn 0 Mixed.begun = [] ∧
      (start.go Mixed.begun).LeftTo Mixed.device 0 (Mixed.work ++ [.stepJob 0]) ∧
      ∃ es results closing failures,
        (start.go (Mixed.begun ++ (Mixed.work ++ [.stepJob 0]))).jobResult? 0 =
          some (.error (.batch 3 failures)) ∧
        results.map Prod.snd = Mixed.answers ∧
        (∀ f, f ∈ failures ↔ Remains start.pipeline.policy.rule Mixed.request.groupMods
          results closing f) ∧
        (start.go (Mixed.begun ++ (Mixed.work ++ [.stepJob 0]))).pipeline.groups.groups
          Mixed.device = [⟨5⟩] ∧
        start.OneByOne Mixed.device Mixed.request.groupMods Mixed.answers Mixed.singles es ∧
        (start.go es).pipeline.groups.groups Mixed.device = [⟨5⟩] := by
  have hreq : (0, Mixed.request) ∈ start.requestedIn Mixed.begun := by decide
  have hfresh : start.deedsIn 0 Mixed.begun = [] := by decide
  have hleft : (start.go Mixed.begun).LeftTo Mixed.device 0 (Mixed.work ++ [.stepJob 0]) :=
    leftTo_of_runs new_start (by decide) (runs_of_any (l := 0) (by decide)) (by decide) _
  have hgroups : (start.go (Mixed.begun ++ (Mixed.work ++ [.stepJob 0]))).pipeline.groups.groups
      Mixed.device = [⟨5⟩] := by decide
  have hdone : ((start.go (Mixed.begun ++ (Mixed.work ++ [.stepJob 0]))).jobResult? 0).isSome =
      true := by decide
  have hdeeds : start.deedsIn 0 (Mixed.begun ++ (Mixed.work ++ [.stepJob 0])) =
      Operation.sends Mixed.request.messages
        [⟨0, .awaited ⟨1⟩ 0⟩, ⟨0, .awaited ⟨2⟩ 1⟩, ⟨0, .awaited ⟨3⟩ 2⟩] ++
      [⟨.gather [⟨0, .awaited ⟨1⟩ 0⟩, ⟨0, .awaited ⟨2⟩ 1⟩] (some ⟨0, .awaited ⟨3⟩ 2⟩),
        ([(⟨1⟩, .error (.deviceRejected ⟨6, 0, ""⟩)), (⟨2⟩, .error (.deviceRejected ⟨5, 1, ""⟩))],
          some (⟨3⟩, .ok .barrierReply))⟩, ⟨.recordGroup ⟨5⟩, ()⟩] := rfl
  have hkept (m : Message) (p : Promise) (hin : (⟨.send m, p⟩ : Deed) ∈
      start.deedsIn 0 (Mixed.begun ++ (Mixed.work ++ [.stepJob 0]))) :
      ¬(start.go (Mixed.begun ++ (Mixed.work ++ [.stepJob 0]))).Withdrawn p := by
    rw [hdeeds] at hin
    rcases hin with _ | ⟨_, _ | ⟨_, _ | ⟨_, _ | ⟨_, _ | ⟨_, hnone⟩⟩⟩⟩⟩
    · decide
    · decide
    · decide
    · cases hnone
  obtain ⟨result, hresult⟩ := Option.isSome_iff_exists.mp hdone
  obtain ⟨ps, barrier, results, closing, hhas, hleaves⟩ := (group_batches_leave_records
    new_start hreq rfl (by decide) hfresh hleft hkept).1 result hresult
  obtain ⟨⟨rest, hsent, -⟩, hmembers, hclosed, hresults, hclosing⟩ := hhas
  obtain ⟨a, b, rfl⟩ := List.length_eq_two.mp hmembers
  obtain ⟨q, rfl⟩ := Option.isSome_iff_exists.mp hclosed
  -- The promises of the batch are those of its three messages.
  have hfirst := hdeeds.symm.trans hsent
  obtain ⟨ha, hfirst⟩ := List.cons.inj hfirst
  obtain ⟨hb, hfirst⟩ := List.cons.inj hfirst
  cases ha
  cases hb
  obtain ⟨x, others, ⟨-, hx⟩, hothers, rfl⟩ := List.forall₂_cons_left_iff.mp hresults
  obtain ⟨y, none, ⟨-, hy⟩, hnone, rfl⟩ := List.forall₂_cons_left_iff.mp hothers
  obtain rfl := List.forall₂_nil_left_iff.mp hnone
  have hanswers : [x, y].map Prod.snd = Mixed.answers := by
    have hx' : (start.go (Mixed.begun ++ (Mixed.work ++ [.stepJob 0]))).result?
      ⟨0, .awaited ⟨1⟩ 0⟩ = some (.error (.deviceRejected ⟨6, 0, ""⟩)) := rfl
    have hy' : (start.go (Mixed.begun ++ (Mixed.work ++ [.stepJob 0]))).result?
      ⟨0, .awaited ⟨2⟩ 1⟩ = some (.error (.deviceRejected ⟨5, 1, ""⟩)) := rfl
    rw [List.map_cons, List.map_cons, Option.some.inj (hx.symm.trans hx'),
      Option.some.inj (hy.symm.trans hy')]
    rfl
  have hfailed : result ≠ .ok .done := by
    intro hok
    -- The second group was refused.
    have hrefused := (hleaves.succeeded.mp hok).1 1 ⟨.add, { id := ⟨6⟩ }⟩ y.1 y.2 rfl rfl
    rw [(List.cons.inj (List.cons.inj hanswers).2).1] at hrefused
    revert hrefused
    decide
  obtain ⟨failures, rfl, -, hremains, -⟩ := hleaves.failed hfailed
  have hone := Mixed.oneByOne
  have hsame := hleaves.oneByOne _ _ (hanswers ▸ hone) (by decide)
  have htotal : closing.toList.length = 1 := hclosing.length_eq.symm
  rw [htotal] at hresult
  exact ⟨hreq, hfresh, hleft, _, _, _, failures, hresult, hanswers, hremains, hgroups, hone,
    hsame.trans hgroups⟩

end Southbound.System
