import Southbound.Proofs.Simulation.Runs
import Southbound.Proofs.System.WireChanges

/-!
# Changes that are handed over at once

On one thread nothing comes between the changes of flows that a job hands over: as long as it
has handed over some of them and not all, it is the job that goes on (`System.SendsAtOnce`).
For to send a message needs nothing of the allowance of a turn, so a simulation goes on with a
job that sends (`Simulation.step?_of_send`), and so it is in all runs of the simulation
(`Simulation.Runs.sendsAtOnce`).

So a job that comes to two changes hands the second over in the next event after the first,
on the same connection (`System.exists_two_sends`).
-/

namespace Southbound

namespace Simulation

/-- A task that has the turn and sends a message goes on, and it has the turn still, unless that
was the last that it does. -/
theorem step?_of_send {s : Simulation} {l : LaneId} {allowance : Nat} {m : Message}
    {next : Promise → Program (Outcome Result)} (hturn : s.current = some ⟨.job l, allowance⟩)
    (hprogram : s.program? (.job l) = some (.step (.send m) next)) :
    ∃ s', s.step? = some s' ∧ s'.system = s.system.stepJob l ∧
      ((s.go (.job l)).program? (.job l) ≠ none → s'.current = s.current) := by
  have hwork : s.work ⟨.job l, allowance⟩ = s.goOnProgram (.job l) allowance := by
    simp [work, hprogram, workProgram, Program.next?, Effect.cost, System.canRun]
  rw [step?, hturn]
  dsimp only
  rw [hwork, goOnProgram]
  cases hrest : (s.go (.job l)).program? (.job l) with
  | some rest => exact ⟨_, rfl, rfl, fun _ => rfl⟩
  | none => exact ⟨_, rfl, rfl, fun hsome => absurd rfl hsome⟩

end Simulation

namespace System

/-- A run in which a job that has handed over some changes of flows, and not all, is the next
to go on. -/
def SendsAtOnce (s : System) (t : Ticket) (mods : List FlowMod) (es : List Event) : Prop :=
  ∀ es' e, es' ++ [e] <+: es → s.changesSent t es' ≠ [] → s.changesSent t es' ≠ mods →
    (s.go es').sourceOf? e = some t

/-- A job that has handed over some changes of flows, and not all. -/
def AmidChanges (s : System) (t : Ticket) (mods : List FlowMod) (es : List Event) : Prop :=
  s.changesSent t es ≠ [] ∧ s.changesSent t es ≠ mods

theorem sourceOf?_of_deedOf? {s : System} {t : Ticket} {e : Event} {deed : Deed}
    (h : s.deedOf? t e = some deed) : s.sourceOf? e = some t := by
  obtain ⟨l, lane, c, next, s', rfl, hl, hjob, -⟩ := deedOf?_eq_some h
  simp [sourceOf?, Event.lane?, hl, hjob]

/-- A job that comes amid its changes in an event sends in it. -/
theorem AmidChanges.exists_deedOf? {s : System} {t : Ticket} {mods : List FlowMod}
    {es : List Event} {e : Event} (h : s.AmidChanges t mods (es ++ [e]))
    (hnot : ¬s.AmidChanges t mods es) : ∃ m p, (s.go es).deedOf? t e = some ⟨.send m, p⟩ := by
  rw [AmidChanges, changesSent, deedsIn_concat, changesOf_append] at h
  by_cases hnone : changesOf ((s.go es).deedOf? t e).toList = []
  · rw [hnone, List.append_nil] at h
    exact absurd h hnot
  · obtain ⟨mod, hmod⟩ := List.exists_mem_of_ne_nil _ hnone
    obtain ⟨p, hdeed⟩ := mem_changesOf.mp hmod
    exact ⟨_, p, Option.mem_toList.mp hdeed⟩

/-- What is so after each event of a run can be looked up. -/
theorem forall_prefix_concat_iff {P : List Event → Event → Prop} {es : List Event} :
    (∀ es' e, es' ++ [e] <+: es → P es' e) ↔ ∀ n : Fin es.length, P (es.take n) es[n] := by
  constructor
  · intro h n
    refine h _ _ ?_
    rw [Fin.getElem_fin, List.take_append_getElem]
    exact List.take_prefix _ _
  · intro h es' e hes
    obtain ⟨later, rfl⟩ := hes
    simpa using h ⟨es'.length, by simp⟩

/-- What is so in each state of a run can be looked up. -/
theorem forall_prefix_iff {P : List Event → Prop} {es : List Event} :
    (∀ es', es' <+: es → P es') ↔ ∀ n : Fin (es.length + 1), P (es.take n) := by
  constructor
  · exact fun h n => h _ (List.take_prefix _ _)
  · intro h es' hes
    rw [List.prefix_iff_eq_take.mp hes]
    exact h ⟨es'.length, Nat.lt_succ_of_le hes.length_le⟩

instance (s : System) (t : Ticket) (mods : List FlowMod) (es : List Event) :
    Decidable (s.SendsAtOnce t mods es) := decidable_of_iff' _ forall_prefix_concat_iff

variable {s : System} {c : ConnectionId} {t : Ticket} {e : Event} {es : List Event} {p : Promise}
  {m : Message} {r : Request}

theorem SendsAtOnce.concat {mods : List FlowMod} (h : s.SendsAtOnce t mods es)
    (he : s.AmidChanges t mods es → (s.go es).sourceOf? e = some t) :
    s.SendsAtOnce t mods (es ++ [e]) := by
  intro es' e' hes' hsome hpart
  rcases List.prefix_concat_iff.mp hes' with heq | hbefore
  · obtain ⟨rfl, hlast⟩ := List.append_inj' heq rfl
    obtain rfl := List.singleton_inj.mp hlast
    exact he ⟨hsome, hpart⟩
  · exact h es' e' hbefore hsome hpart

/-- While no job goes on, none is amid its changes that was not before. -/
theorem SendsAtOnce.append_quiet {mods : List FlowMod} (h : s.SendsAtOnce t mods es)
    (hamid : ¬s.AmidChanges t mods es) {es' : List Event} (hes' : ∀ e ∈ es', e.lane? = none) :
    s.SendsAtOnce t mods (es ++ es') ∧ ¬s.AmidChanges t mods (es ++ es') := by
  induction es' using List.reverseRecOn with
  | nil => exact ⟨by rwa [List.append_nil], by rwa [List.append_nil]⟩
  | append_singleton es' e ih =>
      obtain ⟨hes', he⟩ := List.forall_mem_append.mp hes'
      obtain ⟨hsends, hnone⟩ := ih hes'
      rw [← List.append_assoc]
      refine ⟨hsends.concat fun hnow => absurd hnow hnone, ?_⟩
      rwa [AmidChanges, changesSent, deedsIn_concat, deedOf?_of_lane? (he e (.head _)),
        Option.toList_none, List.append_nil]

/-- A job sends a message on its connection under a new transaction id. -/
theorem allocated_of_deedOf? (h : s.deedOf? t e = some ⟨.send m, p⟩) :
    ∃ conn, s.connections[p.connection]? = some conn ∧
      p.reply = (conn.allocate.2.send s.now conn.allocate.1 m).1 ∧
      (s.after e).connections[p.connection]? =
        some (conn.allocate.2.send s.now conn.allocate.1 m).2 ∧
      (s.after e).now = s.now := by
  obtain ⟨l, lane, c, next, s', rfl, hl, hjob, hperform⟩ := deedOf?_eq_some h
  have hnow := (perform_effects hperform).now
  have hafter : s.stepJob l = s'.suspendJob l ⟨t, .operate c (next p)⟩ := by
    simp only [stepJob, hl, hjob, stepProgram, hperform]
  cases performed_of_answer hperform with
  | sent hsend =>
      obtain ⟨conn, hc, heq⟩ := Option.map_eq_some_iff.mp hsend
      cases heq
      refine ⟨conn, hc, rfl, ?_, ?_⟩
      · show (s.stepJob l).connections[c]? = _
        rw [hafter]
        show (s.connections.modify c _)[c]? = _
        rw [List.getElem?_modify_eq, hc]
        rfl
      · show (s.stepJob l).now = s.now
        rw [hafter]
        exact hnow

/-- A job sends on the connection of its program. -/
theorem Tells.connection_of_deedOf? {d : DeviceId} {program : Program (Outcome Result)}
    {deeds : List Deed} {broke : Prop} (h : s.Tells d t c program deeds broke)
    (hdeed : s.deedOf? t e = some ⟨.send m, p⟩) : p.connection = c := by
  obtain ⟨l, lane, c', next, s', -, hl, hjob, hperform⟩ := deedOf?_eq_some hdeed
  obtain ⟨-, _, hwork, -⟩ := h.jobs l lane hl _ (Lane.mem_jobs.mpr (.inl hjob)) rfl
  cases hwork
  cases performed_of_answer hperform with
  | sent hsend => exact (promised_send hsend).1

/-- A job whose program sends a message next hands it over when it goes on. -/
theorem exists_deedOf?_of_send {l : LaneId} {lane : Lane Job} {conn : Connection}
    {next : Promise → Program (Outcome Result)} (hl : s.pipeline.lanes.get? l = some lane)
    (hjob : lane.running = some ⟨t, .operate c (.step (.send m) next)⟩)
    (hc : s.connections[c]? = some conn) :
    ∃ p, s.deedOf? t (.stepJob l) = some ⟨.send m, p⟩ ∧ p.connection = c := by
  obtain ⟨p, s', hsend⟩ : ∃ p s', s.send c none m = some (p, s') := by
    rw [send, hc]
    exact ⟨_, _, rfl⟩
  refine ⟨p, ?_, (promised_send hsend).1⟩
  simp [deedOf?, Event.lane?, hl, hjob, perform, hsend]

section Runs

variable {config : Config} {s₀ : System} (hnew : System.new config = .ok s₀)
include hnew

/-- A job for a request on a flow does its program on one connection, from when the request was
accepted. -/
theorem exists_program_on (hreq : (t, r) ∈ s₀.requestedIn es) (hflow : r.isFlow = true) :
    ∃ c p, r.work s₀.pipeline.policy c = .operate c p ∧ ∀ es', ∃ broke,
      (s₀.go (es ++ es')).Tells r.device t c p (s₀.deedsIn t (es ++ es')) broke := by
  obtain ⟨before, quiet, later, rfl, ht⟩ := exists_submit hreq
  obtain ⟨c, hc, -⟩ := tells_go hnew ht later
  obtain ⟨p, hp⟩ := Request.exists_program s₀.pipeline.policy c hflow
  refine ⟨c, p, hp, fun es' => ?_⟩
  obtain ⟨c', hc', htells⟩ := tells_go hnew ht (later ++ es')
  cases hc.symm.trans hc'
  rw [List.append_assoc, List.cons_append]
  exact ⟨_, htells p hp⟩

/-- A job that has handed over some of its changes, and not all, sends next. -/
theorem exists_send_of_amid (hreq : (t, r) ∈ s₀.requestedIn es) (hflow : r.isFlow = true)
    (hamid : s₀.AmidChanges t r.flowMods es) {l : LaneId} {lane : Lane Job} {work : Work}
    (hl : (s₀.go es).pipeline.lanes.get? l = some lane) (hjob : lane.running = some ⟨t, work⟩) :
    ∃ c m next, work = .operate c (.step (.send m) next) := by
  obtain ⟨c, p, hp, htells⟩ := exists_program_on hnew hreq hflow
  obtain ⟨_, htold⟩ := htells []
  rw [List.append_nil] at htold
  obtain ⟨-, rest, rfl, hcomes⟩ := htold.jobs l lane hl _ (Lane.mem_jobs.mpr (.inl hjob)) rfl
  obtain ⟨more, o, hdone⟩ := hcomes.exists_end
  obtain ⟨n, -, hs⟩ := (Request.work_comes_iff hflow hp).mp hdone
  obtain ⟨m, p', later, rfl⟩ := hs.exists_send hamid.1 (r.flowMods_eq_changes ▸ hamid.2)
  cases hcomes.rest hdone with
  | step _ => exact ⟨c, m, _, rfl⟩

/-- A request on a flow that hands over two changes hands the second over in the next event
after the first, on the same connection, and no other message of the job is the second. -/
theorem exists_two_sends (hreq : (t, r) ∈ s₀.requestedIn es) (hflow : r.isFlow = true)
    {first second : FlowMod} (hmods : r.flowMods = [first, second]) (hne : first ≠ second)
    (hsent : s₀.changesSent t es = [first, second])
    (hburst : s₀.SendsAtOnce t r.flowMods es) :
    ∃ es₁ e₁ e₂ es₂ p₁ p₂, es = es₁ ++ e₁ :: e₂ :: es₂ ∧
      (s₀.go es₁).deedOf? t e₁ = some ⟨.send (.flowMod first), p₁⟩ ∧
      (s₀.go (es₁ ++ [e₁])).deedOf? t e₂ = some ⟨.send (.flowMod second), p₂⟩ ∧
      p₂.connection = p₁.connection ∧
      ∀ p, (⟨.send (.flowMod second), p⟩ : Deed) ∈ s₀.deedsIn t es → p = p₂ := by
  obtain ⟨n, more, o, -, hs, -⟩ := exists_story hnew hreq hflow
  have hchanges : r.changes = [first, second] := r.flowMods_eq_changes ▸ hmods
  obtain ⟨before, p₁, p₂, after, hdeeds, hbefore, hafter⟩ := hs.exists_pair hchanges hsent
  obtain ⟨es₁, e₁, later, rfl, hes₁, hfirst⟩ := exists_of_deedsIn hdeeds
  have hone : s₀.deedsIn t (es₁ ++ [e₁]) = before ++ [⟨.send (.flowMod first), p₁⟩] := by
    rw [deedsIn_concat, hes₁, hfirst]
    rfl
  cases later with
  | nil =>
      rw [hone] at hdeeds
      cases List.append_cancel_left hdeeds
  | cons e₂ es₂ =>
      have hsent₁ : s₀.changesSent t (es₁ ++ [e₁]) = [first] := by
        rw [changesSent, hone, changesOf_append, hbefore]
        rfl
      have hsource := hburst (es₁ ++ [e₁]) e₂ ⟨es₂, by simp⟩ (by simp [hsent₁])
        (by simp [hsent₁, hmods])
      obtain ⟨c, program, -, htells⟩ :=
        exists_program_on hnew (requested_of_deedOf? hnew hreq hfirst) hflow
      obtain ⟨_, htells₁⟩ := htells []
      obtain ⟨_, htells₂⟩ := htells [e₁]
      obtain ⟨_, htells₃⟩ := htells (e₁ :: e₂ :: es₂)
      rw [List.append_nil] at htells₁
      have hp₁ : p₁.connection = c := htells₁.connection_of_deedOf? hfirst
      obtain ⟨_, -, -, hconn, -⟩ := allocated_of_deedOf? hfirst
      rw [← go_concat, hp₁] at hconn
      -- What is left of its program when the job goes on sends the second.
      obtain ⟨l, lane, ⟨t', work⟩, rfl, hl, hjob, rfl⟩ := sourceOf?_eq_some hsource
      obtain ⟨-, rest, hwork, hcomes⟩ :=
        htells₂.jobs l lane hl _ (Lane.mem_jobs.mpr (.inl hjob)) rfl
      obtain ⟨rest', hcomes'⟩ := htells₃.comes
      rw [hone] at hcomes
      rw [hdeeds, List.append_cons] at hcomes'
      have hnext := hcomes.rest hcomes'
      cases hwork
      cases hnext with
      | @step _ next _ _ _ _ =>
          obtain ⟨p, hsecond, hp⟩ := exists_deedOf?_of_send hl hjob hconn
          -- So the second deed of the pair is what the job does in this event.
          have hrun := deedsIn_append s₀ t' (es₁ ++ [e₁]) (.stepJob l :: es₂)
          rw [List.append_assoc, List.singleton_append, hdeeds, hone, deedsIn, hsecond,
            List.append_assoc, List.singleton_append, Option.toList_some] at hrun
          obtain ⟨-, hrun⟩ := List.cons.inj (List.append_cancel_left hrun)
          obtain ⟨hsame, -⟩ := List.cons.inj hrun
          cases hsame
          exact ⟨es₁, e₁, .stepJob l, es₂, p₁, p₂, rfl, hfirst, hsecond, hp.trans hp₁.symm,
            fun p' hin => promise_eq_of_mem_pair hne hbefore hafter (hdeeds ▸ hin)⟩

end Runs

end System

/-! ## Runs of a simulation -/

namespace Simulation

open Southbound.System

/-- The job of a lane has the turn, and it sends a message next. -/
def Sending (s : Simulation) (t : Ticket) : Prop :=
  ∃ l allowance lane c m next, s.current = some ⟨.job l, allowance⟩ ∧
    s.system.pipeline.lanes.get? l = some lane ∧
    lane.running = some ⟨t, .operate c (.step (.send m) next)⟩

/-- Only the step of a job is one in which a job goes on. -/
theorem eventsOf_cases (s : Simulation) (task : Task) :
    (∃ l, task = .job l) ∨ ∀ e ∈ s.eventsOf task, e.lane? = none := by
  cases task with
  | job l => exact .inl ⟨l, rfl⟩
  | device c =>
      refine .inr fun e he => ?_
      rw [eventsOf] at he
      split at he
      · next answer _ =>
          rcases List.mem_cons.mp he with rfl | he
          · rfl
          · obtain ⟨f, -, rfl⟩ := List.mem_map.mp he
            rfl
      · cases he
  | _ => exact .inr fun e he => List.mem_singleton.mp he ▸ rfl

theorem program?_of_running {s : Simulation} {l : LaneId} {lane : Lane Job} {t : Ticket}
    {c : ConnectionId} {rest : Program (Outcome Result)}
    (hl : s.system.pipeline.lanes.get? l = some lane)
    (hjob : lane.running = some ⟨t, .operate c rest⟩) : s.program? (.job l) = some rest := by
  simp [program?, hl, hjob]

/-- A job that sends next does so as long as nothing is changed in the system. -/
theorem Sending.still {s s' : Simulation} {t : Ticket} (h : s.Sending t)
    (hstep : s.step? = some s') (hsame : s'.system = s.system) : s'.Sending t := by
  obtain ⟨l, allowance, lane, c, m, next, hturn, hl, hjob⟩ := h
  have hprogram := program?_of_running hl hjob
  obtain ⟨s'', hstep', hsys, hcurrent⟩ := step?_of_send hturn hprogram
  cases hstep.symm.trans hstep'
  have hgo : (s.go (.job l)).program? (.job l) = s.program? (.job l) :=
    congrArg (fun system => ({ s with system } : Simulation).program? (.job l))
      (hsys.symm.trans hsame)
  refine ⟨l, allowance, lane, c, m, next, (hcurrent ?_).trans hturn, hsame ▸ hl, hjob⟩
  rw [hgo, hprogram]
  exact nofun

section Runs

variable {config : Config} {s₀ : System} (hnew : System.new config = .ok s₀)
  {s s' : Simulation} {es later : List Event} {t : Ticket} {r : Request} {l : LaneId}
include hnew

/-- A job that has its turn and sends a change has its turn still, unless it was the last
change. -/
theorem Runs.sending_after (h : Runs s₀ es s) (hstep : s.step? = some s') {allowance : Nat}
    (hturn : s.current = some ⟨.job l, allowance⟩)
    (hsys : s'.system = s.system.go [.stepJob l]) {m : Message} {p : Promise}
    (hdeed : (s₀.go es).deedOf? t (.stepJob l) = some ⟨.send m, p⟩)
    (hreq : (t, r) ∈ s₀.requestedIn (es ++ [.stepJob l])) (hflow : r.isFlow = true)
    (hamid : s₀.AmidChanges t r.flowMods (es ++ [.stepJob l])) : s'.Sending t := by
  obtain ⟨l', lane, c, next, s₁, heq, hl, hjob, hperform⟩ := deedOf?_eq_some hdeed
  cases heq
  obtain ⟨-, hl'⟩ := stepJob_answer hl hjob hperform
  obtain ⟨c', m', next', hwork⟩ := exists_send_of_amid hnew hreq hflow hamid
    (by rw [go_concat]; exact hl') rfl
  rw [← h.system_eq] at hl hl'
  obtain ⟨s'', hstep', -, hcurrent⟩ := step?_of_send hturn (program?_of_running hl hjob)
  cases hstep.symm.trans hstep'
  have hprogram : (s.go (.job l)).program? (.job l) = some (next p) :=
    program?_of_running (s := s.go (.job l)) hl' rfl
  rw [hprogram] at hcurrent
  refine ⟨l, allowance, { lane with running := some ⟨t, .operate c (next p)⟩ }, c', m', next',
    (hcurrent nofun).trans hturn, ?_, by rw [hwork]⟩
  rw [hsys]
  exact hl'

/-- A job that sends next does so in the next step. -/
theorem Runs.exists_deedOf? (h : Runs s₀ es s) (hsending : s.Sending t) {allowance : Nat}
    (hturn : s.current = some ⟨.job l, allowance⟩) :
    ∃ m p, (s₀.go es).deedOf? t (.stepJob l) = some ⟨.send m, p⟩ := by
  obtain ⟨l', _, lane, c, m, next, hturn', hl, hjob⟩ := hsending
  cases hturn.symm.trans hturn'
  rw [h.system_eq] at hl
  have hd := ((served_new hnew).go es).wired.jobs l lane hl _ (Lane.mem_jobs.mpr (.inl hjob)) c _ rfl
  obtain ⟨conn, hc, -⟩ := Option.map_eq_some_iff.mp hd
  obtain ⟨p, hdeed, -⟩ := exists_deedOf?_of_send hl hjob hc
  exact ⟨m, p, hdeed⟩

/-- In a simulation, a job that is amid its changes has the turn, and sends next. -/
theorem Runs.sends (h : Runs s₀ es s) (hreq : (t, r) ∈ s₀.requestedIn (es ++ later))
    (hflow : r.isFlow = true) : s₀.SendsAtOnce t r.flowMods es ∧
      (s₀.AmidChanges t r.flowMods es → s.Sending t) := by
  induction h generalizing later with
  | start hs hcurrent =>
      refine ⟨fun es' e hes' => ?_, fun hamid => absurd rfl hamid.1⟩
      simp at hes'
  | @outside es es' s s' hruns hcurrent hquiet hsys hcurrent' ih =>
      rw [List.append_assoc] at hreq
      obtain ⟨hsends, hamid⟩ := ih hreq
      have hnot : ¬s₀.AmidChanges t r.flowMods es := fun hnow => by
        obtain ⟨l, allowance, lane, c, m, next, hturn, -⟩ := hamid hnow
        cases hcurrent.symm.trans hturn
      exact (hsends.append_quiet hnot hquiet).imp_right fun hnone hnow => absurd hnow hnone
  | @step es es' s s' hruns hstep hdoes hsys ih =>
      rw [List.append_assoc] at hreq
      obtain ⟨hsends, hamid⟩ := ih hreq
      cases hdoes with
      | nothing =>
          rw [List.append_nil]
          exact ⟨hsends, fun hnow => (hamid hnow).still hstep hsys⟩
      | @turn turn hturn =>
          rcases s.eventsOf_cases turn.task with ⟨l, htask⟩ | hquiet
          · obtain ⟨task, allowance⟩ := turn
            cases htask
            have hdeed (hnow : s₀.AmidChanges t r.flowMods es) :=
              hruns.exists_deedOf? hnew (hamid hnow) hturn
            refine ⟨hsends.concat fun hnow => ?_, fun hnow => ?_⟩
            · obtain ⟨m, p, hdeed⟩ := hdeed hnow
              exact sourceOf?_of_deedOf? hdeed
            · obtain ⟨m, p, hdeed⟩ := (em _).elim hdeed hnow.exists_deedOf?
              have hreq' := requested_of_deedOf? hnew hreq hdeed
              refine hruns.sending_after hnew hstep hturn hsys hdeed ?_ hflow hnow
              rw [requestedIn_append]
              exact List.mem_append_left _ hreq'
          · -- Another task has the turn, so that the job is not amid its changes.
            have hnot : ¬s₀.AmidChanges t r.flowMods es := fun hnow => by
              obtain ⟨l, allowance, lane, c, m, next, hturn', -⟩ := hamid hnow
              cases hturn.symm.trans hturn'
              cases hquiet (.stepJob l) (.head _)
            exact (hsends.append_quiet hnot hquiet).imp_right fun hnone hnow => absurd hnow hnone

/-- Whatever a simulation goes through, a job for a request on a flow hands its changes over at
once. -/
theorem Runs.sendsAtOnce (h : Runs s₀ es s) (hreq : (t, r) ∈ s₀.requestedIn es)
    (hflow : r.isFlow = true) : s₀.SendsAtOnce t r.flowMods es := by
  rw [← List.append_nil es] at hreq
  exact (h.sends hnew hreq hflow).1

end Runs

end Simulation

end Southbound
