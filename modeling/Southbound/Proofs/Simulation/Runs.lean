import Southbound.Proofs.System.Steps
import Southbound.Simulation.Session

/-!
# Runs of a simulation

What a task does in a step of its turn are events of the system (`Simulation.eventsOf`).  So
a simulation goes through a run of its system (`Simulation.Runs`), and the order of tasks
makes it one of few: while a task has its turn, nothing happens but what it does.  What
comes from outside comes between turns.

So it is with a session, whose commands are carried out when nothing goes on any more
(`Simulation.Runs.turn`).
-/

namespace Southbound

/-- What is done to a connection depends only on what that connection is. -/
theorem System.modifyConnection_congr {s : System} {c : ConnectionId} {conn : Connection}
    {f g : Connection → Connection} (hc : s.connections[c]? = some conn) (h : f conn = g conn) :
    s.modifyConnection c f = s.modifyConnection c g := by
  have hmodify : s.connections.modify c f = s.connections.modify c g := by
    refine List.ext_getElem? fun k => ?_
    rw [List.getElem?_modify, List.getElem?_modify]
    split
    · next hk =>
        subst hk
        rw [hc, Option.map_eq_map, Option.map_eq_map, Option.map_some, Option.map_some, h]
    · rfl
  rw [modifyConnection, modifyConnection, hmodify]

namespace Simulation

open Southbound.System (Event)

variable {s s' : Simulation} {s₀ : System} {es es' : List Event}

/-! ## Steps of tasks -/

/-- What the device of a connection answers to the frame that it reads next, if there is one. -/
def reaction? (s : Simulation) (c : ConnectionId) : Option (Option Frame) := do
  let connection ← s.system.connections[c]?
  let device ← s.devices[c]?
  let (frame, _) ← connection.wire.take?
  return (device.react frame).1

/-- The events of one step of a task. -/
def eventsOf (s : Simulation) : Task → List Event
  | .sweeper c => [.sweeper c]
  | .sweep c => [.sweep c]
  | .writer c => [.writer c]
  | .device c =>
    match s.reaction? c with
    | some answer => .read c :: answer.toList.map (.receive c)
    | none => []
  | .job l => [.stepJob l]
  | .errand n => [.stepErrand n]
  | .lane l => [.startJob l]

theorem system_go (s : Simulation) (t : Task) :
    (s.go t).system = s.system.go (s.eventsOf t) := by
  cases t with
  | device c =>
      cases hconn : s.system.connections[c]? with
      | none => simp [go, readFrame?, eventsOf, reaction?, hconn]
      | some conn =>
          cases hdevice : s.devices[c]? with
          | none => simp [go, readFrame?, eventsOf, reaction?, hconn, hdevice]
          | some device =>
              cases htake : conn.wire.take? with
              | none => simp [go, readFrame?, eventsOf, reaction?, hconn, hdevice, htake]
              | some taken =>
                  obtain ⟨frame, wire⟩ := taken
                  have hread : s.system.after (.read c) = s.system.modifyConnection c
                      fun connection => { connection with wire } :=
                    System.modifyConnection_congr hconn (by simp [Connection.after, htake])
                  cases hanswer : (device.react frame).1 with
                  | none =>
                      simp [go, readFrame?, eventsOf, reaction?, hconn, hdevice, htake, hanswer,
                        hread, modifyDevice]
                  | some answer =>
                      have hreceive (s : System) : s.after (.receive c answer) = s.receive c answer :=
                        rfl
                      simp [go, readFrame?, eventsOf, reaction?, hconn, hdevice, htake, hanswer,
                        hread, hreceive, modifyDevice]
  | _ => rfl

/-! ## Steps of turns -/

theorem system_goOnProgram (s : Simulation) (t : Task) (allowance : Nat) :
    (s.goOnProgram t allowance).2.system = (s.go t).system := by
  unfold goOnProgram
  dsimp only
  split <;> rfl

theorem system_gather (s : Simulation) (t : Task) (members : List Promise) (last : Option Promise)
    (allowance : Nat) : (s.gather t members last allowance).2.system = s.system ∨
      (s.gather t members last allowance).2.system = (s.go t).system := by
  have hgo : ((s.endGathering t).go t).system = (s.go t).system := by
    rw [system_go, system_go]
    rfl
  have hends (isOver : Bool) (left : Nat) (turnEnd : TurnEnd) (g : Gathering) :
      let r := if isOver then (s.endGathering t).goOnProgram t left
        else (TurnStep.over turnEnd, s.setGathering t g)
      r.2.system = s.system ∨ r.2.system = (s.go t).system := by
    cases isOver with
    | true => exact .inr ((system_goOnProgram ..).trans hgo)
    | false => exact .inl rfl
  unfold gather
  cases last with
  | none => exact hends ..
  | some p => exact hends ..

theorem system_workWriter (s : Simulation) (c : ConnectionId) (allowance : Nat) :
    (s.workWriter c allowance).2.system = s.system ∨
      (s.workWriter c allowance).2.system = (s.go (.writer c)).system := by
  unfold workWriter
  dsimp only
  split
  · exact .inl rfl
  split
  · exact .inl rfl
  split
  · split <;> exact .inr rfl
  · exact .inl rfl

theorem system_workDevice (s : Simulation) (c : ConnectionId) (allowance : Nat) :
    (s.workDevice c allowance).2.system = s.system ∨
      (s.workDevice c allowance).2.system = (s.go (.device c)).system := by
  unfold workDevice
  split
  · exact .inl rfl
  split
  · exact .inl rfl
  split
  · exact .inr rfl
  · exact .inl rfl

/-- In a step of its turn a task goes on once, or nothing is changed in the system. -/
theorem system_work (s : Simulation) (turn : Turn) :
    (s.work turn).2.system = s.system ∨ (s.work turn).2.system = (s.go turn.task).system := by
  unfold work
  split
  · next rest t _ heq =>
      unfold workProgram
      split
      · exact .inr (system_goOnProgram ..)
      · exact system_gather ..
      · split
        · exact .inl rfl
        split
        · exact .inr (system_goOnProgram ..)
        · exact .inl rfl
  · next c _ htask =>
      rw [htask]
      exact system_workWriter ..
  · next c _ htask =>
      rw [htask]
      exact system_workDevice ..
  · next l _ htask =>
      rw [htask]
      split
      · exact .inr rfl
      · exact .inl rfl
  · exact .inr rfl

/-! ## Runs -/

/-- The events of a step: those of the task that has its turn, or none. -/
inductive Does (s : Simulation) : List Event → Prop where
  | nothing : s.Does []
  | turn {turn : Turn} : s.current = some turn → s.Does (s.eventsOf turn.task)

theorem exists_does (h : s.step? = some s') : ∃ es, s.Does es ∧ s'.system = s.system.go es := by
  unfold step? at h
  split at h
  · next turn hturn =>
      have hwork := system_work s turn
      have hsame : s'.system = (s.work turn).2.system := by
        split at h
        · next heq =>
            cases h
            rw [heq]
        · next e s₁ heq =>
            cases h
            rw [heq, endTurn]
            dsimp only
            split <;> rfl
      rcases hwork with hwork | hwork
      · exact ⟨[], .nothing, hsame.trans hwork⟩
      · exact ⟨_, .turn hturn, hsame.trans (hwork.trans (system_go ..))⟩
  · refine ⟨[], .nothing, ?_⟩
    split at h
    · cases h
      rfl
    · unfold beginTurn? at h
      split at h <;> cases h
      rfl

/-- Steps of a simulation from when nothing has happened, with the events that its system goes
through.  Between turns something may come from outside, but jobs go on in turns only. -/
inductive Runs (s₀ : System) : List Event → Simulation → Prop where
  | start {s : Simulation} : s.system = s₀ → s.current = none → Runs s₀ [] s
  | step {es es' : List Event} {s s' : Simulation} :
      Runs s₀ es s → s.step? = some s' → s.Does es' → s'.system = s.system.go es' →
      Runs s₀ (es ++ es') s'
  | outside {es es' : List Event} {s s' : Simulation} :
      Runs s₀ es s → s.current = none → (∀ e ∈ es', e.lane? = none) →
      s'.system = s.system.go es' → s'.current = none → Runs s₀ (es ++ es') s'

/-- A run of a simulation is a run of its system. -/
theorem Runs.system_eq (h : Runs s₀ es s) : s.system = s₀.go es := by
  induction h with
  | start hs _ => exact hs
  | step _ _ _ hs ih => rw [System.go_append, hs, ih]
  | outside _ _ _ hs _ ih => rw [System.go_append, hs, ih]

theorem Runs.steps (h : Runs s₀ es s) (n : Nat) : ∃ es', Runs s₀ (es ++ es') (steps n s) := by
  induction n generalizing es s with
  | zero => exact ⟨[], by rwa [List.append_nil]⟩
  | succ n ih =>
      unfold Simulation.steps
      split
      · next s' hstep =>
          obtain ⟨es₁, hdoes, hs⟩ := exists_does hstep
          obtain ⟨es₂, hruns⟩ := ih (h.step hstep hdoes hs)
          exact ⟨es₁ ++ es₂, by rwa [← List.append_assoc]⟩
      · exact ⟨[], by rwa [List.append_nil]⟩

/-- To go on until nothing can is a run. -/
theorem Runs.settle (h : Runs s₀ es s) (hcurrent : s.current = none) :
    ∃ es', Runs s₀ (es ++ es') s.settle := by
  have hnotice : Runs s₀ (es ++ []) { s.notice [] with turns := 0 } :=
    h.outside hcurrent (List.forall_mem_nil _) rfl hcurrent
  rw [List.append_nil] at hnotice
  exact hnotice.steps patience

/-- No task has its turn when nothing can go on. -/
theorem current_eq_none (h : s.step? = none) : s.current = none := by
  unfold step? at h
  split at h
  · next turn hturn => split at h <;> cases h
  · next hnone => exact hnone

end Simulation

/-! ## Sessions -/

/-- Whether a command is carried out at once, without anything going on by itself. -/
def Command.isImmediate : Command → Bool
  | .drain _ _ => false
  | .advance _ => false
  | _ => true

namespace Session

open Southbound.System (Event)

variable {s s' s'' : Session}

/-- Something has come from outside: no job has gone on, and no turn has begun or ended. -/
def Outside (s s' : Session) : Prop :=
  ∃ es : List Event, (∀ e ∈ es, e.lane? = none) ∧ s'.system = s.system.go es ∧
    s'.current = s.current

theorem Outside.of_same (hs : s'.system = s.system) (hcurrent : s'.current = s.current) :
    Outside s s' :=
  ⟨[], List.forall_mem_nil _, hs, hcurrent⟩

theorem Outside.of_after (e : Event) (he : e.lane? = none) (hs : s'.system = s.system.after e)
    (hcurrent : s'.current = s.current) : Outside s s' :=
  ⟨[e], List.forall_mem_singleton.mpr he, hs, hcurrent⟩

theorem Outside.trans (h : Outside s s') (h' : Outside s' s'') : Outside s s'' := by
  obtain ⟨es, hquiet, hs, hcurrent⟩ := h
  obtain ⟨es', hquiet', hs', hcurrent'⟩ := h'
  refine ⟨es ++ es', List.forall_mem_append.mpr ⟨hquiet, hquiet'⟩, ?_, hcurrent'.trans hcurrent⟩
  rw [System.go_append, ← hs, hs']

theorem outside_withConnection {c : Option ConnectionId} {f : ConnectionId → Answer × Session}
    (hf : ∀ c, Outside s (f c).2) : Outside s (s.withConnection c f).2 := by
  cases c with
  | none => exact .of_same rfl rfl
  | some c => exact hf c

theorem outside_openConnection (s : Session) (device : ScriptedDevice) (d : DeviceId)
    (wireCapacity : Nat) (codec : Codec) :
    Outside s (s.openConnection device d wireCapacity codec).2 := by
  rw [openConnection]
  cases hopen : Connection.open? d codec wireCapacity s.system.pipeline.config s.system.now with
  | none => exact .of_same rfl rfl
  | some connection =>
      exact .of_after (.openConnection d codec wireCapacity) rfl (by rw [System.after, hopen]) rfl

/-- What a command does at once comes from outside. -/
theorem outside_perform (s : Session) {c : Command} (hc : c.isImmediate = true) :
    Outside s (s.perform c).2 := by
  cases c with
  | drain name count => cases hc
  | advance ms => cases hc
  | openConnection name d rules wireCapacity manual unwritable =>
      exact outside_openConnection ..
  | attach name => exact outside_withConnection fun c => .of_after (.attach c) rfl rfl rfl
  | detach d => exact .of_after (.detach d) rfl rfl rfl
  | shutdown => exact .of_after .shutdown rfl rfl rfl
  | disconnect name => exact outside_withConnection fun c => .of_after (.disconnect c) rfl rfl rfl
  | forget name => exact outside_withConnection fun c => .of_after (.forget c) rfl rfl rfl
  | inbound name f => exact outside_withConnection fun c => .of_after (.receive c f) rfl rfl rfl
  | setRules name rules => exact outside_withConnection fun c => .of_same rfl rfl
  | closeWire name => exact outside_withConnection fun c => .of_after (.closeWire c) rfl rfl rfl
  | putGroup d g => exact .of_after (.putGroup d g) rfl rfl rfl
  | removeGroup d g => exact .of_after (.removeGroup d g) rfl rfl rfl
  | readGroup d g =>
      cases h : s.system.store.readGroup? d g with
      | none => exact .of_same (by simp [perform, h]) (by simp [perform, h])
      | some result => exact .of_same (by simp [perform, h]) (by simp [perform, h])
  | failReads on => exact .of_after (.setFaults ..) rfl rfl rfl
  | failWrites on => exact .of_after (.setFaults ..) rfl rfl rfl
  | readFault fault => exact .of_after (.setFaults ..) rfl rfl rfl
  | breakReads on => exact .of_after (.setFaults ..) rfl rfl rfl
  | staleFlows => exact .of_same rfl rfl
  | submit r => exact .of_after (.submit r false) rfl rfl rfl
  | change e => exact .of_after (.submit e.request true) rfl rfl rfl
  | noteStale flow => exact .of_after (.noteStale flow) rfl rfl rfl
  | retrieve d f => exact .of_same rfl rfl
  | hasGroup d g => exact .of_same rfl rfl
  | send name m x =>
      refine outside_withConnection fun c => ?_
      cases h : s.system.beginSend? c x m with
      | none => exact .of_same rfl rfl
      | some sent =>
          exact .of_after (.send c x m) rfl (by rw [System.after, h]; rfl) rfl
  | barrier name => exact outside_withConnection fun c => .of_after (.barrier c) rfl rfl rfl
  | compose name members barrierAfter =>
      refine outside_withConnection fun c => ?_
      cases h : s.system.beginBatch? c members barrierAfter with
      | none => exact .of_same rfl rfl
      | some made =>
          exact .of_after (.compose c members barrierAfter) rfl (by rw [System.after, h]; rfl) rfl
  | cancel n =>
      cases h : s.system.cancel? n with
      | none => exact .of_same (by simp [perform, h]) (by simp [perform, h])
      | some withdrawn =>
          exact .of_after (.cancel n) rfl (by simp [perform, System.after, h])
            (by simp [perform, h])
  | abandon n => exact .of_after (.abandon n) rfl rfl rfl

/-- What is begun gets into the queue, and that is all. -/
theorem outside_startErrand (s : Session) (n : ErrandId) : Outside s (s.startErrand n) := by
  unfold startErrand
  dsimp only
  split
  · exact .of_same rfl rfl
  · exact .of_same rfl rfl
  · exact .of_same rfl rfl
  · split <;> exact .of_same rfl rfl

theorem outside_follow (before s : Session) : Outside s (before.follow s) := by
  have hfold (ns : List ErrandId) (s : Session) : Outside s (ns.foldl startErrand s) := by
    induction ns generalizing s with
    | nil => exact .of_same rfl rfl
    | cons n ns ih => exact (outside_startErrand s n).trans (ih _)
  exact Outside.trans (.of_same rfl rfl) (hfold _ _)

theorem outside_performAll (s : Session) {cs : List Command}
    (hcs : ∀ c ∈ cs, c.isImmediate = true) : Outside s (s.performAll cs).2 := by
  induction cs generalizing s with
  | nil => exact .of_same rfl rfl
  | cons c cs ih =>
      obtain ⟨hc, hcs⟩ := List.forall_mem_cons.mp hcs
      exact ((outside_perform s hc).trans (outside_follow _ _)).trans (ih _ hcs)

end Session

namespace Simulation

open Southbound.System (Event)

variable {s s' : Simulation} {s₀ : System} {es : List Event}

theorem Runs.of_outside (h : Runs s₀ es s) (hcurrent : s.current = none)
    (hout : Session.Outside s s') : ∃ es', Runs s₀ (es ++ es') s' ∧ s'.current = none := by
  obtain ⟨es', hquiet, hs, hsame⟩ := hout
  exact ⟨es', h.outside hcurrent hquiet hs (hsame.trans hcurrent), hsame.trans hcurrent⟩

/-- A turn of a session, after which nothing can go on, is a run. -/
theorem Runs.turn (h : Runs s₀ es s) (hcurrent : s.current = none) {cs : List Command}
    (hcs : ∀ c ∈ cs, c.isImmediate = true)
    (hrest : (Session.performAll s cs).2.settle.step? = none) :
    ∃ es', Runs s₀ (es ++ es') (Session.turn s cs).2 ∧ (Session.turn s cs).2.current = none := by
  obtain ⟨es₁, hdone, hidle⟩ := h.of_outside hcurrent (Session.outside_performAll s hcs)
  obtain ⟨es₂, hsettled⟩ := hdone.settle hidle
  have hreport : Session.Outside (Session.performAll s cs).2.settle (Session.turn s cs).2 :=
    .of_after .takeResults rfl rfl rfl
  obtain ⟨es₃, hturn⟩ := hsettled.of_outside (current_eq_none hrest) hreport
  exact ⟨es₁ ++ es₂ ++ es₃, by simpa only [List.append_assoc] using hturn⟩

end Simulation

end Southbound
