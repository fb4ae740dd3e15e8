import Southbound.Proofs.System.Event

/-!
# When a lane is released

A device that is detached is taken out of the table, the job that clears its state is
queued, and its lane is released.  `System.detach?` does all this at once, while another
thread can come in before the lane is released.  Unless it attaches the device again, it
does not notice: jobs are queued only for devices that are attached, and nothing else
depends on whether a lane takes jobs.  So a lane that is released later leads to the same
state (`System.released_later`).
-/

namespace Southbound

/-! ## Lanes -/

/-- A lane that takes no more jobs of a device. -/
def Lane.closeTo {ι : Type} (d : DeviceId) (l : Lane ι) : Lane ι :=
  { l with released := l.released || l.device = d }

namespace Lanes

variable {ι : Type} (ls : Lanes ι) {d d' : DeviceId}

theorem removeDevice_eq (d : DeviceId) : (ls.removeDevice d).2 = ⟨ls.all.map (Lane.closeTo d)⟩ := by
  refine congrArg Lanes.mk (List.map_congr_left fun l _ => ?_)
  obtain ⟨device, generation, running, waiting, released⟩ := l
  by_cases hd : device = d <;> cases released <;> simp [Lane.takes, Lane.closeTo, hd]

theorem takes_closeTo (hne : d' ≠ d) (l : Lane ι) : (l.closeTo d).takes d' = l.takes d' := by
  by_cases hd : l.device = d
  · have hother : l.device ≠ d' := fun h => hne (h.symm.trans hd)
    simp [Lane.takes, Lane.closeTo, hother]
  · simp [Lane.takes, Lane.closeTo, hd]

theorem get?_removeDevice_eq (i : LaneId) :
    (ls.removeDevice d).2.get? i = (ls.get? i).map (Lane.closeTo d) := by
  rw [removeDevice_eq]
  exact List.getElem?_map

/-- A change of a lane that has nothing to do with whether it takes jobs. -/
theorem modify_removeDevice {f : Lane ι → Lane ι} (hf : ∀ l, f (l.closeTo d) = (f l).closeTo d)
    (i : LaneId) : (ls.removeDevice d).2.modify i f = ((ls.modify i f).removeDevice d).2 := by
  rw [removeDevice_eq, removeDevice_eq]
  refine congrArg Lanes.mk (List.ext_getElem? fun j => ?_)
  simp only [modify, List.getElem?_map, List.getElem?_modify]
  cases ls.all[j]? with
  | none => rfl
  | some l =>
      by_cases hij : i = j
      · simp [hij, hf]
      · simp [hij]

theorem start_closeTo (l : Lane ι) : (l.closeTo d).start = l.start.closeTo d := by
  obtain ⟨device, generation, running, waiting, released⟩ := l
  cases running <;> cases waiting <;> rfl

/-- A job of another device is queued. -/
theorem enqueue_removeDevice (hne : d' ≠ d) (job : ι) :
    (ls.removeDevice d).2.enqueue d' job = ((ls.enqueue d' job).removeDevice d).2 := by
  have htakes : ∀ l : Lane ι, (l.closeTo d).takes d' = l.takes d' := takes_closeTo hne
  simp only [removeDevice_eq, enqueue, List.any_map, Function.comp_def, htakes]
  split
  · simp only [List.map_map]
    refine congrArg Lanes.mk (List.map_congr_left fun l _ => ?_)
    simp only [Function.comp_apply, htakes]
    split <;> rfl
  · simp only [List.map_append, List.filter_map, List.length_map, List.map_singleton]
    simp only [Lane.closeTo, Bool.false_or, decide_eq_false hne]
    rfl

/-- The lane of another device is released. -/
theorem removeDevice_comm (d' : DeviceId) :
    ((ls.removeDevice d).2.removeDevice d').2 = ((ls.removeDevice d').2.removeDevice d).2 := by
  simp only [removeDevice_eq, List.map_map]
  refine congrArg Lanes.mk (List.map_congr_left fun l _ => ?_)
  exact congrArg (fun released => { l with released }) (Bool.or_right_comm ..)

end Lanes

namespace System

variable {s : System} {d : DeviceId}

/-! ## What does not depend on lanes that take jobs -/

section Aside

variable (s d)

@[simp] theorem attached_releaseLane :
    (s.releaseLane d).pipeline.attached = s.pipeline.attached := rfl

@[simp] theorem connections_releaseLane : (s.releaseLane d).connections = s.connections := rfl

@[simp] theorem shuttingDown_releaseLane :
    (s.releaseLane d).pipeline.shuttingDown = s.pipeline.shuttingDown := rfl

@[simp] theorem channel_releaseLane (d' : DeviceId) :
    (s.releaseLane d).pipeline.channel d' = s.pipeline.channel d' := rfl

@[simp] theorem deviceOf?_releaseLane (c : ConnectionId) :
    (s.releaseLane d).deviceOf? c = s.deviceOf? c := rfl

@[simp] theorem result?_releaseLane (p : Promise) :
    (s.releaseLane d).result? p = s.result? p := rfl

@[simp] theorem results?_releaseLane (ps : List Promise) :
    (s.releaseLane d).results? ps = s.results? ps := rfl

@[simp] theorem canRun_releaseLane {α : Type} (p : Program α) :
    (s.releaseLane d).canRun p = s.canRun p := rfl

@[simp] theorem errand?_releaseLane (n : ErrandId) :
    (s.releaseLane d).errand? n = s.errand? n := rfl

@[simp] theorem jobResult?_releaseLane (t : Ticket) :
    (s.releaseLane d).jobResult? t = s.jobResult? t := rfl

@[simp] theorem isHeld_releaseLane (c : ConnectionId) :
    (s.releaseLane d).isHeld c = s.isHeld c := by
  have hjobs : ((s.pipeline.lanes.removeDevice d).2.all.any fun l => l.jobs.any (·.holds c)) =
      s.pipeline.lanes.all.any fun l => l.jobs.any (·.holds c) := by
    rw [Lanes.removeDevice_eq, List.any_map]
    rfl
  simp only [isHeld, releaseLane, hjobs]

end Aside

/-! ## Programs -/

/-- The same reaction, with its state changed. -/
def Reaction.mapState {α : Type} (f : System → System) : Reaction α → Reaction α
  | .answer value s => .answer value (f s)
  | .wait => .wait
  | .breakOff => .breakOff

theorem send_releaseLane (c : ConnectionId) (x : Option Xid) (m : Message) :
    (s.releaseLane d).send c x m = (s.send c x m).map (Prod.map id (·.releaseLane d)) := by
  simp only [send, releaseLane, Option.map_map]
  rfl

theorem perform_releaseLane (d' : DeviceId) (c : ConnectionId) (e : Effect) :
    (s.releaseLane d).perform d' c e = (s.perform d' c e).mapState (·.releaseLane d) := by
  cases e with
  | send m =>
      simp only [perform, send_releaseLane]
      cases s.send c none m <;> rfl
  | await p =>
      simp only [perform, result?_releaseLane]
      cases s.result? p <;> rfl
  | gather members last =>
      simp only [perform, results?_releaseLane]
      cases s.results? members <;> cases s.results? last.toList <;> rfl
  | readGroup g =>
      have hstore : (s.releaseLane d).store = s.store := rfl
      simp only [perform, hstore]
      cases s.store.readGroup? d' g <;> rfl
  | hasGroup | recordGroup | forgetGroup | noteStale | recordFlow | forgetFlow => rfl

theorem run_releaseLane {α : Type} (d' : DeviceId) (c : ConnectionId) (p : Program α) :
    (s.releaseLane d).run d' c p = Prod.map id (·.releaseLane d) (s.run d' c p) := by
  induction p generalizing s with
  | done value => rfl
  | step e next ih =>
      simp only [run, perform_releaseLane]
      cases s.perform d' c e with
      | answer value s' => exact ih value
      | wait => rfl
      | breakOff => rfl

theorem stepProgram_releaseLane {α : Type} (d' : DeviceId) (c : ConnectionId) (p : Program α) :
    (s.releaseLane d).stepProgram d' c p =
      Prod.map id (·.releaseLane d) (s.stepProgram d' c p) := by
  cases p with
  | done value => rfl
  | step e next =>
      simp only [stepProgram, perform_releaseLane]
      cases s.perform d' c e <;> rfl

theorem beginProgram_releaseLane (c : ConnectionId) (o : Operation Unit) :
    (s.releaseLane d).beginProgram c o = Prod.map id (·.releaseLane d) (s.beginProgram c o) := by
  simp only [beginProgram, run_releaseLane]
  rfl

theorem takePromises?_releaseLane (ns : List ErrandId) :
    (s.releaseLane d).takePromises? ns =
      (s.takePromises? ns).map (Prod.map id (·.releaseLane d)) := by
  induction ns generalizing s with
  | nil => rfl
  | cons n ns ih =>
      simp only [takePromises?, errand?_releaseLane]
      split
      · show ((releaseLane { s with errands := s.errands.filter (·.1 ≠ n) } d).takePromises? ns >>=
          _) = _
        rw [ih]
        cases takePromises? { s with errands := s.errands.filter (·.1 ≠ n) } ns <;> rfl
      · rfl

theorem withdraw_releaseLane (p : Promise) :
    (s.releaseLane d).withdraw p = Prod.map id (·.releaseLane d) (s.withdraw p) := by
  simp only [withdraw, connections_releaseLane]
  cases s.connections[p.connection]? <;> rfl

/-! ## Jobs -/

theorem startJob_releaseLane (l : LaneId) :
    (s.releaseLane d).startJob l = (s.startJob l).releaseLane d := by
  simp only [startJob, releaseLane, Lanes.modify_removeDevice _ Lanes.start_closeTo]

theorem finishJob_releaseLane (l : LaneId) (t : Ticket) (result : Outcome Result) :
    (s.releaseLane d).finishJob l t result = (s.finishJob l t result).releaseLane d := by
  simp only [finishJob, releaseLane, Lanes.modify_removeDevice _ (f := Lane.finish) fun _ => rfl]

theorem suspendJob_releaseLane (l : LaneId) (job : Job) :
    (s.releaseLane d).suspendJob l job = (s.suspendJob l job).releaseLane d := by
  simp only [suspendJob, releaseLane,
    Lanes.modify_removeDevice _ (f := fun lane => { lane with running := some job }) fun _ => rfl]

theorem stepJob_releaseLane (l : LaneId) :
    (s.releaseLane d).stepJob l = (s.stepJob l).releaseLane d := by
  have hget : (s.releaseLane d).pipeline.lanes.get? l =
      (s.pipeline.lanes.get? l).map (Lane.closeTo d) := Lanes.get?_removeDevice_eq ..
  simp only [stepJob, hget]
  cases s.pipeline.lanes.get? l with
  | none => rfl
  | some lane =>
      obtain ⟨device, generation, running, waiting, released⟩ := lane
      rcases running with _ | ⟨t, ⟨c, rest⟩ | f | _⟩
      · rfl
      · simp only [Option.map_some, Lane.closeTo, stepProgram_releaseLane]
        rcases s.stepProgram device c rest with ⟨result | rest | _, s'⟩
        · exact finishJob_releaseLane ..
        · exact suspendJob_releaseLane ..
        · exact finishJob_releaseLane ..
      · exact finishJob_releaseLane
          (s := { s with pipeline.flows := (s.pipeline.flows.observe device f).2 }) ..
      · exact finishJob_releaseLane
          (s := { s with
            pipeline.groups := s.pipeline.groups.clearDevice device
            pipeline.flows := s.pipeline.flows.clearDevice device }) ..

/-! ## Coming and going -/

theorem insert_releaseLane (c : ConnectionId) :
    (s.releaseLane d).insert c = (s.insert c).releaseLane d := by
  simp only [insert, deviceOf?_releaseLane, attached_releaseLane]
  cases s.deviceOf? c with
  | none => rfl
  | some d' =>
      dsimp only
      cases s.pipeline.attached.get? d' <;> rfl

theorem detach?_releaseLane (hd : s.pipeline.attached.get? d = none) (d' : DeviceId) :
    (s.releaseLane d).detach? d' = (s.detach? d').map (Prod.map id (·.releaseLane d)) := by
  simp only [detach?, attached_releaseLane]
  cases hattached : s.pipeline.attached.get? d' with
  | none => rfl
  | some c =>
      have hne : d' ≠ d := by
        rintro rfl
        rw [hd] at hattached
        cases hattached
      simp only [Option.map_some, Prod.map, id, enqueueClear, remove, releaseLane, disconnect,
        modifyConnection, Pipeline.enqueue, Lanes.enqueue_removeDevice _ hne,
        Lanes.removeDevice_comm]

theorem detachNext_releaseLane (hd : s.pipeline.attached.get? d = none) (ds : List DeviceId) :
    (s.releaseLane d).detachNext ds = Prod.map id (·.releaseLane d) (s.detachNext ds) := by
  induction ds with
  | nil => rfl
  | cons d' ds ih =>
      simp only [detachNext, detach?_releaseLane hd]
      cases s.detach? d' with
      | none => exact ih
      | some r => rfl

theorem submit_releaseLane (hd : s.pipeline.attached.get? d = none) (r : Request) (quiet : Bool) :
    (s.releaseLane d).submit r quiet = Prod.map id (·.releaseLane d) (s.submit r quiet) := by
  simp only [submit, Pipeline.submit, channel_releaseLane]
  cases r.check with
  | error e => rfl
  | ok =>
      cases hok : s.pipeline.channel r.device with
      | error e => rfl
      | ok c =>
          -- a job is queued for a device that is attached
          have hne : r.device ≠ d := by
            rintro rfl
            rw [Pipeline.channel, hd] at hok
            split at hok <;> cases hok
          simp only [releaseLane, Pipeline.enqueue, Lanes.enqueue_removeDevice _ hne]
          rfl

theorem advanceErrand?_releaseLane (hd : s.pipeline.attached.get? d = none) (e : Errand) :
    (s.releaseLane d).advanceErrand? e =
      (s.advanceErrand? e).map (Prod.map id (·.releaseLane d)) := by
  cases e with
  | «over» | reply => rfl
  | job t | detach t =>
      simp only [advanceErrand?, jobResult?_releaseLane]
      cases s.jobResult? t <;> rfl
  | attach c =>
      simp only [advanceErrand?, insert_releaseLane]
      rfl
  | shutdown t rest =>
      simp only [advanceErrand?, detachNext_releaseLane hd, jobResult?_releaseLane]
      cases s.jobResult? t <;> rfl
  | program c rest =>
      simp only [advanceErrand?, stepProgram_releaseLane, canRun_releaseLane]
      split <;> rfl

/-! ## Runs -/

/-- A lane may be released before or after an event, if its device is not attached. -/
theorem after_releaseLane (hd : s.pipeline.attached.get? d = none) (e : Event) :
    (s.releaseLane d).after e = (s.after e).releaseLane d := by
  cases e with
  | openConnection d' codec wireCapacity =>
      have hopen : Connection.open? d' codec wireCapacity (s.releaseLane d).pipeline.config
          (s.releaseLane d).now =
            Connection.open? d' codec wireCapacity s.pipeline.config s.now := rfl
      simp only [after, hopen]
      cases Connection.open? d' codec wireCapacity s.pipeline.config s.now <;> rfl
  | send c x m =>
      simp only [after, beginSend?, send_releaseLane]
      cases s.send c x m <;> rfl
  | barrier c => exact congrArg Prod.snd (beginProgram_releaseLane c _)
  | compose c ns barrierAfter =>
      simp only [after, beginBatch?, takePromises?_releaseLane]
      cases s.takePromises? ns with
      | none => rfl
      | some r => exact congrArg Prod.snd (beginProgram_releaseLane ..)
  | cancel n =>
      simp only [after, cancel?, errand?_releaseLane]
      cases s.errand? n with
      | none => rfl
      | some e =>
          cases e with
          | reply p => exact congrArg Prod.snd (withdraw_releaseLane p)
          | «over» | job | attach | detach | shutdown | program => rfl
  | abandon n => rfl
  | takeResults => rfl
  | receive c f => rfl
  | read c => rfl
  | closeWire c => rfl
  | disconnect c => rfl
  | forget c => rfl
  | writer c =>
      simp only [after, writerStep, isHeld_releaseLane]
      rfl
  | sweeper c =>
      simp only [after, sweeperStep, isHeld_releaseLane]
      rfl
  | sweep c => rfl
  | tick ms => rfl
  | putGroup d' g => rfl
  | removeGroup d' g => rfl
  | setFaults failReads failWrites breakReads readFault => rfl
  | submit r quiet => exact congrArg Prod.snd (submit_releaseLane hd r quiet)
  | noteStale flow =>
      simp only [after, noteStale]
      cases (checkTableId flow.path flow.flow).mapError RequestFault.toFailure <;> rfl
  | attach c =>
      simp only [after, beginAttach, attach, shuttingDown_releaseLane, insert_releaseLane]
      cases s.pipeline.shuttingDown <;> rfl
  | lateAttach c => rfl
  | detach d' =>
      simp only [after, beginDetach, detach?_releaseLane hd]
      cases s.detach? d' <;> rfl
  | shutdown =>
      cases hdown : s.pipeline.shuttingDown with
      | true =>
          simp only [after, beginShutdown, shuttingDown_releaseLane, hdown, if_true]
          rfl
      | false =>
          simp only [after, beginShutdown, shuttingDown_releaseLane, hdown, Bool.false_eq_true,
            if_false]
          exact congrArg (fun r => (begin r.2 r.1).2)
            (detachNext_releaseLane (s := { s with pipeline.shuttingDown := true }) hd _)
  | startJob l => exact startJob_releaseLane l
  | stepJob l => exact stepJob_releaseLane l
  | stepErrand n =>
      simp only [after, stepErrand, errand?_releaseLane]
      cases s.errand? n with
      | none => rfl
      | some e =>
          simp only [Option.bind_some, advanceErrand?_releaseLane hd]
          cases s.advanceErrand? e <;> rfl

/-- A lane may be released before or after a run in which its device is not attached. -/
theorem go_releaseLane {es : List Event}
    (hd : ∀ es', es' <+: es → ((s.releaseLane d).go es').pipeline.attached.get? d = none) :
    (s.releaseLane d).go es = (s.go es).releaseLane d := by
  induction es generalizing s with
  | nil => rfl
  | cons e es ih =>
      have hafter : (s.releaseLane d).after e = (s.after e).releaseLane d :=
        after_releaseLane (s := s) (hd [] List.nil_prefix) e
      rw [go_cons, go_cons, hafter]
      refine ih fun es' hes' => ?_
      rw [← hafter]
      exact hd (e :: es') (List.cons_prefix_cons.mpr ⟨rfl, hes'⟩)

/-- The lane of a device that is detached may be released later: whatever happens in
between, unless the device is attached again, the state is the same after it. -/
theorem released_later {c : ConnectionId} (hc : s.pipeline.attached.get? d = some c)
    {es : List Event}
    (hd : ∀ es', es' <+: es →
      ((s.after (.detach d)).go es').pipeline.attached.get? d = none) :
    let (t, s') := (s.remove d c).enqueueClear d
    ((s'.begin (.detach t)).2.go es).releaseLane d = (s.after (.detach d)).go es := by
  have hdetach : s.after (.detach d) = (((s.remove d c).enqueueClear d).2.begin
      (.detach ((s.remove d c).enqueueClear d).1)).2.releaseLane d := by
    simp only [after, beginDetach, detach?, hc, Option.map_some]
    rfl
  rw [hdetach] at hd
  rw [hdetach]
  exact (go_releaseLane hd).symm

end System

end Southbound
