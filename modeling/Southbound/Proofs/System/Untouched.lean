import Southbound.Proofs.System.DeviceSteps
import Southbound.Proofs.System.Lifecycle
import Southbound.Proofs.System.Unbroken
import Southbound.Proofs.System.WireOrder

/-!
# Devices do not disturb each other

The connections of all devices stand in one list, and what is known of devices in
tables that are shared.  Still every event belongs to one device at most
(`System.owner?`), and it leaves the others as they are (`System.Untouched`): over which
connection they are attached, their connections with all that is in them, the groups and
flows that are recorded of them, and their jobs (`System.devices_apart`).

Some events name a connection and some a device.  That they mean the same device is what
`System.Wired` says: a device is attached over a connection to it, and its jobs work on
such connections.
-/

namespace Southbound.System

/-! ## The device of an event -/

/-- The first of some devices that is attached. -/
def firstAttached? (s : System) (ds : List DeviceId) : Option DeviceId :=
  ds.find? fun d => (s.pipeline.attached.get? d).isSome

/-- The device that an errand works on when it goes on. -/
def Errand.owner? (s : System) : Errand → Option DeviceId
  | .attach c => s.deviceOf? c
  | .program c _ => s.deviceOf? c
  | .shutdown t rest => if (s.jobResult? t).isSome then s.firstAttached? rest else none
  | _ => none

/-- The device that an event belongs to, if it belongs to any: the store and the clock are
nobody's.  A shutdown belongs to the first device that is attached, since it detaches the
others later, one by one. -/
def owner? (s : System) : Event → Option DeviceId
  | .openConnection d _ _ => some d
  | .send c _ _ => s.deviceOf? c
  | .barrier c => s.deviceOf? c
  | .compose c _ _ => s.deviceOf? c
  | .cancel n =>
    match s.errand? n with
    | some (.reply p) => s.deviceOf? p.connection
    | _ => none
  | .receive c _ => s.deviceOf? c
  | .read c => s.deviceOf? c
  | .closeWire c => s.deviceOf? c
  | .disconnect c => s.deviceOf? c
  | .forget c => s.deviceOf? c
  | .writer c => s.deviceOf? c
  | .sweeper c => s.deviceOf? c
  | .sweep c => s.deviceOf? c
  | .submit r _ => some r.device
  | .attach c => s.deviceOf? c
  | .lateAttach _ => none
  | .detach d => some d
  | .shutdown => if s.pipeline.shuttingDown then none else s.firstAttached? s.pipeline.devices
  | .startJob l => s.laneDevice? l
  | .stepJob l => s.laneDevice? l
  | .stepErrand n => (s.errand? n).bind (Errand.owner? s)
  | .abandon _ => none
  | .takeResults => none
  | .tick _ => none
  | .putGroup _ _ => none
  | .removeGroup _ _ => none
  | .setFaults .. => none
  | .noteStale _ => none

/-- A device is as it was. -/
structure Untouched (s s' : System) (d : DeviceId) : Prop where
  attached : s'.pipeline.attached.get? d = s.pipeline.attached.get? d
  /-- A connection to the device is there as it was, and none was opened. -/
  connections : ∀ (c : ConnectionId) (conn : Connection), conn.device = d →
    (s'.connections[c]? = some conn ↔ s.connections[c]? = some conn)
  /-- The same groups and flows are recorded of it, and as many ids were given out. -/
  records : s'.records d = s.records d
  lanes : s'.pipeline.lanes.ofDevice d = s.pipeline.lanes.ofDevice d

variable {s s' s'' : System} {c : ConnectionId} {d d' : DeviceId} {e : Event} {t : Ticket}

theorem Untouched.refl (s : System) (d : DeviceId) : s.Untouched s d :=
  ⟨rfl, fun _ _ _ => Iff.rfl, rfl, rfl⟩

theorem Untouched.trans (h : s.Untouched s' d) (h' : s'.Untouched s'' d) : s.Untouched s'' d where
  attached := h'.attached.trans h.attached
  connections c conn hd := (h'.connections c conn hd).trans (h.connections c conn hd)
  records := h'.records.trans h.records
  lanes := h'.lanes.trans h.lanes

/-! ## Connections -/

/-- The connections to a device are as they were if only one to another has changed. -/
theorem connections_elsewhere (hround : Connected Connection.Round s s')
    (helse : ∀ c', c' ≠ c → s'.connections[c']? = s.connections[c']?)
    (hc : s.deviceOf? c ≠ some d) (c' : ConnectionId) (conn : Connection) (hd : conn.device = d) :
    s'.connections[c']? = some conn ↔ s.connections[c']? = some conn := by
  by_cases hne : c' = c
  · subst hne
    constructor
    · intro hconn
      obtain ⟨conn₀, hconn₀, hr⟩ := hround.exists_of_some' hconn
      rw [deviceOf?, hconn₀, Option.map_some, ← hr.same.device, hd] at hc
      exact absurd rfl hc
    · intro hconn
      rw [deviceOf?, hconn, Option.map_some, hd] at hc
      exact absurd rfl hc
  · rw [helse c' hne]

/-- An event that does something to one connection only. -/
theorem untouched_on (hp : s'.pipeline = s.pipeline) (hround : Connected Connection.Round s s')
    (helse : ∀ c', c' ≠ c → s'.connections[c']? = s.connections[c']?)
    (hc : s.deviceOf? c ≠ some d) : s.Untouched s' d where
  attached := by rw [hp]
  connections := connections_elsewhere hround helse hc
  records := records_of_pipeline hp
  lanes := by rw [hp]

/-- An event that does something neither to the pipeline nor to connections. -/
theorem untouched_of_eq (hp : s'.pipeline = s.pipeline) (hc : s'.connections = s.connections) :
    s.Untouched s' d where
  attached := by rw [hp]
  connections c conn _ := by rw [hc]
  records := records_of_pipeline hp
  lanes := by rw [hp]

theorem untouched_modify {f : Connection → Connection}
    (hf : ∀ conn : Connection, conn.Round (f conn)) (hc : s.deviceOf? c ≠ some d) :
    s.Untouched (s.modifyConnection c f) d :=
  untouched_on rfl (connected_modify .refl s c fun conn _ => hf conn)
    (fun _ hne => List.getElem?_modify_ne _ _ (Ne.symm hne)) hc

theorem untouched_open {codec : Codec} {wireCapacity : Nat} {conn : Connection}
    (hopen : Connection.open? d' codec wireCapacity s.pipeline.config s.now = some conn)
    (hne : d' ≠ d) :
    s.Untouched { s with connections := s.connections ++ [conn] } d := by
  have hdevice : conn.device = d' := by
    rw [Connection.open?] at hopen
    split at hopen
    · cases hopen
      rfl
    · cases hopen
  refine ⟨rfl, fun c conn' hd => ?_, rfl, rfl⟩
  show (s.connections ++ [conn])[c]? = some conn' ↔ _
  rcases Nat.lt_trichotomy c s.connections.length with hlt | rfl | hgt
  · rw [List.getElem?_append_left hlt]
  · have hother : conn ≠ conn' := by
      rintro rfl
      exact hne (hdevice.symm.trans hd)
    simp [hother]
  · rw [List.getElem?_eq_none (by simp; omega), List.getElem?_eq_none (by omega)]

/-! ## Programs -/

theorem stepProgram_elsewhere {α : Type} {p : Program α} {c' : ConnectionId} (hne : c' ≠ c) :
    (s.stepProgram d c p).2.connections[c']? = s.connections[c']? := by
  cases p with
  | done value => rfl
  | step q next =>
      simp only [stepProgram]
      cases hperform : s.perform d c q with
      | answer a s' => exact perform_elsewhere hperform hne
      | wait => rfl
      | breakOff => rfl

/-- A program on one connection leaves the others alone, however far it goes. -/
theorem run_elsewhere {α : Type} {p : Program α} {c' : ConnectionId} (hne : c' ≠ c) :
    (s.run d c p).2.connections[c']? = s.connections[c']? := by
  induction p generalizing s with
  | done value => rfl
  | step q next ih =>
      simp only [run]
      cases hperform : s.perform d c q with
      | answer a s' => exact (ih a).trans (perform_elsewhere hperform hne)
      | wait => rfl
      | breakOff => rfl

/-- A program that sends and waits is begun. -/
theorem untouched_beginProgram (hplain : s.Plain) {o : Operation Unit}
    (ho : Operation.Follows transport () o fun _ _ => True) (hc : s.deviceOf? c ≠ some d) :
    s.Untouched (s.beginProgram c o).2 d := by
  obtain ⟨hp, -, -, hsent, -⟩ := beginProgram_transported c ho hplain
  exact untouched_on hp (hsent.mono fun _ _ => .sent _) (fun _ => run_elsewhere) hc

/-! ## Coming and going -/

/-- A device that is detached had a connection to it, which is ended. -/
theorem untouched_detach? (hwired : s.Wired) {b : Bool} {s₁ : System}
    (h : detach? { s with pipeline.shuttingDown := b } d' = some (t, s₁)) (hne : d' ≠ d) :
    s.Untouched s₁ d := by
  obtain ⟨c, hattached, -, rfl⟩ := detach?_eq h
  have hc : s.deviceOf? c ≠ some d := by
    rw [hwired.attached d' c hattached]
    exact fun he => hne (Option.some.inj he)
  refine ⟨Table.get?_erase_of_ne hne.symm _, ?_, rfl, ?_⟩
  · exact (untouched_modify (f := Connection.disconnect) (fun _ => .once .disconnect) hc).connections
  · exact (Lanes.ofDevice_removeDevice_of_ne hne).trans (Lanes.ofDevice_enqueue_of_ne hne _)

theorem firstAttached?_append {pre rest : List DeviceId}
    (hpre : ∀ d' ∈ pre, s.pipeline.attached.get? d' = none)
    (hd : (s.pipeline.attached.get? d).isSome) :
    s.firstAttached? (pre ++ d :: rest) = some d := by
  rw [firstAttached?, List.find?_append, List.find?_eq_none.mpr fun d' hd' => ?_]
  · simp [hd]
  · simp [hpre d' hd']

/-- Of some devices, the first that is attached is detached. -/
theorem untouched_detachNext (hwired : s.Wired) {b : Bool} {ds : List DeviceId}
    (hds : s.firstAttached? ds ≠ some d) :
    s.Untouched (detachNext { s with pipeline.shuttingDown := b } ds).2 d := by
  rcases detachNext_split { s with pipeline.shuttingDown := b } ds with
    ⟨he, -⟩ | ⟨pre, d', rest, t, s₁, rfl, hpre, hd', he⟩
  · rw [he]
    exact ⟨rfl, fun _ _ _ => Iff.rfl, rfl, rfl⟩
  · rw [he]
    refine untouched_detach? hwired hd' ?_
    rintro rfl
    obtain ⟨c, hc, -⟩ := detach?_eq hd'
    exact hds (firstAttached?_append hpre (by rw [hc]; rfl))

/-- A device is attached, and the connection to it that it had is ended. -/
theorem untouched_insert (hwired : s.Wired) (hc : s.deviceOf? c ≠ some d) :
    s.Untouched (s.insert c) d := by
  rw [insert]
  split
  · exact .refl s d
  · next d' hd' =>
      have hne : d ≠ d' := by
        rintro rfl
        exact hc hd'
      have hset : s.Untouched
          { s with pipeline.attached := s.pipeline.attached.set d' c } d :=
        ⟨Table.get?_set_of_ne hne _ _, fun _ _ _ => Iff.rfl, rfl, rfl⟩
      dsimp only
      split
      · exact hset
      · next c' hattached =>
          refine hset.trans (untouched_modify (fun _ => .once .disconnect) ?_)
          show s.deviceOf? c' ≠ some d
          rw [hwired.attached d' c' hattached]
          exact fun he => hne (Option.some.inj he).symm

/-! ## Jobs -/

/-- A lane of another device, or no lane, is changed. -/
theorem ofDevice_modify_of_ne {f : Lane Job → Lane Job} {l : LaneId}
    (hf : ∀ lane, (f lane).device = lane.device) (hl : s.laneDevice? l ≠ some d) :
    (s.pipeline.lanes.modify l f).ofDevice d = s.pipeline.lanes.ofDevice d := by
  rcases Lanes.ofDevice_modify s.pipeline.lanes d l hf with ⟨-, lane, -, hlane, hd, -⟩ | ⟨-, he⟩
  · rw [laneDevice?, hlane, Option.map_some, hd] at hl
    exact absurd rfl hl
  · exact he

/-- A job does something to its own device only. -/
theorem untouched_stepJob (hwired : s.Wired) {l : LaneId} (hl : s.laneDevice? l ≠ some d) :
    s.Untouched (s.stepJob l) d := by
  have hlane {lane : Lane Job} (hget : s.pipeline.lanes.get? l = some lane) : lane.device ≠ d := by
    intro hd
    rw [laneDevice?, hget, Option.map_some, hd] at hl
    exact hl rfl
  have hfinish := ofDevice_modify_of_ne (f := Lane.finish) (fun _ => rfl) hl
  have hstep := jobStep_stepJob s l
  generalize s.stepJob l = s' at hstep ⊢
  cases hstep with
  | still => exact .refl s d
  | finish hget hjob => exact ⟨rfl, fun _ _ _ => Iff.rfl, rfl, hfinish⟩
  | breakOff hget hjob => exact ⟨rfl, fun _ _ _ => Iff.rfl, rfl, hfinish⟩
  | @answer lane t c q next a s₁ hget hjob hperform =>
      have heff := perform_effects hperform
      have hc : s.deviceOf? c ≠ some d := by
        rw [hwired.jobs l lane hget _ (Lane.mem_jobs.mpr (.inl hjob)) c _ rfl]
        exact fun he => hlane hget (Option.some.inj he)
      refine ⟨?_, ?_, ?_, ?_⟩
      · show s₁.pipeline.attached.get? d = _
        rw [heff.attached]
      · have hround : Connected Connection.Round s s₁ := heff.connections.mono fun _ _ => .sent _
        have helse (c' : ConnectionId) (hne : c' ≠ c) : s₁.connections[c']? = s.connections[c']? :=
          perform_elsewhere hperform hne
        exact connections_elsewhere hround helse hc
      · have hsame : s₁.records d = s.records d := records_perform_of_ne hperform (hlane hget)
        exact hsame
      · rw [heff.lanes_suspendJob]
        exact ofDevice_modify_of_ne (fun _ => rfl) hl
  | observe hget hjob =>
      refine ⟨rfl, fun _ _ _ => Iff.rfl, ?_, hfinish⟩
      exact congrArg _ (FlowRegistry.device_observe_of_ne (hlane hget).symm ..)
  | clear hget hjob =>
      refine ⟨rfl, fun _ _ _ => Iff.rfl, ?_, hfinish⟩
      exact Prod.ext (GroupPresence.groups_clearDevice_of_ne (hlane hget).symm _)
        (FlowRegistry.device_clearDevice_of_ne (hlane hget).symm _)

/-- A request becomes a job of its device, or nothing. -/
theorem untouched_submit {r : Request} {quiet : Bool} (hne : r.device ≠ d) :
    s.Untouched (s.submit r quiet).2 d := by
  rw [submit]
  split
  · exact untouched_of_eq rfl rfl
  · next hsubmit =>
      obtain ⟨c, -, -, -, hp⟩ := submit_ok hsubmit
      rw [hp]
      exact ⟨rfl, fun _ _ _ => Iff.rfl, rfl, Lanes.ofDevice_enqueue_of_ne hne _⟩

/-! ## Errands -/

theorem untouched_stepErrand (hplain : s.Plain) (hwired : s.Wired) {n : ErrandId}
    (hn : (s.errand? n).bind (Errand.owner? s) ≠ some d) : s.Untouched (s.stepErrand n) d := by
  rw [stepErrand]
  cases herrand : s.errand? n with
  | none => exact .refl s d
  | some errand =>
      rw [herrand, Option.bind_some] at hn
      rw [Option.bind_some]
      cases errand with
      | «over» result => exact .refl s d
      | reply p => exact .refl s d
      | attach c => exact (untouched_insert hwired hn).trans (untouched_of_eq rfl rfl)
      | job t quiet =>
          simp only [advanceErrand?]
          cases s.jobResult? t <;> exact untouched_of_eq rfl rfl
      | detach t =>
          simp only [advanceErrand?]
          cases s.jobResult? t <;> exact untouched_of_eq rfl rfl
      | shutdown t rest =>
          simp only [advanceErrand?]
          cases ht : s.jobResult? t with
          | none => exact .refl s d
          | some result =>
              simp only [Errand.owner?, ht, Option.isSome_some, if_true] at hn
              have hnext := untouched_detachNext (b := s.pipeline.shuttingDown) hwired hn
              exact hnext.trans (untouched_of_eq rfl rfl)
      | program c rest =>
          simp only [advanceErrand?]
          split
          · next e' s' hsome =>
              split at hsome
              · cases hsome
                obtain ⟨htail, -⟩ := stepProgram_transported (s := s) (d := s.errandDevice c)
                  (c := c) (hplain.errand? herrand)
                refine Untouched.trans ?_ (untouched_of_eq rfl rfl)
                exact untouched_on htail.pipeline (htail.connections.mono fun _ _ => .sent _)
                  (fun _ => stepProgram_elsewhere) hn
              · cases hsome
          · exact .refl s d

/-! ## Events -/

/-- An event leaves every device alone that it does not belong to. -/
theorem untouched_after (hplain : s.Plain) (hwired : s.Wired) (he : s.owner? e ≠ some d) :
    s.Untouched (s.after e) d := by
  cases e with
  | openConnection d' codec wireCapacity =>
      simp only [after]
      split
      · next hopen => exact untouched_open hopen fun hd => he (congrArg some hd)
      · exact .refl s d
  | send c x m =>
      simp only [after, beginSend?]
      cases hsend : s.send c x m with
      | none => exact .refl s d
      | some r =>
          have ht := send_transported hsend
          have hsent : s.Untouched r.2 d :=
            untouched_on ht.pipeline (ht.connections.mono fun _ _ => .sent _)
              (fun _ => send_elsewhere hsend) he
          exact hsent.trans (untouched_of_eq rfl rfl)
  | barrier c =>
      exact untouched_beginProgram hplain (Operation.follows_barrier transport_patient) he
  | compose c ns barrierAfter =>
      simp only [after, beginBatch?]
      cases hps : s.takePromises? ns with
      | none => exact .refl s d
      | some r =>
          obtain ⟨hr, hkeeps⟩ := takePromises?_cases hps
          have htaken : s.Untouched r.2 d := untouched_of_eq (by rw [hr]) (by rw [hr])
          have hc : r.2.deviceOf? c ≠ some d := by
            rw [deviceOf?, hr]
            exact he
          refine htaken.trans (untouched_beginProgram (hkeeps hplain) ?_ hc)
          cases barrierAfter with
          | none => exact Operation.follows_settleBatch transport_patient r.1 none
          | some b => exact Operation.follows_composeWithBarrier transport_patient r.1 b
  | cancel n =>
      simp only [owner?] at he
      simp only [after, cancel?]
      cases herrand : s.errand? n with
      | none => exact .refl s d
      | some errand =>
          cases errand with
          | reply p =>
              simp only [herrand] at he
              simp only [Option.map_some, Option.getD_some, withdraw]
              split
              · exact .refl s d
              · next conn hconn =>
                  refine untouched_on rfl (connected_modify .refl s p.connection fun c hc => ?_)
                    (fun _ hne => List.getElem?_modify_ne _ _ (Ne.symm hne)) he
                  cases hconn.symm.trans hc
                  exact .once (.withdraw p.reply)
          | _ => exact .refl s d
  | abandon n => exact untouched_of_eq rfl rfl
  | takeResults => exact untouched_of_eq rfl rfl
  | receive c f => exact untouched_modify (fun _ => .once (.receive f)) he
  | read c => exact untouched_modify (fun _ => .once .read) he
  | closeWire c => exact untouched_modify (fun _ => .once .closeWire) he
  | disconnect c => exact untouched_modify (fun _ => .once .disconnect) he
  | forget c => exact untouched_modify (fun _ => .once .forget) he
  | writer c => exact untouched_modify (fun _ => .once (.writer (s.isHeld c))) he
  | sweeper c => exact untouched_modify (fun _ => .once (.sweeper (s.isHeld c))) he
  | sweep c => exact untouched_modify (fun _ => .once (.sweep s.now)) he
  | tick ms => exact untouched_of_eq rfl rfl
  | putGroup d' g => exact untouched_of_eq rfl rfl
  | removeGroup d' g => exact untouched_of_eq rfl rfl
  | setFaults => exact untouched_of_eq rfl rfl
  | submit r quiet => exact untouched_submit fun hd => he (congrArg some hd)
  | noteStale flow =>
      simp only [after, noteStale]
      split <;> exact untouched_of_eq rfl rfl
  | attach c =>
      rw [after_attach]
      split
      · exact untouched_of_eq rfl rfl
      · exact (untouched_insert hwired he).trans (untouched_of_eq rfl rfl)
  | lateAttach c =>
      simp only [after, beginLateAttach]
      exact untouched_of_eq rfl rfl
  | detach d' =>
      simp only [after, beginDetach]
      split
      · next hd' =>
          have hdetached := untouched_detach? (b := s.pipeline.shuttingDown) hwired hd'
            fun hd => he (congrArg some hd)
          exact hdetached.trans (untouched_of_eq rfl rfl)
      · exact untouched_of_eq rfl rfl
  | shutdown =>
      simp only [owner?] at he
      simp only [after, beginShutdown]
      split
      · exact untouched_of_eq rfl rfl
      · next hopen =>
          rw [if_neg hopen] at he
          exact (untouched_detachNext hwired he).trans (untouched_of_eq rfl rfl)
  | startJob l =>
      exact ⟨rfl, fun _ _ _ => Iff.rfl, rfl, ofDevice_modify_of_ne Lanes.start_device he⟩
  | stepJob l => exact untouched_stepJob hwired he
  | stepErrand n => exact untouched_stepErrand hplain hwired he

/-! ## Runs -/

/-- A run in which nothing belongs to a device. -/
def PassesBy (s : System) (d : DeviceId) : List Event → Prop
  | [] => True
  | e :: es => s.owner? e ≠ some d ∧ (s.after e).PassesBy d es

instance decidablePassesBy :
    (s : System) → (d : DeviceId) → (es : List Event) → Decidable (s.PassesBy d es)
  | _, _, [] => isTrue trivial
  | s, d, e :: es =>
    have := decidablePassesBy (s.after e) d es
    inferInstanceAs (Decidable (_ ∧ _))

theorem untouched_go (hplain : s.Plain) (hwired : s.Wired) {es : List Event}
    (hes : s.PassesBy d es) : s.Untouched (s.go es) d := by
  induction es generalizing s with
  | nil => exact .refl s d
  | cons e es ih =>
      obtain ⟨he, hes⟩ := hes
      have hrest := ih (step_after hplain e).2 (wired_after hplain hwired e) hes
      exact (untouched_after hplain hwired he).trans hrest

/-- In every state that a pipeline can come to, an event leaves all devices as they are but
the one that it belongs to, and so does any run of events of other devices. -/
theorem devices_apart {config : Config} {s₀ : System} (hnew : System.new config = .ok s₀)
    (es : List Event) (d : DeviceId) :
    (∀ e, (s₀.go es).owner? e ≠ some d → (s₀.go es).Untouched ((s₀.go es).after e) d) ∧
      ∀ later, (s₀.go es).PassesBy d later → (s₀.go es).Untouched ((s₀.go es).go later) d := by
  have hplain := plain_go (plain_new hnew) es
  have hwired := wired_go (plain_new hnew) (wired_new hnew) es
  exact ⟨fun e he => untouched_after hplain hwired he,
    fun later hlater => untouched_go hplain hwired hlater⟩

/-! ## Two devices -/

namespace Neighbours

/-- The device to which everything happens. -/
def device : DeviceId := ⟨"openflow:1"⟩

/-- The device beside it. -/
def neighbour : DeviceId := ⟨"openflow:2"⟩

/-- Both devices are attached.  The neighbour has a group, and a barrier is queued for it. -/
def before : List Event :=
  [.openConnection device .acknowledging 64, .openConnection neighbour .acknowledging 64,
    .attach 0, .attach 1, .submit (.addGroup neighbour { id := ⟨5⟩ }) false, .startJob 0,
    .stepJob 0, .writer 1, .writer 1, .receive 1 [0], .stepJob 0, .stepJob 0, .stepJob 0,
    .submit (.barrier neighbour) false, .startJob 0, .stepJob 0]

/-- The device is given a group, and then it is detached and its state is cleared. -/
def later : List Event :=
  [.submit (.addGroup device { id := ⟨7⟩ }) false, .startJob 1, .stepJob 1, .writer 0, .writer 0,
    .receive 0 [0], .stepJob 1, .stepJob 1, .stepJob 1, .detach device, .startJob 1, .stepJob 1]

end Neighbours

theorem devices_apart_of_neighbours :
    ∃ s₀, System.new {} = .ok s₀ ∧
      (s₀.go Neighbours.before).pipeline.groups.groups Neighbours.neighbour = [⟨5⟩] ∧
      (s₀.go Neighbours.before).owner? (.detach Neighbours.device) ≠ some Neighbours.neighbour ∧
      (s₀.go Neighbours.before).Untouched
        ((s₀.go Neighbours.before).after (.detach Neighbours.device)) Neighbours.neighbour ∧
      (s₀.go Neighbours.before).PassesBy Neighbours.neighbour Neighbours.later ∧
      (s₀.go Neighbours.before).Untouched
        ((s₀.go Neighbours.before).go Neighbours.later) Neighbours.neighbour := by
  let s₀ := start
  have hnew : System.new {} = .ok s₀ := rfl
  have hgroups : (s₀.go Neighbours.before).pipeline.groups.groups Neighbours.neighbour = [⟨5⟩] := by
    decide
  have howner : (s₀.go Neighbours.before).owner? (.detach Neighbours.device) ≠
      some Neighbours.neighbour := by decide
  have hlater : (s₀.go Neighbours.before).PassesBy Neighbours.neighbour Neighbours.later := by
    decide
  obtain ⟨hstep, hrun⟩ := devices_apart hnew Neighbours.before Neighbours.neighbour
  exact ⟨s₀, hnew, hgroups, howner, hstep _ howner, hlater, hrun _ hlater⟩

end Southbound.System
