import Southbound.Proofs.Registry.FlowRegistry
import Southbound.Proofs.Registry.GroupPresence
import Southbound.Proofs.System.Closing

/-!
# What an event does at one device

Of one device, an event changes its lanes, what is recorded of it, and whether it is
attached.  All that it can do to these is one `System.DeviceStep`
(`System.deviceStep_after`): it passes the device by, a job is queued in the lane that
takes jobs, the device is detached, or the job of one lane goes on.

What is recorded of a device is changed only by jobs in its own lanes.
-/

namespace Southbound

/-! ## The lane that takes jobs -/

/-- Of some lanes, one takes jobs: the last, or a new one if all are released. -/
structure OpenLane {ι : Type} (ls pre : List (Lane ι)) (lane : Lane ι) : Prop where
  opened : lane.released = false
  others : ∀ l ∈ pre, l.released = true
  last : ls = pre ++ [lane] ∨ ls = pre ∧ lane.jobs = []

namespace Lanes

variable {ι : Type} {ls : Lanes ι} {d : DeviceId}

/-- A job is queued in the lane that takes jobs, and the lane may be released then. -/
theorem exists_openLane (h : Orderly (ls.ofDevice d)) (job : ι) :
    ∃ pre lane, OpenLane (ls.ofDevice d) pre lane ∧
      (ls.enqueue d job).ofDevice d = pre ++ [lane.push job] ∧
      ((ls.enqueue d job).removeDevice d).2.ofDevice d =
        pre ++ [{ lane.push job with released := true }] := by
  have hstep := ofDevice_enqueue h job
  have hreleased {pre : List (Lane ι)} {lane : Lane ι}
      (hqueued : (ls.enqueue d job).ofDevice d = pre ++ [lane]) (hopen : lane.released = false)
      (hpre : ∀ l ∈ pre, l.released = true) :
      ((ls.enqueue d job).removeDevice d).2.ofDevice d =
        pre ++ [{ lane with released := true }] := by
    have hd : lane.device = d := (mem_ofDevice.mp (hqueued ▸ List.mem_concat_self)).2
    have hmap := ofDevice_map_takes (f := fun l => { l with released := true })
      (ls.enqueue d job) d fun _ => rfl
    rwa [hqueued, map_takes_concat hd hopen hpre] at hmap
  generalize hbefore : ls.ofDevice d = before at h hstep ⊢
  generalize hbehind : (ls.enqueue d job).ofDevice d = behind at hstep hreleased ⊢
  cases hstep with
  | fresh _ _ generation hall =>
      exact ⟨before, { device := d, generation }, ⟨rfl, hall, .inr ⟨rfl, rfl⟩⟩, rfl,
        hreleased rfl rfl hall⟩
  | push pre lane _ hopen =>
      have hpre := pairwise_concat_iff.mp h
      exact ⟨pre, lane, ⟨hopen, hpre, .inl rfl⟩, rfl, hreleased rfl hopen hpre⟩

end Lanes

namespace System

/-! ## What is recorded -/

/-- The groups and the flows that are recorded of a device. -/
def records (s : System) (d : DeviceId) : List GroupId × DeviceFlows :=
  (s.pipeline.groups.groups d, s.pipeline.flows.device d)

variable {s s' : System} {d d' : DeviceId} {c : ConnectionId} {e : Event} {l : LaneId}

theorem records_of_pipeline (h : s'.pipeline = s.pipeline) : s'.records d = s.records d := by
  rw [records, h, records]

/-- An effect for one device leaves the records of the others alone. -/
theorem records_perform_of_ne {e : Effect} {a : e.Answer} (h : s.perform d' c e = .answer a s')
    (hne : d' ≠ d) : s'.records d = s.records d := by
  cases performed_of_answer h with
  | sent hsend => exact records_of_pipeline (send_transported hsend).pipeline
  | recordedGroup g => simp only [records, GroupPresence.groups_store_of_ne hne.symm]
  | forgotGroup g => simp only [records, GroupPresence.groups_remove_of_ne hne.symm]
  | recordedFlow f descriptor => simp only [records, FlowRegistry.device_store_of_ne hne.symm]
  | forgotFlow f => simp only [records, FlowRegistry.device_remove_of_ne hne.symm]
  | _ => rfl

/-! ## Steps at a device -/

/-- What an event does to the lane whose job goes on, and to the records of its
device. -/
inductive LaneWork (s : System) (d : DeviceId) (l : LaneId) (lane : Lane Job) :
    Event → Lane Job → System → Prop where
  | started {s' : System} :
      s'.records d = s.records d → LaneWork s d l lane (.startJob l) lane.start s'
  /-- The program of the job goes on by one effect. -/
  | answered {t : Ticket} {c : ConnectionId} {e : Effect}
      {next : e.Answer → Program (Outcome Result)} {a : e.Answer} {s₁ s' : System} :
      lane.running = some ⟨t, .operate c (.step e next)⟩ → s.perform d c e = .answer a s₁ →
      s'.records d = s₁.records d → s'.connections = s₁.connections →
      LaneWork s d l lane (.stepJob l) { lane with running := some ⟨t, .operate c (next a)⟩ } s'
  /-- The program of the job has come to its end. -/
  | finished {t : Ticket} {c : ConnectionId} {rest : Program (Outcome Result)} {s' : System} :
      lane.running = some ⟨t, .operate c rest⟩ → s'.records d = s.records d →
      (s'.jobResult? t).isSome → LaneWork s d l lane (.stepJob l) lane.finish s'
  | observed {t : Ticket} {f : Flow} {s' : System} :
      lane.running = some ⟨t, .observe f⟩ →
      s'.records d = ((s.records d).1, (s.pipeline.flows.observe d f).2.device d) →
      (s'.jobResult? t).isSome → LaneWork s d l lane (.stepJob l) lane.finish s'
  | cleared {t : Ticket} {s' : System} :
      lane.running = some ⟨t, .clear⟩ → s'.records d = ([], {}) →
      (s'.jobResult? t).isSome → LaneWork s d l lane (.stepJob l) lane.finish s'

/-- All that an event can do to the lanes of a device, to what is recorded of it, and to
whether it is attached. -/
inductive DeviceStep (s : System) (d : DeviceId) : Event → System → Prop where
  /-- The event passes the device by. -/
  | aside {e : Event} {s' : System} :
      s'.pipeline.lanes.ofDevice d = s.pipeline.lanes.ofDevice d → s'.records d = s.records d →
      s.pipeline.tickets ≤ s'.pipeline.tickets →
      ((s.pipeline.attached.get? d).isSome → (s'.pipeline.attached.get? d).isSome) →
      DeviceStep s d e s'
  | queued {r : Request} {quiet : Bool} {c : ConnectionId} {pre : List (Lane Job)}
      {lane : Lane Job} {s' : System} :
      s.pipeline.attached.get? d = some c → OpenLane (s.pipeline.lanes.ofDevice d) pre lane →
      s'.pipeline.lanes.ofDevice d =
        pre ++ [lane.push ⟨s.pipeline.tickets, r.work s.pipeline.policy c⟩] →
      s'.records d = s.records d → s'.pipeline.tickets = s.pipeline.tickets + 1 →
      s'.pipeline.attached = s.pipeline.attached → DeviceStep s d (.submit r quiet) s'
  | detached {e : Event} {pre : List (Lane Job)} {lane : Lane Job} {s' : System} :
      e.lane? = none → (s.pipeline.attached.get? d).isSome →
      OpenLane (s.pipeline.lanes.ofDevice d) pre lane →
      s'.pipeline.lanes.ofDevice d =
        pre ++ [{ lane.push ⟨s.pipeline.tickets, .clear⟩ with released := true }] →
      s'.records d = s.records d → s'.pipeline.tickets = s.pipeline.tickets + 1 →
      s'.pipeline.attached.get? d = none → DeviceStep s d e s'
  /-- The job of one lane starts or goes on. -/
  | worked {e : Event} {l : LaneId} {pre post : List (Lane Job)} {lane lane' : Lane Job}
      {s' : System} :
      s.pipeline.lanes.get? l = some lane → s.pipeline.lanes.ofDevice d = pre ++ lane :: post →
      s'.pipeline.lanes.ofDevice d = pre ++ lane' :: post → LaneWork s d l lane e lane' s' →
      s'.pipeline.tickets = s.pipeline.tickets → s'.pipeline.attached = s.pipeline.attached →
      DeviceStep s d e s'

/-- The pipeline is as it was, but for the devices that are attached. -/
theorem deviceStep_aside (hlanes : s'.pipeline.lanes = s.pipeline.lanes)
    (hrecords : s'.records d = s.records d) (htickets : s'.pipeline.tickets = s.pipeline.tickets)
    (hattached : (s.pipeline.attached.get? d).isSome → (s'.pipeline.attached.get? d).isSome) :
    DeviceStep s d e s' :=
  .aside (by rw [hlanes]) hrecords (Nat.le_of_eq htickets.symm) hattached

/-- One lane is changed: it is one of the device, or the event passes the device by. -/
theorem deviceStep_modify {f : Lane Job → Lane Job} (hf : ∀ lane, (f lane).device = lane.device)
    (hlanes : s'.pipeline.lanes = s.pipeline.lanes.modify l f)
    (htickets : s'.pipeline.tickets = s.pipeline.tickets)
    (hattached : s'.pipeline.attached = s.pipeline.attached)
    (hthis : ∀ lane, s.pipeline.lanes.get? l = some lane → lane.device = d →
      LaneWork s d l lane e (f lane) s')
    (hother : (∀ lane, s.pipeline.lanes.get? l = some lane → lane.device ≠ d) →
      s'.records d = s.records d) : DeviceStep s d e s' := by
  rcases Lanes.ofDevice_modify s.pipeline.lanes d l hf with
    ⟨pre, lane, post, hl, hd, he, hmod⟩ | ⟨hne, hsame⟩
  · rw [← hlanes] at hmod
    exact .worked hl he hmod (hthis lane hl hd) htickets hattached
  · rw [← hlanes] at hsame
    refine .aside hsame (hother hne) (Nat.le_of_eq htickets.symm) fun h => ?_
    rw [hattached]
    exact h

/-- A job goes on. -/
theorem deviceStep_job (hstep : JobStep s l s') : DeviceStep s d (.stepJob l) s' := by
  have hresult (s₀ : System) (t : Ticket) (result : Outcome Result) :
      ((s₀.finishJob l t result).jobResult? t).isSome := by
    simp [jobResult?, finishJob]
  -- Whichever lane it is, it is the one whose job goes on.
  have hthis {lane : Lane Job} (hl : s.pipeline.lanes.get? l = some lane) {P : Lane Job → Prop}
      (hP : lane.device = d → P lane) (lane' : Lane Job)
      (hl' : s.pipeline.lanes.get? l = some lane') (hd : lane'.device = d) : P lane' := by
    cases hl.symm.trans hl'
    exact hP hd
  cases hstep with
  | still => exact deviceStep_aside rfl rfl rfl id
  | @finish lane t c result hl hjob =>
      exact deviceStep_modify (f := Lane.finish) (fun _ => rfl) rfl rfl rfl
        (hthis hl fun _ => .finished hjob rfl (hresult ..)) fun _ => rfl
  | @breakOff lane t c e next hl hjob =>
      exact deviceStep_modify (f := Lane.finish) (fun _ => rfl) rfl rfl rfl
        (hthis hl fun _ => .finished hjob rfl (hresult ..)) fun _ => rfl
  | @answer lane t c e next a s₁ hl hjob hperform =>
      have heff := perform_effects hperform
      refine deviceStep_modify (l := l)
        (f := fun lane => { lane with running := some ⟨t, .operate c (next a)⟩ })
        (fun _ => rfl) (heff.lanes_suspendJob l _) heff.tickets heff.attached
        (hthis hl fun hd => ?_) fun hne => ?_
      · subst hd
        exact .answered hjob hperform rfl rfl
      · have hsame : s₁.records d = s.records d := records_perform_of_ne hperform (hne lane hl)
        exact hsame
  | @observe lane t f hl hjob =>
      refine deviceStep_modify (f := Lane.finish) (fun _ => rfl) rfl rfl rfl
        (hthis hl fun hd => ?_) fun hne => ?_
      · subst hd
        exact .observed hjob rfl (hresult ..)
      · exact congrArg _ (FlowRegistry.device_observe_of_ne (hne lane hl).symm ..)
  | @clear lane t hl hjob =>
      refine deviceStep_modify (f := Lane.finish) (fun _ => rfl) rfl rfl rfl
        (hthis hl fun hd => ?_) fun hne => ?_
      · subst hd
        refine .cleared hjob ?_ (hresult ..)
        simp [records, finishJob, GroupPresence.groups, GroupPresence.clearDevice]
      · exact Prod.ext (GroupPresence.groups_clearDevice_of_ne (hne lane hl).symm _)
          (FlowRegistry.device_clearDevice_of_ne (hne lane hl).symm _)

/-- All that an event does at a device of which only the last lane takes jobs. -/
theorem deviceStep_after (hplain : s.Plain) (h : Orderly (s.pipeline.lanes.ofDevice d))
    (e : Event) : DeviceStep s d e (s.after e) := by
  have hstep := (step_after hplain e).1
  generalize s.after e = s' at hstep ⊢
  have hsame (hp : s'.pipeline = s.pipeline) : DeviceStep s d e s' :=
    deviceStep_aside (by rw [hp]) (records_of_pipeline hp) (by rw [hp]) (by rw [hp]; exact id)
  cases hstep with
  | quiet _ hp _ _ _ => exact hsame hp
  | opened => exact hsame rfl
  | @submitted r quiet t _ hsubmit _ _ _ =>
      obtain ⟨c, -, hchannel, -, hp⟩ := submit_ok hsubmit
      by_cases hd : r.device = d
      · subst hd
        obtain ⟨pre, lane, hopen, hqueued, -⟩ :=
          Lanes.exists_openLane h ⟨s.pipeline.tickets, r.work s.pipeline.policy c⟩
        exact .queued (Pipeline.channel_ok hchannel) hopen (by rw [hp]; exact hqueued)
          (by rw [records, hp]; rfl) (by rw [hp]; rfl) (by rw [hp]; rfl)
      · refine .aside ?_ (by rw [records, hp]; rfl) (by rw [hp]; exact Nat.le_succ _)
          (by rw [hp]; exact id)
        rw [hp]
        exact Lanes.ofDevice_enqueue_of_ne hd _
  | @attached _ c d' _ _ _ _ hp _ _ _ =>
      refine deviceStep_aside (by rw [hp]) (by rw [records, hp]; rfl) (by rw [hp]) fun hsome => ?_
      rw [hp]
      by_cases hd : d = d'
      · subst hd
        simp
      · rw [Table.get?_set_of_ne hd]
        exact hsome
  | @detached _ d' c closed _ he hc hp _ _ _ =>
      by_cases hd : d' = d
      · subst hd
        obtain ⟨pre, lane, hopen, -, hreleased⟩ :=
          Lanes.exists_openLane h ⟨s.pipeline.tickets, .clear⟩
        refine .detached he (by rw [hc]; rfl) hopen (by rw [hp]; exact hreleased)
          (by rw [records, hp]; rfl) (by rw [hp]; rfl) ?_
        rw [hp]
        exact Table.get?_erase_self _ d'
      · refine .aside ?_ (by rw [records, hp]; rfl) (by rw [hp]; exact Nat.le_succ _)
          fun hsome => ?_
        · rw [hp]
          exact (Lanes.ofDevice_removeDevice_of_ne hd).trans (Lanes.ofDevice_enqueue_of_ne hd _)
        · rw [hp]
          show ((s.pipeline.attached.erase d').get? d).isSome
          rw [Table.get?_erase_of_ne (Ne.symm hd)]
          exact hsome
  | closed hp _ _ _ =>
      exact deviceStep_aside (by rw [hp]) (by rw [records, hp]; rfl) (by rw [hp])
        (by rw [hp]; exact id)
  | started l =>
      exact deviceStep_modify (f := Lane.start) Lanes.start_device rfl rfl rfl
        (fun _ _ _ => .started rfl) fun _ => rfl
  | job hjob => exact deviceStep_job hjob

end System

end Southbound
