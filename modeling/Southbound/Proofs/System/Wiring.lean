import Southbound.Proofs.Jobs.AllJobs
import Southbound.Proofs.System.Steps

/-!
# Jobs and the connections of their devices

Every job works on a connection to the device of its lane, and every device is
attached over a connection to it (`System.Wired`).  Connections do not go away and
keep their devices, so every run keeps that.
-/

namespace Southbound

/-- A job that works on a connection, works on one to a device. -/
def Job.WorksFor (s : System) (d : DeviceId) (job : Job) : Prop :=
  ∀ c rest, job.work = .operate c rest → s.deviceOf? c = some d

/-- The work of a request is on the connection that it is given. -/
theorem Request.work_connection {policy : OperationPolicy} {c c' : ConnectionId} {r : Request}
    {rest : Program (Outcome Result)} (h : r.work policy c = .operate c' rest) : c' = c := by
  cases r with
  | observe d f => cases h
  | _ =>
      cases h
      rfl

theorem Pipeline.channel_ok {p : Pipeline} {d : DeviceId} {c : ConnectionId}
    (h : p.channel d = .ok c) : p.attached.get? d = some c := by
  rw [channel] at h
  split at h
  · cases h
  · split at h
    · next hc =>
        cases h
        exact hc
    · cases h

namespace System

/-- Devices are attached over connections to them, and jobs work on connections to the
devices of their lanes. -/
structure Wired (s : System) : Prop where
  attached : ∀ d c, s.pipeline.attached.get? d = some c → s.deviceOf? c = some d
  jobs : s.pipeline.lanes.AllJobs (Job.WorksFor s)

variable {s s' : System} {d : DeviceId} {c : ConnectionId}

/-! ## Connections stay -/

/-- A connection that there is stays there, and one event does little to it. -/
theorem exists_round {conn : Connection} (hplain : s.Plain) (e : Event)
    (hc : s.connections[c]? = some conn) :
    ∃ conn', (s.after e).connections[c]? = some conn' ∧ conn.Round conn' := by
  rcases (step_after hplain e).1.connections with hconn | ⟨-, -, -, conn₀, -, hconns⟩
  · exact hconn.exists_of_some hc
  · obtain ⟨hlt, -⟩ := List.getElem?_eq_some_iff.mp hc
    refine ⟨conn, ?_, .refl conn⟩
    rw [hconns, List.getElem?_append_left hlt, hc]

/-- A connection that there was not has just been opened. -/
theorem opened_of_none {conn : Connection} (hplain : s.Plain) (e : Event)
    (hc : s.connections[c]? = none) (hc' : (s.after e).connections[c]? = some conn) :
    ∃ d codec wireCapacity,
      Connection.open? d codec wireCapacity s.pipeline.config s.now = some conn := by
  rcases (step_after hplain e).1.connections with hconn | ⟨d, codec, wireCapacity, _, hopen, hconns⟩
  · obtain ⟨conn₀, hc₀, -⟩ := hconn.exists_of_some' hc'
    rw [hc] at hc₀
    cases hc₀
  · rw [hconns, List.getElem?_append_right (List.getElem?_eq_none_iff.mp hc),
      List.getElem?_singleton] at hc'
    split at hc'
    · cases hc'
      exact ⟨d, codec, wireCapacity, hopen⟩
    · cases hc'

/-- A connection that there is keeps its device. -/
theorem deviceOf?_after (hplain : s.Plain) (e : Event) (hd : s.deviceOf? c = some d) :
    (s.after e).deviceOf? c = some d := by
  obtain ⟨conn, hc, rfl⟩ := Option.map_eq_some_iff.mp hd
  obtain ⟨conn', hc', hround⟩ := exists_round hplain e hc
  rw [deviceOf?, hc', Option.map_some, hround.same.device]

/-! ## The invariant -/

/-- Nothing is attached anew, and the jobs still work for their devices. -/
theorem Wired.jobs_mono (h : s.Wired) (hplain : s.Plain) (e : Event) :
    s.pipeline.lanes.AllJobs (Job.WorksFor (s.after e)) :=
  h.jobs.mono fun _ _ hjob c rest hwork => deviceOf?_after hplain e (hjob c rest hwork)

/-- A job that goes on works on the connection on which it worked. -/
theorem worksFor_running (h : s.pipeline.lanes.AllJobs (Job.WorksFor s')) {l : LaneId}
    {lane : Lane Job} {t : Ticket} {p p' : Program (Outcome Result)}
    (hl : s.pipeline.lanes.get? l = some lane) (hjob : lane.running = some ⟨t, .operate c p⟩) :
    Job.WorksFor s' lane.device ⟨t, .operate c p'⟩ := by
  intro c' rest hwork
  cases hwork
  exact h l lane hl _ (Lane.mem_jobs.mpr (.inl hjob)) c p rfl

theorem wired_jobStep {l : LaneId} (hstep : JobStep s l s')
    (hattached : ∀ d c, s.pipeline.attached.get? d = some c → s'.deviceOf? c = some d)
    (hjobs : s.pipeline.lanes.AllJobs (Job.WorksFor s')) : s'.Wired := by
  cases hstep with
  | still => exact ⟨hattached, hjobs⟩
  | finish hl hjob => exact ⟨hattached, hjobs.finish l⟩
  | @answer lane t c e next a s₁ hl hjob hperform =>
      have heff := perform_effects hperform
      have hrest : Job.WorksFor (s₁.suspendJob l ⟨t, .operate c (next a)⟩) lane.device
          ⟨t, .operate c (next a)⟩ := worksFor_running hjobs hl hjob
      refine ⟨?_, ?_⟩
      · show ∀ d c, s₁.pipeline.attached.get? d = some c → _
        rw [heff.attached]
        exact hattached
      · rw [heff.lanes_suspendJob]
        refine hjobs.modify l fun lane' hl' job hmem => ?_
        cases hl.symm.trans hl'
        cases Lane.mem_jobs.mp hmem with
        | inl hrunning =>
            cases hrunning
            exact hrest
        | inr hwaiting => exact hjobs l lane hl job (Lane.mem_jobs.mpr (.inr hwaiting))
  | breakOff hl hjob => exact ⟨hattached, hjobs.finish l⟩
  | observe hl hjob => exact ⟨hattached, hjobs.finish l⟩
  | clear hl hjob => exact ⟨hattached, hjobs.finish l⟩

theorem wired_after (hplain : s.Plain) (h : s.Wired) (e : Event) : (s.after e).Wired := by
  have hdevice (c : ConnectionId) (d : DeviceId) := deviceOf?_after (c := c) (d := d) hplain e
  have hjobs := h.jobs_mono hplain e
  have hstep := (step_after hplain e).1
  generalize s.after e = s' at hdevice hjobs hstep ⊢
  have hattached (d : DeviceId) (c : ConnectionId) (hc : s.pipeline.attached.get? d = some c) :=
    hdevice c d (h.attached d c hc)
  cases hstep with
  | quiet _ hp _ _ _ => exact ⟨by rw [hp]; exact hattached, by rw [hp]; exact hjobs⟩
  | opened => exact ⟨hattached, hjobs⟩
  | submitted hsubmit _ _ _ =>
      obtain ⟨c, -, hchannel, -, hp⟩ := submit_ok hsubmit
      refine ⟨by rw [hp]; exact hattached, ?_⟩
      rw [hp]
      refine hjobs.enqueue fun c' rest hwork => ?_
      rw [Request.work_connection hwork]
      exact hattached _ c (Pipeline.channel_ok hchannel)
  | @attached _ c d _ _ _ hd hp _ _ _ =>
      refine ⟨fun d' c' hc' => ?_, by rw [hp]; exact hjobs⟩
      rw [hp] at hc'
      by_cases hne : d' = d
      · subst hne
        rw [Table.get?_set_self] at hc'
        cases hc'
        exact hdevice c d' hd
      · rw [Table.get?_set_of_ne hne] at hc'
        exact hattached d' c' hc'
  | @detached _ d c closed _ _ hc hp _ _ _ =>
      refine ⟨fun d' c' hc' => ?_, ?_⟩
      · replace hc' : (s.pipeline.attached.erase d).get? d' = some c' := by
          rw [hp] at hc'
          exact hc'
        by_cases hne : d' = d
        · rw [hne, Table.get?_erase_self] at hc'
          cases hc'
        · rw [Table.get?_erase_of_ne hne] at hc'
          exact hattached d' c' hc'
      · rw [hp]
        refine Lanes.AllJobs.removeDevice (hjobs.enqueue fun c' rest hwork => ?_) d
        cases hwork
  | closed hp _ _ _ => exact ⟨by rw [hp]; exact hattached, by rw [hp]; exact hjobs⟩
  | started l => exact ⟨hattached, hjobs.start l⟩
  | job hjob => exact wired_jobStep hjob hattached hjobs

theorem wired_new {config : Config} {s₀ : System} (h : System.new config = .ok s₀) : s₀.Wired := by
  cases eq_of_new h
  constructor
  · intro d c hc
    cases hc
  · intro l lane hl
    cases hl

end System

end Southbound
