import Southbound.Proofs.Operation.Discipline
import Southbound.Proofs.System.Connections

/-!
# Effects

What an effect of a program leaves as it is (`System.perform_effects`), and what a
job does when it goes on (`System.jobStep_stepJob`).  A program that only sends and
waits (`transport`) leaves the pipeline and the store alone, however far it goes
(`System.run_transported`).
-/

namespace Southbound

/-! ## Programs that send and wait -/

/-- Whether an effect is to send a message or to wait for results. -/
def Effect.isTransport : Effect → Bool
  | send _ => true
  | await _ => true
  | gather _ _ => true
  | _ => false

/-- Programs that do nothing but send and wait. -/
def transport : Discipline Unit where
  may _ e := e.isTransport = true
  next _ _ _ _ := True

/-- A flow is noted as stale apart from the groups that are configured. -/
theorem Store.groups_noteStale (st : Store) (flow : StaleFlow) :
    (st.noteStale flow).2.groups = st.groups := by
  rw [noteStale]
  split <;> rfl

namespace System

/-! ## Effects -/

/-- What an effect of a program leaves as it is. -/
structure Effects (s s' : System) : Prop where
  now : s'.now = s.now
  results : s'.results = s.results
  errands : s'.errands = s.errands
  begun : s'.begun = s.begun
  config : s'.pipeline.config = s.pipeline.config
  attached : s'.pipeline.attached = s.pipeline.attached
  lanes : s'.pipeline.lanes = s.pipeline.lanes
  shuttingDown : s'.pipeline.shuttingDown = s.pipeline.shuttingDown
  tickets : s'.pipeline.tickets = s.pipeline.tickets
  configured : s'.store.groups = s.store.groups
  connections : Connected Connection.SentOn s s'

/-- What the message and the waiting of a program leave as they are. -/
structure Transported (s s' : System) : Prop where
  now : s'.now = s.now
  pipeline : s'.pipeline = s.pipeline
  store : s'.store = s.store
  results : s'.results = s.results
  errands : s'.errands = s.errands
  begun : s'.begun = s.begun
  connections : Connected Connection.SentOn s s'

theorem Transported.refl (s : System) : Transported s s :=
  ⟨rfl, rfl, rfl, rfl, rfl, rfl, .of_eq .refl rfl⟩

theorem Transported.trans {s s' s'' : System} (h : Transported s s') (h' : Transported s' s'') :
    Transported s s'' where
  now := h'.now.trans h.now
  pipeline := h'.pipeline.trans h.pipeline
  store := h'.store.trans h.store
  results := h'.results.trans h.results
  errands := h'.errands.trans h.errands
  begun := h'.begun.trans h.begun
  connections := h.connections.trans h'.connections .trans

theorem Transported.effects {s s' : System} (h : Transported s s') : Effects s s' where
  now := h.now
  results := h.results
  errands := h.errands
  begun := h.begun
  config := by rw [h.pipeline]
  attached := by rw [h.pipeline]
  lanes := by rw [h.pipeline]
  shuttingDown := by rw [h.pipeline]
  tickets := by rw [h.pipeline]
  configured := by rw [h.store]
  connections := h.connections

theorem send_transported {s s' : System} {c : ConnectionId} {x : Option Xid} {m : Message}
    {p : Promise} (h : s.send c x m = some (p, s')) : Transported s s' := by
  obtain ⟨he, hconn⟩ := send_sentOn h
  rw [he] at hconn ⊢
  exact ⟨rfl, rfl, rfl, rfl, rfl, rfl, hconn⟩

/-- What an effect that is answered comes to. -/
inductive Performed (s : System) (d : DeviceId) (c : ConnectionId) :
    (e : Effect) → e.Answer → System → Prop where
  | sent {m : Message} {p : Promise} {s' : System} :
      s.send c none m = some (p, s') → Performed s d c (.send m) p s'
  | awaited {p : Promise} {result : Outcome Message} :
      s.result? p = some result → Performed s d c (.await p) result s
  | gathered {members : List Promise} {last : Option Promise} {results closing : List Settled} :
      s.results? members = some results → s.results? last.toList = some closing →
      Performed s d c (.gather members last) (results, closing.head?) s
  | hadGroup (g : GroupId) : Performed s d c (.hasGroup g) (s.pipeline.groups.contains d g) s
  | recordedGroup (g : GroupId) :
      Performed s d c (.recordGroup g) () { s with
        pipeline.groups := (s.pipeline.groups.store d g).2 }
  | forgotGroup (g : GroupId) :
      Performed s d c (.forgetGroup g) () { s with
        pipeline.groups := (s.pipeline.groups.remove d g).2 }
  | readGroup {g : GroupId} {result : Outcome (Option Group)} :
      s.store.readGroup? d g = some result → Performed s d c (.readGroup g) result s
  | notedStale (flow : StaleFlow) :
      Performed s d c (.noteStale flow) (s.store.noteStale flow).1 { s with
        store := (s.store.noteStale flow).2 }
  | recordedFlow (f : Flow) (descriptor : FlowDescriptor) :
      Performed s d c (.recordFlow f descriptor) () { s with
        pipeline.flows := s.pipeline.flows.store d f descriptor }
  | forgotFlow (f : Flow) :
      Performed s d c (.forgetFlow f) () { s with
        pipeline.flows := (s.pipeline.flows.remove d f).2 }

section Perform

variable {s s' : System} {d : DeviceId} {c : ConnectionId} {e : Effect} {a : e.Answer}

theorem performed_of_answer (h : s.perform d c e = .answer a s') : Performed s d c e a s' := by
  cases e with
  | send m =>
      simp only [perform] at h
      split at h
      · next hsend =>
          cases h
          exact .sent hsend
      · cases h
  | await p =>
      simp only [perform] at h
      split at h
      · next hresult =>
          cases h
          exact .awaited hresult
      · cases h
  | gather members last =>
      simp only [perform] at h
      split at h
      · next hresults hclosing =>
          cases h
          exact .gathered hresults hclosing
      · cases h
  | readGroup g =>
      simp only [perform] at h
      split at h
      · next hread =>
          cases h
          exact .readGroup hread
      · cases h
  | hasGroup g =>
      cases h
      exact .hadGroup g
  | recordGroup g =>
      cases h
      exact .recordedGroup g
  | forgetGroup g =>
      cases h
      exact .forgotGroup g
  | noteStale flow =>
      cases h
      exact .notedStale flow
  | recordFlow f descriptor =>
      cases h
      exact .recordedFlow f descriptor
  | forgetFlow f =>
      cases h
      exact .forgotFlow f

/-- Sending and waiting only sends. -/
theorem perform_transported (he : e.isTransport = true) (h : s.perform d c e = .answer a s') :
    Transported s s' := by
  cases performed_of_answer h with
  | sent hsend => exact send_transported hsend
  | awaited => exact .refl s
  | gathered => exact .refl s
  | _ => cases he

/-- All that an effect leaves as it is. -/
theorem perform_effects (h : s.perform d c e = .answer a s') : Effects s s' := by
  cases performed_of_answer h with
  | sent hsend => exact (send_transported hsend).effects
  | notedStale flow =>
      exact ⟨rfl, rfl, rfl, rfl, rfl, rfl, rfl, rfl, rfl, s.store.groups_noteStale flow,
        .of_eq .refl rfl⟩
  | _ => exact ⟨rfl, rfl, rfl, rfl, rfl, rfl, rfl, rfl, rfl, rfl, .of_eq .refl rfl⟩

end Perform

/-! ## Programs -/

section Programs

variable {s : System} {d : DeviceId} {c : ConnectionId} {α : Type} {p : Program α}

/-- A program that sends and waits goes on. -/
theorem stepProgram_transported (hp : p.Obeys transport ()) :
    Transported s (s.stepProgram d c p).2 ∧
      ∀ rest, (s.stepProgram d c p).1 = .unfinished rest → rest.Obeys transport () := by
  cases p with
  | done value =>
      refine ⟨.refl s, fun rest h => ?_⟩
      cases h
  | step e next =>
      obtain ⟨he, hnext⟩ := hp
      simp only [stepProgram]
      cases hans : s.perform d c e with
      | answer a s' =>
          refine ⟨perform_transported he hans, fun rest h => ?_⟩
          cases h
          exact hnext a () trivial
      | wait =>
          refine ⟨.refl s, fun rest h => ?_⟩
          cases h
          exact ⟨he, hnext⟩
      | breakOff =>
          refine ⟨.refl s, fun rest h => ?_⟩
          cases h

/-- A program that sends and waits goes on until it has to wait. -/
theorem run_transported (hp : p.Obeys transport ()) :
    Transported s (s.run d c p).2 ∧
      ∀ rest, (s.run d c p).1 = .unfinished rest → rest.Obeys transport () := by
  induction p generalizing s with
  | done value =>
      refine ⟨.refl s, fun rest h => ?_⟩
      cases h
  | step e next ih =>
      obtain ⟨he, hnext⟩ := hp
      simp only [run]
      cases hans : s.perform d c e with
      | answer a s' =>
          obtain ⟨htail, hrest⟩ := ih a (s := s') (hnext a () trivial)
          exact ⟨(perform_transported he hans).trans htail, hrest⟩
      | wait =>
          refine ⟨.refl s, fun rest h => ?_⟩
          cases h
          exact ⟨he, hnext⟩
      | breakOff =>
          refine ⟨.refl s, fun rest h => ?_⟩
          cases h

end Programs

/-! ## Jobs -/

/-- What a job does by one effect, if it does anything. -/
inductive JobStep (s : System) (l : LaneId) : System → Prop where
  /-- There is no job, or it has to wait. -/
  | still : JobStep s l s
  /-- The program of the job has come to its end. -/
  | finish {lane : Lane Job} {t : Ticket} {c : ConnectionId} {result : Outcome Result} :
      s.pipeline.lanes.get? l = some lane → lane.running = some ⟨t, .operate c (.done result)⟩ →
      JobStep s l (s.finishJob l t result)
  | answer {lane : Lane Job} {t : Ticket} {c : ConnectionId} {e : Effect}
      {next : e.Answer → Program (Outcome Result)} {a : e.Answer} {s' : System} :
      s.pipeline.lanes.get? l = some lane → lane.running = some ⟨t, .operate c (.step e next)⟩ →
      s.perform lane.device c e = .answer a s' →
      JobStep s l (s'.suspendJob l ⟨t, .operate c (next a)⟩)
  | breakOff {lane : Lane Job} {t : Ticket} {c : ConnectionId} {e : Effect}
      {next : e.Answer → Program (Outcome Result)} :
      s.pipeline.lanes.get? l = some lane → lane.running = some ⟨t, .operate c (.step e next)⟩ →
      JobStep s l (s.finishJob l t (.error (.brokenOff lane.device)))
  /-- The descriptor of a flow is given. -/
  | observe {lane : Lane Job} {t : Ticket} {f : Flow} :
      s.pipeline.lanes.get? l = some lane → lane.running = some ⟨t, .observe f⟩ →
      JobStep s l ({ s with
          pipeline.flows := (s.pipeline.flows.observe lane.device f).2 }.finishJob l t
        (.ok (.descriptor (s.pipeline.flows.observe lane.device f).1)))
  /-- What is known of the device is forgotten. -/
  | clear {lane : Lane Job} {t : Ticket} :
      s.pipeline.lanes.get? l = some lane → lane.running = some ⟨t, .clear⟩ →
      JobStep s l ({ s with
          pipeline.groups := s.pipeline.groups.clearDevice lane.device
          pipeline.flows := s.pipeline.flows.clearDevice lane.device }.finishJob l t (.ok .done))

theorem Effects.lanes_suspendJob {s s' : System} (h : Effects s s') (l : LaneId) (job : Job) :
    (s'.suspendJob l job).pipeline.lanes =
      s.pipeline.lanes.modify l fun lane => { lane with running := some job } := by
  rw [← h.lanes]
  rfl

/-- A job that is put back as it was. -/
theorem suspendJob_self {s : System} {l : LaneId} {lane : Lane Job} {job : Job}
    (hl : s.pipeline.lanes.get? l = some lane) (hjob : lane.running = some job) :
    s.suspendJob l job = s := by
  have hsame : s.pipeline.lanes.modify l (fun lane => { lane with running := some job }) =
      s.pipeline.lanes := by
    rw [Lanes.modify]
    congr 1
    apply List.ext_getElem?
    intro i
    rw [List.getElem?_modify]
    by_cases hi : l = i
    · subst hi
      rw [Lanes.get?] at hl
      rw [hl]
      simp [← hjob]
    · simp [hi]
  rw [suspendJob, hsame]

theorem jobStep_stepJob (s : System) (l : LaneId) : JobStep s l (s.stepJob l) := by
  rw [stepJob]
  cases hl : s.pipeline.lanes.get? l with
  | none => exact .still
  | some lane =>
      dsimp only
      cases hjob : lane.running with
      | none => exact .still
      | some job =>
          obtain ⟨t, work⟩ := job
          cases work with
          | observe f => exact .observe hl hjob
          | clear => exact .clear hl hjob
          | operate c rest =>
              cases rest with
              | done result => exact .finish hl hjob
              | step e next =>
                  simp only [stepProgram]
                  cases hp : s.perform lane.device c e with
                  | answer a s' => exact .answer hl hjob hp
                  | wait =>
                      dsimp only
                      rw [suspendJob_self hl hjob]
                      exact .still
                  | breakOff => exact .breakOff hl hjob

end System

end Southbound
