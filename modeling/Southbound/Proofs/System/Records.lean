import Southbound.Proofs.Operation.Lasting
import Southbound.Proofs.System.Sessions
import Southbound.Proofs.System.WireOrder

/-!
# Records of a device

What is recorded of a device is a set of `Record`s.  A job that goes on can make one
(`System.recordedBy?`), and what is left of the job spares it.  So the record is there as
long as all other jobs of the device were accepted later and none of them removes or
replaces it (`System.Keeps.go`).
-/

namespace Southbound

/-- A group that is recorded of a device, or a flow with its descriptor. -/
inductive Record where
  | group (group : GroupId)
  | flow (key : FlowKey) (descriptor : FlowDescriptor)
deriving DecidableEq

/-- What an effect records of a device. -/
def Effect.record? (key : Flow → FlowKey) : Effect → Option Record
  | .recordGroup g => some (.group g)
  | .recordFlow f descriptor => some (.flow (key f) descriptor)
  | _ => none

namespace System

/-- Whether something is recorded of a device. -/
def Has (s : System) (d : DeviceId) : Record → Prop
  | .group g => s.pipeline.groups.contains d g = true
  | .flow key descriptor => (s.pipeline.flows.device d).byKey.get? key = some descriptor

instance (s : System) (d : DeviceId) : (r : Record) → Decidable (s.Has d r)
  | .group _ => inferInstanceAs (Decidable (_ = true))
  | .flow _ _ => inferInstanceAs (Decidable (_ = some _))

/-- What some work records of a device when it goes on. -/
def recordedBy? (s : System) (d : DeviceId) : Work → Option Record
  | .operate _ (.step e _) => e.record? s.pipeline.flows.key
  | .observe f => some (.flow (s.pipeline.flows.key f) (s.pipeline.flows.observe d f).1)
  | _ => none

/-- A run in which no operation that was accepted after another one removes or replaces a
record of a device. -/
def Undisturbed (s : System) (d : DeviceId) (r : Record) (t : Ticket) : List Event → Prop
  | [] => True
  | e :: es =>
    (∀ t' ∈ s.sourceOf? e, t < t' → s.Has d r → (s.after e).Has d r) ∧
      (s.after e).Undisturbed d r t es

instance decidableUndisturbed : (s : System) → (d : DeviceId) → (r : Record) → (t : Ticket) →
    (es : List Event) → Decidable (s.Undisturbed d r t es)
  | _, _, _, _, [] => isTrue trivial
  | s, d, r, t, e :: es =>
    have := decidableUndisturbed (s.after e) d r t es
    inferInstanceAs (Decidable (_ ∧ _))

variable {s s' : System} {d : DeviceId} {c : ConnectionId} {r : Record} {e : Event} {l : LaneId}
  {lane lane' : Lane Job} {t : Ticket} {q q₀ : Effect} {key : Flow → FlowKey}

/-! ## Records and effects -/

theorem has_congr (h : s'.records d = s.records d) : s'.Has d r ↔ s.Has d r := by
  obtain ⟨hgroups, hflows⟩ := Prod.mk.inj h
  cases r with
  | group g => rw [Has, Has, GroupPresence.contains_congr hgroups]
  | flow key descriptor => rw [Has, Has, hflows]

theorem not_has_of_blank (h : s.records d = ([], {})) : ¬s.Has d r := by
  obtain ⟨hgroups, hflows⟩ := Prod.mk.inj h
  cases r with
  | group g => simp [Has, GroupPresence.contains, hgroups]
  | flow key descriptor =>
      intro hhas
      rw [Has, hflows] at hhas
      cases hhas

/-- A record is there after an effect that does not undo what has made it. -/
theorem has_perform {a : q.Answer} (hr : q₀.record? key = some r) (hq : q.undoes q₀ = false)
    (hperform : s.perform d c q = .answer a s') (h : s.Has d r) : s'.Has d r := by
  cases performed_of_answer hperform with
  | sent hsend => exact (has_congr (records_of_pipeline (send_transported hsend).pipeline)).mpr h
  | recordedGroup g =>
      cases r with
      | flow key descriptor => exact h
      | group g' =>
          rw [Has, GroupPresence.contains, List.contains_iff_mem] at h ⊢
          rw [GroupPresence.groups_store_self, mem_insertGroup]
          exact .inr h
  | forgotGroup g =>
      cases r with
      | flow key descriptor => exact h
      | group g' =>
          cases q₀ with
          | recordGroup g₀ => cases hq
          | _ => cases hr
  | recordedFlow f descriptor =>
      cases r with
      | group g => exact h
      | flow key' descriptor' =>
          cases q₀ with
          | recordFlow f₀ descriptor₀ => cases hq
          | _ => cases hr
  | forgotFlow f =>
      cases r with
      | group g => exact h
      | flow key' descriptor' =>
          cases q₀ with
          | recordFlow f₀ descriptor₀ => cases hq
          | _ => cases hr
  | _ => exact h

/-- What an effect records is there after it, and the effect is answered. -/
theorem has_of_record? (s : System) (d : DeviceId) (c : ConnectionId)
    (hr : q.record? s.pipeline.flows.key = some r) :
    ∃ a s₁, s.perform d c q = .answer a s₁ ∧ s₁.Has d r := by
  cases q with
  | recordGroup g =>
      cases hr
      exact ⟨_, _, rfl, GroupPresence.contains_store_self ..⟩
  | recordFlow f descriptor =>
      cases hr
      refine ⟨_, _, rfl, ?_⟩
      rw [Has, FlowRegistry.device_store_self]
      exact Table.get?_set_self ..
  | _ => cases hr

/-- A flow that was seen is recorded with the descriptor that was given. -/
theorem get?_observe (r : FlowRegistry) (d : DeviceId) (f : Flow) :
    ((r.observe d f).2.device d).byKey.get? (r.key f) = some (r.observe d f).1 := by
  rw [FlowRegistry.observe]
  split
  · next hknown => exact hknown
  · simp [FlowRegistry.device]

/-! ## All jobs of a device -/

theorem DeviceStep.tickets_le (h : DeviceStep s d e s') :
    s.pipeline.tickets ≤ s'.pipeline.tickets := by
  cases h with
  | aside _ _ htickets _ => exact htickets
  | queued _ _ _ _ htickets _ => omega
  | detached _ _ _ _ _ htickets _ => omega
  | worked _ _ _ _ htickets _ => omega

/-- What holds of every job that is queued, and of what is left of a job that goes on,
holds of all jobs of a device. -/
theorem DeviceStep.forall_jobs {p : Job → Prop} (h : DeviceStep s d e s')
    (hjobs : ∀ lane ∈ s.pipeline.lanes.ofDevice d, ∀ job ∈ lane.jobs, p job)
    (hqueued : ∀ r c, p ⟨s.pipeline.tickets, Request.work s.pipeline.policy c r⟩)
    (hclear : p ⟨s.pipeline.tickets, .clear⟩)
    (hnext : ∀ t c q next a, p ⟨t, .operate c (.step q next)⟩ → p ⟨t, .operate c (next a)⟩) :
    ∀ lane ∈ s'.pipeline.lanes.ofDevice d, ∀ job ∈ lane.jobs, p job := by
  refine h.forall_lanes hjobs ?_ ?_ ?_
  · intro r c pre last _ hopen _
    rw [Lane.jobs_push]
    refine forall_mem_concat (fun job hjob => ?_) (hqueued r c)
    exact hjobs last (hopen.mem_of_mem_jobs hjob) job hjob
  · intro pre last hopen _ _
    show ∀ job ∈ (last.push _).jobs, p job
    rw [Lane.jobs_push]
    refine forall_mem_concat (fun job hjob => ?_) hclear
    exact hjobs last (hopen.mem_of_mem_jobs hjob) job hjob
  · intro l lane hlane lane' hwork
    have hlane := hjobs lane hlane
    have hwaiting {job : Job} (hjob : lane.running = some job) := Lane.jobs_of_running hjob ▸ hlane
    cases hwork with
    | started =>
        rw [Lane.jobs_start]
        exact hlane
    | answered hjob =>
        obtain ⟨hfirst, hrest⟩ := List.forall_mem_cons.mp (hwaiting hjob)
        exact List.forall_mem_cons.mpr ⟨hnext _ _ _ _ _ hfirst, hrest⟩
    | finished hjob => exact (List.forall_mem_cons.mp (hwaiting hjob)).2
    | observed hjob => exact (List.forall_mem_cons.mp (hwaiting hjob)).2
    | cleared hjob => exact (List.forall_mem_cons.mp (hwaiting hjob)).2

/-- Nothing that a job of a device has yet to do undoes what the job has done. -/
def Lasting (s : System) (d : DeviceId) : Prop :=
  ∀ lane ∈ s.pipeline.lanes.ofDevice d, ∀ job ∈ lane.jobs, ∃ done, job.work.Obeys lasting done

theorem lasting_new {config : Config} {s₀ : System} (h : System.new config = .ok s₀)
    (d : DeviceId) : s₀.Lasting d := by
  cases eq_of_new h
  exact List.forall_mem_nil _

theorem Lasting.after (hserved : s.Served) (h : s.Lasting d) (e : Event) :
    (s.after e).Lasting d := by
  have hstep := deviceStep_after hserved.plain (hserved.session d).orderly e
  refine hstep.forall_jobs h (fun r c => ⟨_, r.work_obeys_lasting _ c⟩) ⟨fun _ => False, trivial⟩ ?_
  intro t c q next a ⟨done, hobeys⟩
  exact ⟨done, hobeys.2 a done fun _ => .inl⟩

/-! ## A record that is kept -/

/-- A record of a device is there, and each job of the device either was accepted after
another one, or spares the record. -/
structure Keeps (s : System) (d : DeviceId) (r : Record) (q₀ : Effect) (t : Ticket) : Prop where
  attached : (s.pipeline.attached.get? d).isSome
  has : s.Has d r
  bound : t < s.pipeline.tickets
  jobs : ∀ lane ∈ s.pipeline.lanes.ofDevice d, ∀ job ∈ lane.jobs,
    t < job.ticket ∨ ∃ c rest, job.work = .operate c rest ∧ rest.Obeys (sparing q₀) ()

theorem Keeps.has_after (hserved : s.Served) (hr : q₀.record? key = some r) (h : s.Keeps d r q₀ t)
    (hundisturbed : ∀ t' ∈ s.sourceOf? e, t < t' → s.Has d r → (s.after e).Has d r) :
    (s.after e).Has d r := by
  have hstep := deviceStep_after hserved.plain (hserved.session d).orderly e
  generalize s.after e = s' at hstep hundisturbed ⊢
  have hsame (hrecords : s'.records d = s.records d) : s'.Has d r := (has_congr hrecords).mpr h.has
  cases hstep with
  | aside _ hrecords _ _ => exact hsame hrecords
  | queued _ _ _ hrecords _ _ => exact hsame hrecords
  | detached _ _ _ _ hrecords _ _ => exact hsame hrecords
  | @worked _ l pre post lane lane' _ hl hbefore _ hwork _ _ =>
      -- The job that goes on was accepted later, or it spares the record.
      have hjob {job : Job} (hrunning : lane.running = some job) :
          (e = .stepJob l → s'.Has d r) ∨
            ∃ c rest, job.work = .operate c rest ∧ rest.Obeys (sparing q₀) () := by
        have hmem : lane ∈ s.pipeline.lanes.ofDevice d := hbefore ▸ List.mem_append_cons_self
        refine (h.jobs lane hmem job (Lane.mem_jobs.mpr (.inl hrunning))).imp_left fun hlt he => ?_
        refine hundisturbed job.ticket ?_ hlt h.has
        simp [he, sourceOf?, Event.lane?, hl, hrunning]
      cases hwork with
      | started hrecords => exact hsame hrecords
      | finished _ hrecords => exact hsame hrecords
      | answered hrunning hperform hrecords _ =>
          rcases hjob hrunning with hhas | ⟨c, rest, hwork, hspares⟩
          · exact hhas rfl
          · cases hwork
            exact (has_congr hrecords).mpr (has_perform hr hspares.1 hperform h.has)
      | observed hrunning =>
          rcases hjob hrunning with hhas | ⟨c, rest, hwork, -⟩
          · exact hhas rfl
          · cases hwork
      | cleared hrunning =>
          rcases hjob hrunning with hhas | ⟨c, rest, hwork, -⟩
          · exact hhas rfl
          · cases hwork

theorem Keeps.after (hserved : s.Served) (hr : q₀.record? key = some r) (h : s.Keeps d r q₀ t)
    (hstays : ((s.after e).pipeline.attached.get? d).isSome)
    (hundisturbed : ∀ t' ∈ s.sourceOf? e, t < t' → s.Has d r → (s.after e).Has d r) :
    (s.after e).Keeps d r q₀ t where
  attached := hstays
  has := h.has_after hserved hr hundisturbed
  bound := Nat.lt_of_lt_of_le h.bound
    (deviceStep_after hserved.plain (hserved.session d).orderly e).tickets_le
  jobs := by
    have hstep := deviceStep_after hserved.plain (hserved.session d).orderly e
    refine hstep.forall_jobs h.jobs (fun _ _ => .inl h.bound) (.inl h.bound) ?_
    intro t' c q next a hjob
    refine hjob.imp_right fun ⟨c', rest, hwork, hspares⟩ => ?_
    cases hwork
    exact ⟨c, next a, rfl, hspares.2 a () trivial⟩

/-- A record that only operations accepted later could remove or replace is there until one
of them does so. -/
theorem Keeps.go (hserved : s.Served) (hr : q₀.record? key = some r) (h : s.Keeps d r q₀ t)
    (es : List Event) (hstays : s.StaysAttached d es) (hundisturbed : s.Undisturbed d r t es) :
    (s.go es).Has d r := by
  induction es generalizing s with
  | nil => exact h.has
  | cons e es ih =>
      exact ih (hserved.after e) (h.after hserved hr (hstays.1 h.attached) hundisturbed.1)
        hstays.2 hundisturbed.2

end System

end Southbound
