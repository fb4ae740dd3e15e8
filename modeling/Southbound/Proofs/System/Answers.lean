import Southbound.Proofs.Operation.Answers
import Southbound.Proofs.System.Records

/-!
# Records of a device and its answers

What is recorded of a device changes only when one of its jobs goes on
(`System.exists_job_of_records_ne`).  A job that records something, or forgets it, has
sent the messages on which that rests.  The device has confirmed them, or they were
withdrawn from a batch (`System.records_rest_on_answers`).

A message that waits in the queue of its connection can be withdrawn, and then it is never
written.  What a batch was to record is recorded all the same
(`System.recorded_though_withdrawn`).
-/

namespace Southbound.System

/-! ## What is asked for in a run -/

/-- The request that is accepted in an event, with its number. -/
def requested? (s : System) : Event → Option (Ticket × Request)
  | .submit r _ => (s.pipeline.submit r).1.toOption.map fun t => (t, r)
  | _ => none

/-- The requests that are accepted in a run. -/
def requestedIn (s : System) : List Event → List (Ticket × Request)
  | [] => []
  | e :: es => (s.requested? e).toList ++ (s.after e).requestedIn es

/-- The message that a job sends in an event, with the number of the job. -/
def asked? (s : System) (e : Event) : Option (Ticket × Promise × Message) :=
  (e.lane?.bind s.pipeline.lanes.get?).bind fun lane =>
    match lane.running with
    | some ⟨t, .operate c (.step (.send m) _)⟩ => (s.send c none m).map fun r => (t, r.1, m)
    | _ => none

/-- The messages that jobs send in a run. -/
def askedIn (s : System) : List Event → List (Ticket × Promise × Message)
  | [] => []
  | e :: es => (s.asked? e).toList ++ (s.after e).askedIn es

/-- The device has confirmed a message. -/
def Confirmed (s : System) (p : Promise) (m : Message) : Prop :=
  ∃ o, s.result? p = some o ∧ s.pipeline.policy.rule.confirms m o = true

/-- A message was withdrawn before it was handed to the wire. -/
def Withdrawn (s : System) (p : Promise) : Prop := s.result? p = some (.error .cancelled)

/-- Whether an outcome is that of a message which was withdrawn. -/
def isWithdrawal : Outcome Message → Bool
  | .error .cancelled => true
  | _ => false

theorem withdrawn_iff (s : System) (p : Promise) :
    (s.result? p).any isWithdrawal = true ↔ s.Withdrawn p := by
  rw [Withdrawn, Option.any_eq_true]
  constructor
  · rintro ⟨o, ho, hwithdrawal⟩
    rw [ho]
    cases o with
    | ok m => cases hwithdrawal
    | error cause =>
        cases cause with
        | cancelled => rfl
        | _ => cases hwithdrawal
  · exact fun ho => ⟨_, ho, rfl⟩

instance (s : System) (p : Promise) : Decidable (s.Withdrawn p) :=
  decidable_of_iff _ (s.withdrawn_iff p)

variable {s s' : System} {d : DeviceId} {c : ConnectionId} {e : Event} {l : LaneId}
  {lane : Lane Job} {t : Ticket} {p : Promise} {m : Message} {o : Outcome Message} {r : Request}
  {requested requested' : List (Ticket × Request)}
  {asked asked' : List (Ticket × Promise × Message)}

theorem requestedIn_concat (s : System) (es : List Event) (e : Event) :
    s.requestedIn (es ++ [e]) = s.requestedIn es ++ ((s.go es).requested? e).toList := by
  induction es generalizing s with
  | nil => simp [requestedIn]
  | cons e' es ih =>
      rw [List.cons_append, requestedIn, requestedIn, ih, go_cons, List.append_assoc]

theorem askedIn_concat (s : System) (es : List Event) (e : Event) :
    s.askedIn (es ++ [e]) = s.askedIn es ++ ((s.go es).asked? e).toList := by
  induction es generalizing s with
  | nil => simp [askedIn]
  | cons e' es ih => rw [List.cons_append, askedIn, askedIn, ih, go_cons, List.append_assoc]

theorem requested?_eq_some (h : s.requested? e = some (t, r)) :
    ∃ quiet p, e = .submit r quiet ∧ s.pipeline.submit r = (.ok t, p) := by
  cases e with
  | submit r' quiet =>
      cases hsubmit : s.pipeline.submit r' with
      | mk result p =>
          rw [requested?, hsubmit] at h
          cases result with
          | error cause => cases h
          | ok t' =>
              cases h
              exact ⟨quiet, p, rfl, hsubmit⟩
  | _ => cases h

/-- A number that was given before is that of a request that was accepted before. -/
theorem mem_of_lt_ticket {r' : Request} {tickets : Ticket} (ht : t < tickets)
    (hmem : (t, r') ∈ requested ++ [(tickets, r)]) : (t, r') ∈ requested := by
  rcases List.mem_append.mp hmem with hold | hnew
  · exact hold
  · cases List.mem_singleton.mp hnew
    exact absurd ht (Nat.lt_irrefl _)

/-! ## What stays -/

/-- A result that is known stays as it is. -/
theorem result?_after (hplain : s.Plain) (haccounted : s.Accounted) (e : Event)
    (h : s.result? p = some o) : (s.after e).result? p = some o := by
  obtain ⟨conn, hc, hresult⟩ := Option.bind_eq_some_iff.mp h
  obtain ⟨conn', hc', hround⟩ := exists_round hplain e hc
  have hkept (conn : Connection) (e : Connection.Event)
      (h : conn.Accounted ∧ p.reply.result? conn.registry = some o) :
      (conn.after e).Accounted ∧ p.reply.result? (conn.after e).registry = some o := by
    refine ⟨h.1.after e, ?_⟩
    cases hreply : p.reply with
    | failed x cause =>
        rw [hreply] at h
        exact h.2
    | awaited x slot =>
        rw [hreply] at h
        obtain ⟨calls, hcalls, -⟩ := conn.registry_after e
        rw [hcalls]
        exact h.1.sound.result?_after h.2 calls
  have hresult' := (hround.inv _ hkept ⟨haccounted _ conn hc, hresult⟩).2
  rw [result?, hc', Option.bind_some, hresult']

/-- The settings of a pipeline stay as they are. -/
theorem config_after (hplain : s.Plain) (e : Event) :
    (s.after e).pipeline.config = s.pipeline.config := by
  have hstep := (step_after hplain e).1
  generalize s.after e = s' at hstep ⊢
  cases hstep with
  | quiet _ hp _ _ _ => rw [hp]
  | opened => rfl
  | submitted hsubmit _ _ _ =>
      obtain ⟨c, -, -, -, hp⟩ := submit_ok hsubmit
      rw [hp]
      rfl
  | attached _ _ _ hp _ _ _ => rw [hp]
  | detached _ _ _ hp _ _ _ =>
      rw [hp]
      rfl
  | closed hp _ _ _ => rw [hp]
  | started l => rfl
  | job hjob =>
      cases hjob with
      | answer _ _ hperform => exact (perform_effects hperform).config
      | _ => rfl

theorem policy_after (hplain : s.Plain) (e : Event) :
    (s.after e).pipeline.policy = s.pipeline.policy := by
  rw [Pipeline.policy, config_after hplain e, Pipeline.policy]

/-- What the device has confirmed stays confirmed. -/
theorem Confirmed.after (hserved : s.Served) (h : s.Confirmed p m) (e : Event) :
    (s.after e).Confirmed p m := by
  obtain ⟨o, ho, hconfirms⟩ := h
  refine ⟨o, result?_after hserved.plain hserved.accounted e ho, ?_⟩
  rw [policy_after hserved.plain]
  exact hconfirms

theorem Withdrawn.after (hserved : s.Served) (h : s.Withdrawn p) (e : Event) :
    (s.after e).Withdrawn p :=
  result?_after hserved.plain hserved.accounted e h

/-! ## What jobs have heard -/

/-- What is known of the messages that a job has sent on its connection. -/
def heard (s : System) (asked : List (Ticket × Promise × Message)) (t : Ticket)
    (c : ConnectionId) : Heard where
  sent p m := (t, p, m) ∈ asked ∧ p.connection = c
  known p o := s.result? p = some o

/-- If a program for a request succeeds, the request speaks for its messages. -/
def Fulfils (s : System) (r : Request) (k : Heard) (result : Outcome Result) : Prop :=
  ∀ v, result = .ok v → r.Fulfilled v (k.Over r s.pipeline.policy.rule)

/-- What a job of a device has yet to do was asked for, and it heeds the answers to what the
job has sent. -/
def Heeds (s : System) (requested : List (Ticket × Request))
    (asked : List (Ticket × Promise × Message)) (d : DeviceId) (job : Job) : Prop :=
  ∀ c rest, job.work = .operate c rest → ∃ r, (job.ticket, r) ∈ requested ∧ r.device = d ∧
    rest.Follows (answered s.pipeline.policy.rule r) (s.heard asked job.ticket c) (s.Fulfils r)

/-- Later more is known. -/
theorem heard_grows (hasked : ∀ a ∈ asked, a ∈ asked')
    (hresult : ∀ p o, s.result? p = some o → s'.result? p = some o) (t : Ticket)
    (c : ConnectionId) : (s.heard asked t c).Grows (s'.heard asked' t c) :=
  ⟨fun _ _ h => ⟨hasked _ h.1, h.2⟩, hresult⟩

theorem fulfils_eq (hpolicy : s'.pipeline.policy = s.pipeline.policy) :
    s'.Fulfils r = s.Fulfils r := by
  funext k result
  rw [Fulfils, hpolicy, Fulfils]

theorem Heeds.mono {job : Job} (h : s.Heeds requested asked d job)
    (hpolicy : s'.pipeline.policy = s.pipeline.policy)
    (hrequested : ∀ a ∈ requested, a ∈ requested')
    (hgrows : ∀ t c, (s.heard asked t c).Grows (s'.heard asked' t c)) :
    s'.Heeds requested' asked' d job := by
  intro c rest hwork
  obtain ⟨r, hr, hd, hfollows⟩ := h c rest hwork
  refine ⟨r, hrequested _ hr, hd, ?_⟩
  rw [fulfils_eq hpolicy, hpolicy]
  exact hfollows.mono_heard (hgrows job.ticket c) fun _ hfulfils v hv =>
    (hfulfils v hv).mono fun p m hover => hover.mono (hgrows job.ticket c)

theorem forall₂_of_results? {ps : List Promise} {results : List Settled}
    (h : s.results? ps = some results) :
    List.Forall₂ (fun p x => s.result? p = some x.2) ps results := by
  induction ps generalizing results with
  | nil =>
      cases h
      exact .nil
  | cons p ps ih =>
      rw [results?, List.mapM_cons] at h
      obtain ⟨x, hx, h⟩ := Option.bind_eq_some_iff.mp h
      obtain ⟨xs, hxs, h⟩ := Option.bind_eq_some_iff.mp h
      obtain ⟨o, ho, rfl⟩ := Option.map_eq_some_iff.mp hx
      cases h
      exact .cons ho (ih hxs)

/-- What a job knows after an effect was answered. -/
theorem next_of_perform {q : Effect} {a : q.Answer} {s₁ : System} {rule : GroupExistsRule}
    (hperform : s.perform d c q = .answer a s₁)
    (hgrows : (s.heard asked t c).Grows (s'.heard asked' t c))
    (hsent : ∀ m p, s.send c none m = some (p, s₁) → q = .send m → (t, p, m) ∈ asked') :
    (answered rule r).next (s.heard asked t c) q a (s'.heard asked' t c) := by
  cases performed_of_answer hperform with
  | sent hsend => exact ⟨hgrows, hsent _ _ hsend rfl, (promised_send hsend).1⟩
  | awaited hresult => exact ⟨hgrows, hgrows.known _ _ hresult⟩
  | @gathered members last results closing hresults hclosing =>
      refine ⟨hgrows, (forall₂_of_results? hresults).imp fun p _ => hgrows.known p _, ?_⟩
      intro p hp
      cases hp
      obtain ⟨x, rest, hx, -, rfl⟩ := List.forall₂_cons_left_iff.mp (forall₂_of_results? hclosing)
      exact ⟨x, rfl, hgrows.known p _ hx⟩
  | _ => exact hgrows

theorem heeds_after (hplain : s.Plain) (haccounted : s.Accounted)
    (h : s.pipeline.lanes.AllJobs (s.Heeds requested asked)) (e : Event) :
    (s.after e).pipeline.lanes.AllJobs ((s.after e).Heeds
      (requested ++ (s.requested? e).toList) (asked ++ (s.asked? e).toList)) := by
  have hpolicy := policy_after hplain e
  have hresult (p : Promise) (o : Outcome Message) :=
    result?_after (p := p) (o := o) hplain haccounted e
  have hstep := (step_after hplain e).1
  generalize s.after e = s' at hpolicy hresult hstep ⊢
  have hgrows (t : Ticket) (c : ConnectionId) :
      (s.heard asked t c).Grows (s'.heard (asked ++ (s.asked? e).toList) t c) :=
    heard_grows (fun _ => List.mem_append_left _) hresult t c
  have hjobs : s.pipeline.lanes.AllJobs (s'.Heeds (requested ++ (s.requested? e).toList)
      (asked ++ (s.asked? e).toList)) :=
    h.mono fun d job hjob => hjob.mono hpolicy (fun _ => List.mem_append_left _) hgrows
  cases hstep with
  | quiet _ hp _ _ _ =>
      rw [hp]
      exact hjobs
  | opened => exact hjobs
  | @submitted r quiet t _ hsubmit _ _ _ =>
      obtain ⟨c, -, -, rfl, hp⟩ := submit_ok hsubmit
      rw [hp]
      refine hjobs.enqueue fun c' rest hwork => ⟨r, ?_, rfl, ?_⟩
      · refine List.mem_append_right _ ?_
        simp [requested?, hsubmit, Except.toOption]
      · have hwork' : r.work s.pipeline.policy c = .operate c' rest := hwork
        have hfollows (k : Heard) := r.work_follows_answered s.pipeline.policy c k
        rw [fulfils_eq hpolicy, hpolicy]
        exact (hwork' ▸ hfollows) _
  | attached _ _ _ hp _ _ _ =>
      rw [hp]
      exact hjobs
  | @detached _ d c closed _ _ _ hp _ _ _ =>
      rw [hp]
      exact Lanes.AllJobs.removeDevice (hjobs.enqueue fun c' rest hwork => by cases hwork) d
  | closed hp _ _ _ =>
      rw [hp]
      exact hjobs
  | started l => exact hjobs.start l
  | @job l _ hjob =>
      cases hjob with
      | still => exact hjobs
      | finish => exact hjobs.finish l
      | breakOff => exact hjobs.finish l
      | observe => exact hjobs.finish l
      | clear => exact hjobs.finish l
      | @answer lane t c q next a s₁ hl hjob hperform =>
          rw [(perform_effects hperform).lanes_suspendJob]
          refine hjobs.modify l fun lane' hl' job hmem => ?_
          cases hl.symm.trans hl'
          cases Lane.mem_jobs.mp hmem with
          | inr hwaiting => exact hjobs l lane hl job (Lane.mem_jobs.mpr (.inr hwaiting))
          | inl hrunning =>
              cases hrunning
              intro c' rest hwork
              cases hwork
              obtain ⟨r, hr, hd, hfollows⟩ := h l lane hl _ (Lane.mem_jobs.mpr (.inl hjob)) c _ rfl
              refine ⟨r, List.mem_append_left _ hr, hd, ?_⟩
              rw [fulfils_eq hpolicy, hpolicy]
              refine hfollows.2 a _ (next_of_perform hperform (hgrows t c) fun m p hsend hq => ?_)
              subst hq
              refine List.mem_append_right _ ?_
              simp [asked?, Event.lane?, hl, hjob, hsend]

/-! ## Records change only in jobs -/

/-- What is recorded of a device changes only when a job of the device goes on. -/
theorem exists_job_of_records_ne (hserved : s.Served)
    (hne : (s.after e).records d ≠ s.records d) :
    ∃ l lane job, e = .stepJob l ∧ s.pipeline.lanes.get? l = some lane ∧ lane.device = d ∧
      lane.running = some job ∧ (job.work = .clear ∨ (∃ f, job.work = .observe f) ∨
        ∃ c q next, job.work = .operate c (.step q next)) := by
  have hstep := deviceStep_after hserved.plain (hserved.session d).orderly e
  generalize s.after e = s' at hne hstep
  cases hstep with
  | aside _ hrecords _ _ => exact absurd hrecords hne
  | queued _ _ _ hrecords _ _ => exact absurd hrecords hne
  | detached _ _ _ _ hrecords _ _ => exact absurd hrecords hne
  | @worked _ l pre post lane lane' _ hl hbefore _ hwork _ _ =>
      have hlane : lane ∈ s.pipeline.lanes.ofDevice d := hbefore ▸ List.mem_append_cons_self
      have hd : lane.device = d := (Lanes.mem_ofDevice.mp hlane).2
      cases hwork with
      | started hrecords => exact absurd hrecords hne
      | finished _ hrecords _ => exact absurd hrecords hne
      | answered hjob => exact ⟨l, lane, _, rfl, hl, hd, hjob, .inr (.inr ⟨_, _, _, rfl⟩)⟩
      | observed hjob => exact ⟨l, lane, _, rfl, hl, hd, hjob, .inr (.inl ⟨_, rfl⟩)⟩
      | cleared hjob => exact ⟨l, lane, _, rfl, hl, hd, hjob, .inl rfl⟩

/-! ## Runs -/

section Runs

variable {config : Config} {s₀ : System} (hnew : System.new config = .ok s₀)
include hnew

theorem heeds_go (es : List Event) :
    (s₀.go es).pipeline.lanes.AllJobs ((s₀.go es).Heeds (s₀.requestedIn es) (s₀.askedIn es)) := by
  induction es using List.reverseRecOn with
  | nil =>
      cases eq_of_new hnew
      intro l lane hl
      cases hl
  | append_singleton es e ih =>
      have hserved := (served_new hnew).go es
      rw [go_concat, requestedIn_concat, askedIn_concat]
      exact heeds_after hserved.plain hserved.accounted ih e

/-- The messages on which the next effect of a job rests are done. -/
theorem rests_go (es : List Event) {q : Effect} {next : q.Answer → Program (Outcome Result)}
    (hl : (s₀.go es).pipeline.lanes.get? l = some lane)
    (hjob : lane.running = some ⟨t, .operate c (.step q next)⟩) :
    ∃ r, (t, r) ∈ s₀.requestedIn es ∧ r.device = lane.device ∧
      q.RestsOn r fun p m => (t, p, m) ∈ s₀.askedIn es ∧ p.connection = c ∧
        ((s₀.go es).Confirmed p m ∨ r.inBatch m = true ∧ (s₀.go es).Withdrawn p) := by
  obtain ⟨r, hr, hd, hmay, -⟩ :=
    heeds_go hnew es l lane hl _ (Lane.mem_jobs.mpr (.inl hjob)) c _ rfl
  refine ⟨r, hr, hd, Effect.RestsOn.mono hmay fun p m hdone => ?_⟩
  obtain ⟨⟨hsent, hc⟩, o, ho, hcounts⟩ := hdone
  refine ⟨hsent, hc, hcounts.imp (fun hconfirms => ⟨o, ho, hconfirms⟩) fun hbatch => ?_⟩
  obtain ⟨hbatch, rfl⟩ := hbatch
  exact ⟨hbatch, ho⟩

/-- What is recorded of a device changes only when one of its jobs goes on, and a job that
changes it has sent the messages on which that rests, on its connection.  Each of them was
confirmed by the device, or withdrawn from a batch, and if none was withdrawn from a batch,
all were confirmed. -/
theorem records_rest_on_answers (es : List Event) :
    (∀ e d, ((s₀.go es).after e).records d ≠ (s₀.go es).records d →
      ∃ l lane job, e = .stepJob l ∧ (s₀.go es).pipeline.lanes.get? l = some lane ∧
        lane.device = d ∧ lane.running = some job ∧
        (job.work = .clear ∨ (∃ f, job.work = .observe f) ∨
          ∃ c q next, job.work = .operate c (.step q next))) ∧
    ∀ l lane t c q next, (s₀.go es).pipeline.lanes.get? l = some lane →
      lane.running = some ⟨t, .operate c (.step q next)⟩ →
      ∃ r, (t, r) ∈ s₀.requestedIn es ∧ r.device = lane.device ∧
        q.RestsOn r (fun p m => (t, p, m) ∈ s₀.askedIn es ∧ p.connection = c ∧
          ((s₀.go es).Confirmed p m ∨ r.inBatch m = true ∧ (s₀.go es).Withdrawn p)) ∧
        ((∀ p m, (t, p, m) ∈ s₀.askedIn es → r.inBatch m = true → ¬(s₀.go es).Withdrawn p) →
          q.RestsOn r fun p m => (t, p, m) ∈ s₀.askedIn es ∧ p.connection = c ∧
            (s₀.go es).Confirmed p m) := by
  refine ⟨fun e d hne => exists_job_of_records_ne ((served_new hnew).go es) hne, ?_⟩
  intro l lane t c q next hl hjob
  obtain ⟨r, hr, hd, hrests⟩ := rests_go hnew es hl hjob
  refine ⟨r, hr, hd, hrests, fun hkept => hrests.mono fun p m hdone => ?_⟩
  obtain ⟨hsent, hc, hcounts⟩ := hdone
  refine ⟨hsent, hc, hcounts.resolve_right fun hwithdrawn => ?_⟩
  exact hkept p m hsent hwithdrawn.1 hwithdrawn.2

end Runs

/-! ## Messages that are withdrawn -/

namespace Withdrawal

/-- The device. -/
def device : DeviceId := ⟨"openflow:1"⟩

def path : FlowPath := ⟨device, ⟨0⟩, ⟨"f"⟩⟩

def flow (barrier : Bool) : Flow := { table := ⟨0⟩, barrier }

def group : Group := { id := ⟨7⟩ }

/-- Something is asked for, and its first message is sent. -/
def asking (r : Request) : List Event := [.submit r false, .startJob 0, .stepJob 0]

/-- A flow with a barrier is asked for, and the device confirms both messages. -/
def confirmed : List Event :=
  [.openConnection device .confirming 64, .attach 0] ++ asking (.addFlow path (flow true)) ++
    [.stepJob 0, .writer 0, .writer 0, .writer 0, .writer 0, .receive 0 [0], .receive 0 [0, 0],
      .stepJob 0]

/-- A message is sent under the transaction id that is allocated next, and it is answered.
Its errand keeps the id, and withdraws what is sent under it then.  Whatever else is sent is
answered, and the operation ends. -/
def withdrawn (r : Request) : List Event :=
  [.openConnection device .confirming 64, .attach 0, .send 0 (some ⟨1⟩) .barrierRequest,
      .receive 0 [0]] ++ asking r ++
    [.cancel 1, .stepJob 0, .writer 0, .writer 0, .writer 0, .writer 0, .receive 0 [0, 0],
      .stepJob 0, .stepJob 0, .stepJob 0, .stepJob 0]

end Withdrawal

theorem records_rest_on_answers_of_confirmed :
    ∃ s₀ p, System.new {} = .ok s₀ ∧
      (0, p, .flowMod (.add (Withdrawal.flow true))) ∈ s₀.askedIn Withdrawal.confirmed ∧
      p.connection = 0 ∧
      (s₀.go Withdrawal.confirmed).Confirmed p (.flowMod (.add (Withdrawal.flow true))) := by
  let s₀ := start
  have hnew : System.new {} = .ok s₀ := rfl
  let es := Withdrawal.confirmed
  have hrequested : s₀.requestedIn es =
      [(0, .addFlow Withdrawal.path (Withdrawal.flow true))] := by decide
  have hnone : ∀ a ∈ s₀.askedIn es, ¬(s₀.go es).Withdrawn a.2.1 := by decide
  have hview : (((s₀.go es).pipeline.lanes.get? 0).bind Lane.running).map
      (fun job => (job.ticket, job.holds 0, (s₀.go es).recordedBy? Withdrawal.device job.work)) =
      some (0, true, some (.flow ((Withdrawal.flow true).key {}) Withdrawal.path.descriptor)) := by
    decide
  refine ⟨s₀, ?_⟩
  show ∃ p, System.new {} = .ok s₀ ∧
    (0, p, .flowMod (.add (Withdrawal.flow true))) ∈ s₀.askedIn es ∧ p.connection = 0 ∧
    (s₀.go es).Confirmed p (.flowMod (.add (Withdrawal.flow true)))
  -- From here on the states are not to be computed.
  generalize s₀ = s at *
  generalize es = es at *
  obtain ⟨⟨t, work⟩, hrunning, hjob⟩ := Option.map_eq_some_iff.mp hview
  obtain ⟨lane, hl, hrunning⟩ := Option.bind_eq_some_iff.mp hrunning
  simp only [Prod.mk.injEq] at hjob
  obtain ⟨rfl, hholds, hrecord⟩ := hjob
  cases work with
  | observe f => cases hholds
  | clear => cases hholds
  | operate c rest =>
      cases rest with
      | done result => cases hrecord
      | step q next =>
          cases q with
          | recordFlow f descriptor =>
              obtain ⟨r, hr, -, -, hrests⟩ :=
                (records_rest_on_answers hnew es).2 0 lane 0 c _ next hl hrunning
              rw [hrequested, List.mem_singleton] at hr
              cases hr
              obtain ⟨-, hdone⟩ := hrests fun p m hmem _ => hnone _ hmem
              obtain ⟨p, hsent, hc, hconfirmed⟩ := hdone _ (.head _)
              exact ⟨p, hnew, hsent, hc.trans (of_decide_eq_true hholds), hconfirmed⟩
          | _ => cases hrecord

/-- A flow with a barrier is recorded, and so is a group of a batch, although its message was
withdrawn and never written.  Without a barrier and a batch neither is. -/
theorem recorded_though_withdrawn :
    ∃ s₀ p, System.new {} = .ok s₀ ∧
      (let es := Withdrawal.withdrawn (.addFlow Withdrawal.path (Withdrawal.flow true))
      s₀.askedIn es = [(0, p, .flowMod (.add (Withdrawal.flow true))),
          (0, ⟨0, .awaited ⟨2⟩ 2⟩, .barrierRequest)] ∧
        (s₀.go es).Withdrawn p ∧ (s₀.go es).connections.map (·.wire.sent) = [[[0, 0]]] ∧
        (s₀.go es).pipeline.flows.retrieve Withdrawal.device (Withdrawal.flow true) =
          some Withdrawal.path.descriptor) ∧
      (let es := Withdrawal.withdrawn (.addGroups Withdrawal.device [Withdrawal.group] false)
      s₀.askedIn es = [(0, p, .groupMod ⟨.add, Withdrawal.group⟩)] ∧ (s₀.go es).Withdrawn p ∧
        (s₀.go es).connections.map (·.wire.sent) = [[]] ∧
        (s₀.go es).Has Withdrawal.device (.group Withdrawal.group.id)) ∧
      (let s := s₀.go (Withdrawal.withdrawn (.addFlow Withdrawal.path (Withdrawal.flow false)))
      s.jobResult? 0 = some (.error .cancelled) ∧
        s.pipeline.flows.retrieve Withdrawal.device (Withdrawal.flow false) = none) ∧
      let s := s₀.go (Withdrawal.withdrawn (.addGroup Withdrawal.device Withdrawal.group))
      s.jobResult? 0 = some (.error .cancelled) ∧
        ¬s.Has Withdrawal.device (.group Withdrawal.group.id) :=
  ⟨_, ⟨0, .awaited ⟨1⟩ 1⟩, rfl, ⟨rfl, rfl, rfl, by decide⟩, ⟨rfl, rfl, rfl, by decide⟩,
    ⟨rfl, by decide⟩, rfl, by decide⟩

end Southbound.System
