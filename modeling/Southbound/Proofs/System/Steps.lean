import Southbound.Proofs.System.Effects

/-!
# What an event can do

All that an event can do to the pipeline, to the results of its jobs and to
connections is one `Step` (`System.step_after`): nothing is done to the pipeline, a
connection is opened, a request becomes a job, a device is attached or detached,
requests are refused from then on, a lane starts a job, or a job goes on.

That there is nothing else rests on errands: a program that an errand runs sends and
waits, and does nothing to the pipeline.  Every run keeps that (`System.plain_go`).
-/

namespace Southbound

/-- An errand whose program, if it has one, sends and waits. -/
def Errand.Plain : Errand → Prop
  | .program _ rest => rest.Obeys transport ()
  | _ => True

/-- The pipeline when a device is detached: a job that clears its state is the last in
its lane. -/
def Pipeline.detached (p : Pipeline) (d : DeviceId) : Pipeline :=
  let p' := ({ p with attached := p.attached.erase d }.enqueue d .clear).2
  { p' with lanes := (p'.lanes.removeDevice d).2 }

namespace System

/-! ## Errands -/

/-- All errands send and wait. -/
def Plain (s : System) : Prop := ∀ e ∈ s.errands, e.2.Plain

section Plain

variable {s : System}

theorem Plain.begin (h : s.Plain) {e : Errand} (he : e.Plain) : (s.begin e).2.Plain := by
  intro e' he'
  cases List.mem_append.mp he' with
  | inl hm => exact h e' hm
  | inr hm => exact List.mem_singleton.mp hm ▸ he

theorem Plain.setErrand (h : s.Plain) (n : ErrandId) {e : Errand} (he : e.Plain) :
    (s.setErrand n e).Plain := by
  intro e' he'
  obtain ⟨⟨n', e₀⟩, hm, rfl⟩ := List.mem_map.mp he'
  dsimp only
  split
  · exact he
  · exact h _ hm

theorem Plain.filter (h : s.Plain) (p : ErrandId × Errand → Bool) :
    Plain { s with errands := s.errands.filter p } :=
  fun e he => h e (List.mem_filter.mp he).1

theorem Plain.of_errands (h : s.Plain) {s' : System} (he : s'.errands = s.errands) : s'.Plain := by
  rw [Plain]
  rw [he]
  exact h

theorem Plain.errand? (h : s.Plain) {n : ErrandId} {e : Errand} (he : s.errand? n = some e) :
    e.Plain := by
  rw [System.errand?] at he
  obtain ⟨l₁, l₂, hsplit, -⟩ := List.lookup_eq_some_iff.mp he
  exact h (n, e) (hsplit ▸ by simp)

/-- An errand that has come so far with its program. -/
theorem plain_errand {d : DeviceId} {c : ConnectionId} {progress : Progress (Outcome Result)}
    (h : ∀ rest, progress = .unfinished rest → rest.Obeys transport ()) :
    (progress.errand d c).Plain := by
  cases progress with
  | finished result => trivial
  | unfinished rest => exact h rest rfl
  | broken => trivial

theorem transport_patient : transport.Patient := ⟨fun _ => rfl, fun _ _ => rfl, fun _ _ _ => rfl⟩

/-- An errand that runs a program which sends and waits is begun. -/
theorem beginProgram_transported (c : ConnectionId) {o : Operation Unit}
    (ho : Operation.Follows transport () o fun _ _ => True) (h : s.Plain) :
    (s.beginProgram c o).2.pipeline = s.pipeline ∧ (s.beginProgram c o).2.results = s.results ∧
      (s.beginProgram c o).2.store = s.store ∧
      Connected Connection.SentOn s (s.beginProgram c o).2 ∧ (s.beginProgram c o).2.Plain := by
  have hobeys : (Functor.map (fun _ => Result.done) o).run.Obeys transport () :=
    Work.obeys_ofUnit (c := c) ho
  obtain ⟨htail, hrest⟩ := run_transported (s := s) (d := s.errandDevice c) (c := c) hobeys
  refine ⟨htail.pipeline, htail.results, htail.store, htail.connections, ?_⟩
  exact (h.of_errands htail.errands).begin (plain_errand hrest)

end Plain

/-! ## Devices -/

/-- A request that becomes a job has passed all checks. -/
theorem submit_ok {p p' : Pipeline} {r : Request} {t : Ticket} (h : p.submit r = (.ok t, p')) :
    ∃ c, r.check = .ok () ∧ p.channel r.device = .ok c ∧ t = p.tickets ∧
      p' = (p.enqueue r.device (r.work p.policy c)).2 := by
  rw [Pipeline.submit] at h
  split at h
  · cases h
  · next hcheck =>
      split at h
      · cases h
      · next c hc =>
          cases h
          exact ⟨c, hcheck, hc, rfl, rfl⟩

section Devices

variable {s s' : System} {d : DeviceId} {c : ConnectionId} {t : Ticket}

/-- What is the same before and after a device is attached or detached. -/
structure Administered (s s' : System) : Prop where
  store : s'.store = s.store
  results : s'.results = s.results
  errands : s'.errands = s.errands
  connections : Connected Connection.Round s s'

theorem disconnect_connected (s : System) (c : ConnectionId) :
    Connected Connection.Round s (s.disconnect c) :=
  connected_modify .refl s c fun _ _ => .once .disconnect

/-- A connection takes the place of the one that its device had, which is ended. -/
theorem insert_eq (hd : s.deviceOf? c = some d) : s.insert c = { s with
    pipeline.attached := s.pipeline.attached.set d c
    connections := match s.pipeline.attached.get? d with
      | some c' => s.connections.modify c' Connection.disconnect
      | none => s.connections } := by
  rw [insert, hd]
  dsimp only
  cases s.pipeline.attached.get? d with
  | none => rfl
  | some c' => rfl

theorem insert_of_none (hd : s.deviceOf? c = none) : s.insert c = s := by
  rw [insert, hd]

/-- A connection takes its place, if there is such a connection. -/
theorem insert_cases (s : System) (c : ConnectionId) :
    s.deviceOf? c = none ∧ s.insert c = s ∨
      ∃ d, s.deviceOf? c = some d ∧
        (s.insert c).pipeline = { s.pipeline with attached := s.pipeline.attached.set d c } ∧
        Administered s (s.insert c) := by
  cases hd : s.deviceOf? c with
  | none => exact .inl ⟨rfl, insert_of_none hd⟩
  | some d =>
      rw [insert_eq hd]
      refine .inr ⟨d, rfl, rfl, rfl, rfl, rfl, ?_⟩
      cases s.pipeline.attached.get? d with
      | none => exact .of_eq .refl rfl
      | some c' => exact disconnect_connected s c'

theorem detach?_cases (h : s.detach? d = some (t, s')) :
    ∃ c, s.pipeline.attached.get? d = some c ∧ s'.pipeline = s.pipeline.detached d ∧
      Administered s s' := by
  rw [detach?] at h
  cases hc : s.pipeline.attached.get? d with
  | none =>
      rw [hc] at h
      cases h
  | some c =>
      rw [hc] at h
      cases h
      exact ⟨c, rfl, rfl, rfl, rfl, rfl, disconnect_connected s c⟩

/-- Of some devices, one that is attached is detached, or none is attached. -/
theorem detachNext_cases (s : System) (ds : List DeviceId) :
    (∃ d ∈ ds, ∃ c, s.pipeline.attached.get? d = some c ∧
        (s.detachNext ds).2.pipeline = s.pipeline.detached d ∧
        Administered s (s.detachNext ds).2 ∧ (s.detachNext ds).1.Plain) ∨
      s.detachNext ds = (.over (.ok .done), s) := by
  induction ds with
  | nil => exact .inr rfl
  | cons d ds ih =>
      rw [detachNext]
      cases hd : s.detach? d with
      | some r =>
          obtain ⟨t, s'⟩ := r
          obtain ⟨c, hc, hp, hadm⟩ := detach?_cases hd
          exact .inl ⟨d, .head _, c, hc, hp, hadm, trivial⟩
      | none =>
          cases ih with
          | inl h =>
              obtain ⟨d', hd', h⟩ := h
              exact .inl ⟨d', .tail _ hd', h⟩
          | inr h => exact .inr h

end Devices

/-! ## Events -/

/-- What an event can do to the groups that are configured. -/
inductive Configured (st : Store) : Store → Prop where
  | kept {st' : Store} : st'.groups = st.groups → Configured st st'
  | put (d : DeviceId) (g : Group) : Configured st (st.putGroup d g)
  /-- A group is configured no longer. -/
  | removed (d : DeviceId) (g : GroupId) : Configured st (st.removeGroup d g).2

/-- The lane whose job goes on in an event. -/
def Event.lane? : Event → Option LaneId
  | stepJob l => some l
  | _ => none

/-- All that an event can do to the pipeline, to the results of jobs and to
connections. -/
inductive Step (s : System) : Event → System → Prop where
  | quiet {e : Event} {s' : System} :
      e.lane? = none → s'.pipeline = s.pipeline → s'.results = s.results →
      Configured s.store s'.store → Connected Connection.Round s s' → Step s e s'
  | opened {d : DeviceId} {codec : Codec} {wireCapacity : Nat} {conn : Connection} :
      Connection.open? d codec wireCapacity s.pipeline.config s.now = some conn →
      Step s (.openConnection d codec wireCapacity)
        { s with connections := s.connections ++ [conn] }
  | submitted {r : Request} {quiet : Bool} {t : Ticket} {s' : System} :
      s.pipeline.submit r = (.ok t, s'.pipeline) → s'.results = s.results →
      s'.store = s.store → s'.connections = s.connections → Step s (.submit r quiet) s'
  | attached {e : Event} {c : ConnectionId} {d : DeviceId} {s' : System} :
      e.lane? = none → s.attaching? e = some c → s.deviceOf? c = some d →
      s'.pipeline = { s.pipeline with attached := s.pipeline.attached.set d c } →
      s'.results = s.results → s'.store = s.store → Connected Connection.Round s s' → Step s e s'
  /-- A device is detached, and requests may be refused from then on. -/
  | detached {e : Event} {d : DeviceId} {c : ConnectionId} (closed : Bool) {s' : System} :
      e.lane? = none → s.pipeline.attached.get? d = some c →
      s'.pipeline = { s.pipeline with shuttingDown := closed }.detached d →
      s'.results = s.results → s'.store = s.store → Connected Connection.Round s s' → Step s e s'
  /-- Requests are refused from then on. -/
  | closed {s' : System} :
      s'.pipeline = { s.pipeline with shuttingDown := true } → s'.results = s.results →
      s'.store = s.store → Connected Connection.Round s s' → Step s .shutdown s'
  /-- A lane starts its next job. -/
  | started (l : LaneId) : Step s (.startJob l) (s.startJob l)
  | job {l : LaneId} {s' : System} : JobStep s l s' → Step s (.stepJob l) s'

section Events

variable {s : System}

/-- An event changes connections one by one, or opens a new one. -/
theorem Step.connections {e : Event} {s' : System} (h : Step s e s') :
    Connected Connection.Round s s' ∨
      ∃ d codec wireCapacity conn,
        Connection.open? d codec wireCapacity s.pipeline.config s.now = some conn ∧
          s'.connections = s.connections ++ [conn] := by
  cases h with
  | quiet _ _ _ _ hconn => exact .inl hconn
  | opened hopen => exact .inr ⟨_, _, _, _, hopen, rfl⟩
  | submitted _ _ _ hconn => exact .inl (.of_eq .refl hconn)
  | attached _ _ _ _ _ _ hconn => exact .inl hconn
  | detached _ _ _ _ _ _ hconn => exact .inl hconn
  | closed _ _ _ hconn => exact .inl hconn
  | started l => exact .inl (.of_eq .refl rfl)
  | job hjob =>
      cases hjob with
      | answer _ _ hperform =>
          exact .inl ((perform_effects hperform).connections.mono fun _ _ => .sent _)
      | _ => exact .inl (.of_eq .refl rfl)

/-- An event that touches neither the pipeline nor results, store and connections. -/
theorem Step.aside {e : Event} {s' : System} (he : e.lane? = none)
    (h : (s'.pipeline, s'.results, s'.store, s'.connections) =
      (s.pipeline, s.results, s.store, s.connections)) : Step s e s' := by
  simp only [Prod.mk.injEq] at h
  obtain ⟨hp, hr, hst, hc⟩ := h
  exact .quiet he hp hr (.kept (by rw [hst])) (.of_eq .refl hc)

/-- An event that changes one connection. -/
theorem Step.modify {e : Event} (he : e.lane? = none) (c : ConnectionId)
    {f : Connection → Connection} (hf : ∀ conn, Connection.Round conn (f conn)) :
    Step s e (s.modifyConnection c f) :=
  .quiet he rfl rfl (.kept rfl) (connected_modify .refl s c fun conn _ => hf conn)

theorem JobStep.errands {l : LaneId} {s' : System} (h : JobStep s l s') :
    s'.errands = s.errands := by
  cases h with
  | still => rfl
  | finish => rfl
  | answer _ _ hp => exact (perform_effects hp).errands
  | breakOff => rfl
  | observe => rfl
  | clear => rfl

theorem takePromises?_cases {s s' : System} {ns : List ErrandId} {ps : List Promise}
    (h : s.takePromises? ns = some (ps, s')) :
    s' = { s with errands := s'.errands } ∧ (s.Plain → s'.Plain) := by
  induction ns generalizing s ps with
  | nil =>
      cases h
      exact ⟨rfl, id⟩
  | cons n ns ih =>
      rw [takePromises?] at h
      split at h
      · next p _ =>
          cases htail : System.takePromises? { s with errands := s.errands.filter (·.1 ≠ n) } ns with
          | none =>
              rw [htail] at h
              cases h
          | some r =>
              obtain ⟨ps', s''⟩ := r
              rw [htail] at h
              cases h
              obtain ⟨he, hplain⟩ := ih htail
              exact ⟨he, fun hs => hplain (hs.filter _)⟩
      · cases h

/-- An errand goes on. -/
theorem step_stepErrand (h : s.Plain) (n : ErrandId) :
    Step s (.stepErrand n) (s.stepErrand n) ∧ (s.stepErrand n).Plain := by
  have hquiet (s' : System) (he : s' = s) : Step s (.stepErrand n) s' :=
    he ▸ .aside rfl rfl
  rw [stepErrand]
  cases hn : s.errand? n with
  | none => exact ⟨hquiet s rfl, h⟩
  | some e =>
      rw [Option.bind_some]
      cases e with
      | «over» result => exact ⟨hquiet s rfl, h⟩
      | reply p => exact ⟨hquiet s rfl, h⟩
      | attach c =>
          simp only [advanceErrand?]
          rcases s.insert_cases c with ⟨-, hsame⟩ | ⟨d, hd, hp, hadm⟩
          · rw [hsame]
            exact ⟨.aside rfl rfl, h.setErrand n trivial⟩
          · have hattaching : s.attaching? (.stepErrand n) = some c := by rw [attaching?, hn]
            refine ⟨.attached rfl hattaching hd hp hadm.results hadm.store hadm.connections, ?_⟩
            exact (h.of_errands hadm.errands).setErrand n trivial
      | job t quiet =>
          simp only [advanceErrand?]
          cases s.jobResult? t with
          | none => exact ⟨hquiet s rfl, h⟩
          | some result => exact ⟨.aside rfl rfl, h.setErrand n trivial⟩
      | detach t =>
          simp only [advanceErrand?]
          cases s.jobResult? t with
          | none => exact ⟨hquiet s rfl, h⟩
          | some result => exact ⟨.aside rfl rfl, h.setErrand n trivial⟩
      | shutdown t rest =>
          simp only [advanceErrand?]
          cases s.jobResult? t with
          | none => exact ⟨hquiet s rfl, h⟩
          | some result =>
              dsimp only [Option.map_some]
              cases s.detachNext_cases rest with
              | inl hd =>
                  obtain ⟨d, -, c, hc, hp, hadm, he⟩ := hd
                  refine ⟨.detached s.pipeline.shuttingDown rfl hc hp hadm.results hadm.store
                    hadm.connections, ?_⟩
                  exact (h.of_errands hadm.errands).setErrand n he
              | inr hd =>
                  rw [hd]
                  exact ⟨.aside rfl rfl, h.setErrand n trivial⟩
      | program c rest =>
          simp only [advanceErrand?]
          split
          · next e' s' hsome =>
              split at hsome
              · cases hsome
                obtain ⟨htail, hrest⟩ := stepProgram_transported (s := s) (d := s.errandDevice c)
                  (c := c) (h.errand? hn)
                refine ⟨.quiet rfl htail.pipeline htail.results (.kept (by rw [← htail.store]; rfl))
                  (htail.connections.mono fun _ _ => .sent _), ?_⟩
                exact (h.of_errands htail.errands).setErrand n (plain_errand hrest)
              · cases hsome
          · exact ⟨hquiet s rfl, h⟩

/-- A program on a connection is begun. -/
theorem step_beginProgram {e : Event} (he : e.lane? = none) {s₀ : System} (c : ConnectionId)
    {o : Operation Unit} (ho : Operation.Follows transport () o fun _ _ => True)
    (hs₀ : s₀ = { s with errands := s₀.errands }) (h : s₀.Plain) :
    Step s e (s₀.beginProgram c o).2 ∧ (s₀.beginProgram c o).2.Plain := by
  obtain ⟨hp, hr, hst, hc, hplain⟩ := beginProgram_transported c ho h
  refine ⟨.quiet he ?_ ?_ (.kept ?_) ?_, hplain⟩
  · rw [hp, hs₀]
  · rw [hr, hs₀]
  · rw [hst, hs₀]
  · have hconn : Connected Connection.SentOn s s₀ := .of_eq .refl (by rw [hs₀])
    exact (hconn.trans hc .trans).mono fun _ _ => .sent _

/-- Every event is one of these steps, and errands still send and wait after it. -/
theorem step_after (h : s.Plain) (e : Event) : Step s e (s.after e) ∧ (s.after e).Plain := by
  cases e with
  | openConnection d codec wireCapacity =>
      simp only [after]
      split
      · next hopen => exact ⟨.opened hopen, h⟩
      · exact ⟨.aside rfl rfl, h⟩
  | send c x m =>
      simp only [after, beginSend?]
      cases hsend : s.send c x m with
      | none => exact ⟨.aside rfl rfl, h⟩
      | some r =>
          obtain ⟨p, s'⟩ := r
          have ht := send_transported hsend
          refine ⟨.quiet rfl ht.pipeline ht.results (.kept (by rw [← ht.store]; rfl))
            (ht.connections.mono fun _ _ => .sent _), ?_⟩
          exact (h.of_errands ht.errands).begin trivial
  | barrier c => exact step_beginProgram rfl c (Operation.follows_barrier transport_patient) rfl h
  | compose c ns barrierAfter =>
      simp only [after, beginBatch?]
      cases hps : s.takePromises? ns with
      | none => exact ⟨.aside rfl rfl, h⟩
      | some r =>
          obtain ⟨ps, s'⟩ := r
          obtain ⟨he, hplain⟩ := takePromises?_cases hps
          refine step_beginProgram rfl c ?_ he (hplain h)
          cases barrierAfter with
          | none => exact Operation.follows_settleBatch transport_patient ps none
          | some b => exact Operation.follows_composeWithBarrier transport_patient ps b
  | cancel n =>
      simp only [after, cancel?]
      cases s.errand? n with
      | none => exact ⟨.aside rfl rfl, h⟩
      | some e =>
          cases e with
          | reply p =>
              simp only [Option.map_some, Option.getD_some, withdraw]
              split
              · exact ⟨.aside rfl rfl, h⟩
              · next conn hconn =>
                  refine ⟨.quiet rfl rfl rfl (.kept rfl) (connected_modify .refl s p.connection
                    fun c hc => ?_), h⟩
                  cases hconn.symm.trans hc
                  exact .once (.withdraw p.reply)
          | _ => exact ⟨.aside rfl rfl, h⟩
  | abandon n => exact ⟨.aside rfl rfl, h.filter _⟩
  | takeResults => exact ⟨.aside rfl rfl, h.filter _⟩
  | receive c f => exact ⟨.modify rfl c fun _ => .once (.receive f), h⟩
  | read c => exact ⟨.modify rfl c fun _ => .once .read, h⟩
  | closeWire c => exact ⟨.modify rfl c fun _ => .once .closeWire, h⟩
  | disconnect c => exact ⟨.modify rfl c fun _ => .once .disconnect, h⟩
  | forget c => exact ⟨.modify rfl c fun _ => .once .forget, h⟩
  | writer c => exact ⟨.modify rfl c fun _ => .once (.writer (s.isHeld c)), h⟩
  | sweeper c => exact ⟨.modify rfl c fun _ => .once (.sweeper (s.isHeld c)), h⟩
  | sweep c => exact ⟨.modify rfl c fun _ => .once (.sweep s.now), h⟩
  | tick ms => exact ⟨.aside rfl rfl, h⟩
  | putGroup d g => exact ⟨.quiet rfl rfl rfl (.put d g) (.of_eq .refl rfl), h⟩
  | removeGroup d g => exact ⟨.quiet rfl rfl rfl (.removed d g) (.of_eq .refl rfl), h⟩
  | setFaults => exact ⟨.quiet rfl rfl rfl (.kept rfl) (.of_eq .refl rfl), h⟩
  | submit r quiet =>
      simp only [after, submit]
      split
      · exact ⟨.aside rfl rfl, h.begin trivial⟩
      · next t p hsubmit =>
          have hplain : Plain { s with pipeline := p } := h
          exact ⟨.submitted hsubmit rfl rfl rfl, hplain.begin trivial⟩
  | noteStale flow =>
      simp only [after, noteStale]
      split
      · exact ⟨.aside rfl rfl, h.begin trivial⟩
      · have hplain : Plain { s with store := (s.store.noteStale flow).2 } := h
        refine ⟨.quiet rfl rfl rfl (.kept ?_) (.of_eq .refl rfl), hplain.begin trivial⟩
        exact s.store.groups_noteStale flow
  | attach c =>
      rw [after_attach]
      split
      · exact ⟨.aside rfl rfl, h.begin trivial⟩
      · next hruns =>
          rcases s.insert_cases c with ⟨-, hsame⟩ | ⟨d, hd, hp, hadm⟩
          · rw [hsame]
            exact ⟨.aside rfl rfl, h.begin trivial⟩
          · have hattaching : s.attaching? (.attach c) = some c := if_neg hruns
            refine ⟨.attached rfl hattaching hd hp hadm.results hadm.store hadm.connections, ?_⟩
            exact (h.of_errands hadm.errands).begin trivial
  | lateAttach c =>
      simp only [after, beginLateAttach]
      split <;> exact ⟨.aside rfl rfl, h.begin trivial⟩
  | detach d =>
      simp only [after, beginDetach]
      split
      · next t s' hd =>
          obtain ⟨c, hc, hp, hadm⟩ := detach?_cases hd
          refine ⟨.detached s.pipeline.shuttingDown rfl hc hp hadm.results hadm.store
            hadm.connections, ?_⟩
          exact (h.of_errands hadm.errands).begin trivial
      · exact ⟨.aside rfl rfl, h.begin trivial⟩
  | shutdown =>
      simp only [after, beginShutdown]
      split
      · exact ⟨.aside rfl rfl, h.begin trivial⟩
      · cases detachNext_cases { s with pipeline.shuttingDown := true } s.pipeline.devices with
        | inl hd =>
            obtain ⟨d, -, c, hc, hp, hadm, he⟩ := hd
            refine ⟨.detached true rfl hc hp hadm.results hadm.store hadm.connections, ?_⟩
            exact (h.of_errands hadm.errands).begin he
        | inr hd =>
            rw [hd]
            refine ⟨.closed rfl rfl rfl (.of_eq .refl rfl), ?_⟩
            exact Plain.begin (h.of_errands rfl) trivial
  | startJob l => exact ⟨.started l, h⟩
  | stepJob l =>
      have hstep := jobStep_stepJob s l
      exact ⟨.job hstep, h.of_errands hstep.errands⟩
  | stepErrand n => exact step_stepErrand h n

theorem plain_new {config : Config} {s₀ : System} (h : System.new config = .ok s₀) : s₀.Plain := by
  cases eq_of_new h
  intro e he
  cases he

/-- Errands send and wait in every run. -/
theorem plain_go (h : s.Plain) (es : List Event) : (s.go es).Plain :=
  inv_go Plain (fun _ e hs => (step_after hs e).2) h es

end Events

end System

end Southbound
