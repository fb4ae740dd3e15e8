import Southbound.Proofs.System.Promptness

/-!
# Success is assured

A device that does as it is told lets no request fail that is small enough for its
connection.  Its jobs end with success (`System.Assured`), and a job that was accepted is
either still to be done or has a result (`System.Engaged`).  Where nothing can go on, all is
done (`System.Prompt.jobTickets_of_rests`).

How many messages of a request may wait at once is up to the settings: a message for which
the queue has no room fails at once.
-/

namespace Southbound.System

variable {s s' : System} {d : DeviceId} {c : ConnectionId} {limit : Nat} {owed : List Envelope}
  {g : Stage} {l : LaneId} {lane : Lane Job} {e : Event} {es : List Event} {t : Ticket}

/-! ## Results of jobs -/

/-- If a job has a result, it has succeeded. -/
def Assured (s : System) (t : Ticket) : Prop :=
  ∀ result, s.jobResult? t = some result → ∃ v, result = .ok v

theorem Assured.of_results (h : s.Assured t) (hresults : s'.results = s.results) :
    s'.Assured t := by
  rw [Assured, jobResult?, hresults]
  exact h

/-- Another result is known: it is a success, or that of another job. -/
theorem Assured.cons (h : s.Assured t) {t' : Ticket} {result : Outcome Result}
    (hresults : s'.results = (t', result) :: s.results)
    (hnew : t' = t → ∃ v, result = .ok v) : s'.Assured t := by
  intro result' hresult'
  rw [jobResult?, hresults, List.lookup_cons] at hresult'
  split at hresult'
  · next heq =>
      cases hresult'
      exact hnew (eq_of_beq heq).symm
  · exact h result' hresult'

/-- A job in a lane of another device leaves the results of the jobs of a device alone. -/
theorem Assured.stepJob_of_ne (ht : s.Assured t) (hl : s.laneDevice? l ≠ some d)
    (hjobs : s.pipeline.lanes.AllJobs fun d' job => job.ticket = t → d' = d) :
    (s.stepJob l).Assured t := by
  have hne {lane : Lane Job} {job : Job} (hget : s.pipeline.lanes.get? l = some lane)
      (hjob : lane.running = some job) {result : Outcome Result} (heq : job.ticket = t) :
      ∃ v, result = .ok v := by
    have hd := hjobs l lane hget job (Lane.mem_jobs.mpr (.inl hjob)) heq
    rw [laneDevice?, hget, Option.map_some, hd] at hl
    exact absurd rfl hl
  have hstep := jobStep_stepJob s l
  generalize s.stepJob l = s' at hstep ⊢
  cases hstep with
  | still => exact ht
  | answer _ _ hperform => exact ht.of_results (perform_effects hperform).results
  | finish hget hjob => exact ht.cons rfl (hne hget hjob)
  | breakOff hget hjob => exact ht.cons rfl (hne hget hjob)
  | observe hget hjob => exact ht.cons rfl (hne hget hjob)
  | clear hget hjob => exact ht.cons rfl (hne hget hjob)

/-- While a device does as it is told, its jobs end with success. -/
theorem Prompt.assured_after (h : s.Prompt d c limit owed g) (hserved : s.Served)
    (hids : limit ≤ UInt32.size) (he : s.Allows d c limit owed e)
    (hjobs : s.pipeline.lanes.AllJobs fun d' job => job.ticket = t → d' = d)
    (ht : s.Assured t) : (s.after e).Assured t := by
  cases e with
  | stepJob l =>
      by_cases hl : s.laneDevice? l = some d
      · obtain ⟨lane, hget, hd⟩ := exists_lane_of_laneDevice? hl
        cases hjob : lane.running with
        | none =>
            have hstill : s.stepJob l = s := by simp only [System.stepJob, hget, hjob]
            rw [System.after, hstill]
            exact ht
        | some job =>
            rcases (h.stepJob hserved hids hget hd hjob he).2 with hsame | ⟨v, hnew⟩
            · exact ht.of_results hsame
            · exact ht.cons hnew fun _ => ⟨v, rfl⟩
      · exact ht.stepJob_of_ne hl hjobs
  | _ => exact ht.of_results (results_after hserved.plain rfl)

/-- A job of a device is still to be done, or it has a result. -/
def Engaged (s : System) (d : DeviceId) (t : Ticket) : Prop :=
  t ∈ s.jobTickets d ∨ (s.jobResult? t).isSome

theorem mem_jobTickets : t ∈ s.jobTickets d ↔
    ∃ lane ∈ s.pipeline.lanes.ofDevice d, t ∈ lane.jobs.map Job.ticket := by
  rw [jobTickets, Lanes.jobsOf, List.map_flatMap, List.mem_flatMap]

theorem Engaged.after (hserved : s.Served) (h : s.Engaged d t) (e : Event) :
    (s.after e).Engaged d t := by
  rcases h with hwaits | hresult
  · obtain ⟨lane, hlane, ht⟩ := mem_jobTickets.mp hwaits
    have hstep := deviceStep_after hserved.plain (hserved.session d).orderly e
    generalize s.after e = s' at hstep ⊢
    -- The last lane may have changed, and then it has its jobs still.
    have hlast {pre : List (Lane Job)} {last last' : Lane Job}
        (hopen : OpenLane (s.pipeline.lanes.ofDevice d) pre last)
        (hlanes : s'.pipeline.lanes.ofDevice d = pre ++ [last'])
        (hjobs : ∀ job ∈ last.jobs, job ∈ last'.jobs) : s'.Engaged d t := by
      refine .inl (mem_jobTickets.mpr ?_)
      rw [hlanes]
      rcases hopen.last with hall | ⟨hall, -⟩
      · rw [hall] at hlane
        rcases List.mem_append.mp hlane with hpre | hlast
        · exact ⟨lane, List.mem_append_left _ hpre, ht⟩
        · obtain rfl := List.mem_singleton.mp hlast
          obtain ⟨job, hjob, rfl⟩ := List.mem_map.mp ht
          exact ⟨last', List.mem_concat_self, List.mem_map_of_mem (hjobs job hjob)⟩
      · exact ⟨lane, List.mem_append_left _ (hall ▸ hlane), ht⟩
    have hpush (last : Lane Job) (new : Job) (job : Job) (hjob : job ∈ last.jobs) :
        job ∈ (last.push new).jobs := by
      rw [Lane.jobs_push]
      exact List.mem_append_left _ hjob
    cases hstep with
    | aside hlanes _ _ _ => exact .inl (mem_jobTickets.mpr ⟨lane, hlanes ▸ hlane, ht⟩)
    | queued _ hopen hlanes _ _ _ => exact hlast hopen hlanes (hpush _ _)
    | detached _ _ hopen hlanes _ _ _ => exact hlast hopen hlanes (hpush _ _)
    | @worked _ l pre post worked worked' _ _ hbefore hbehind hwork _ _ =>
        rw [hbefore] at hlane
        rcases List.mem_append.mp hlane with hmem | hmem
        · exact .inl (mem_jobTickets.mpr ⟨lane, hbehind ▸ List.mem_append_left _ hmem, ht⟩)
        · cases hmem with
          | head =>
              refine (hwork.awaited ht).imp_left fun ht' => mem_jobTickets.mpr ?_
              exact ⟨worked', hbehind ▸ List.mem_append_cons_self, ht'⟩
          | tail _ hmem =>
              refine .inl (mem_jobTickets.mpr ⟨lane, ?_, ht⟩)
              exact hbehind ▸ List.mem_append_right _ (.tail _ hmem)
  · exact .inr (jobResult?_after hserved.plain e hresult)

/-! ## Rest -/

/-- Where no frame can go on and none is owed, nothing is on its way. -/
theorem Prompt.underway_of_rests (h : s.Prompt d c limit owed g) (hrest : s.Rests d c owed) :
    g.conn.underway owed = [] := by
  have hcarries := h.messages.carries
  have howed : owed = [] := by
    cases owed with
    | nil => rfl
    | cons e rest =>
        -- The device could answer the first message.
        obtain ⟨f, -, hread⟩ := hcarries.faithful ⟨e.xid, e.message.confirmation⟩
        have hmoves := hrest (.receive c f)
        simp [moves, owedAfter, h.connection, Connection.owedOnReceive, hread] at hmoves
  have hunread : g.conn.wire.unread = [] := by
    have hmoves := hrest (.read c)
    simpa [moves, h.connection] using hmoves
  have hwriter : g.conn.writerReady true = false := by
    have hmoves := hrest (.writer c)
    simpa [moves, writerReady, h.connection, h.isHeld] using hmoves
  rw [Connection.writerReady] at hwriter
  split at hwriter
  · next hstopped => exact absurd hstopped hcarries.writer
  · -- There is room on the wire.
    simp [Wire.hasRoom, hunread, hcarries.wire.room] at hwriter
  · next hidle =>
      have hqueue : g.conn.outbound = [] := by simpa [hcarries.closing] using hwriter
      simp [Connection.underway, howed, hunread, hidle, Writer.frames, hqueue]

/-- Where nothing is on its way, the job that is being done can go on. -/
theorem Prompt.canRun (h : s.Prompt d c limit owed g) (hnone : g.conn.underway owed = [])
    {q : Effect} {next : q.Answer → Program (Outcome Result)}
    (hmay : (bursts limit).may g.burst q) : s.canRun (.step q next) = true := by
  have hknown (a : Promise × Message) (ha : a ∈ g.burst.sent) : (s.result? a.1).isSome := by
    rw [h.result?_eq (h.promises a ha),
      h.messages.confirmed (a := (a.1.reply, a.2)) hnone (List.mem_map_of_mem ha)]
    rfl
  cases q with
  | await p =>
      obtain ⟨m, hsent⟩ := hmay.2
      exact hknown (p, m) (hsent ▸ .head _)
  | gather members last =>
      have hpromises : g.burst.sent.map Prod.fst = members ++ last.toList := hmay.2
      have hall (p : Promise) (hp : p ∈ members ++ last.toList) : (s.result? p).isSome := by
        rw [← hpromises] at hp
        obtain ⟨a, ha, rfl⟩ := List.mem_map.mp hp
        exact hknown a ha
      rw [System.canRun, Bool.and_eq_true, decide_eq_true_eq]
      constructor
      · exact List.countP_eq_length.mpr fun p hp => hall p (List.mem_append_left _ hp)
      · cases last with
        | none => rfl
        | some p => exact hall p (List.mem_append_right _ (.head _))
  | _ => rfl

/-- At rest, the lane that takes jobs does none. -/
theorem Prompt.running_of_rests (h : s.Prompt d c limit owed g) (hrest : s.Rests d c owed)
    (hl : s.pipeline.lanes.get? l = some g.lane) (hd : s.laneDevice? l = some d) :
    g.lane.running = none := by
  cases hjob : g.lane.running with
  | none => rfl
  | some job =>
      have hproceeds := h.jobs.running job hjob
      have hready : s.jobReady l = false := by
        have hmoves := hrest (.stepJob l)
        rwa [moves, decide_eq_true hd, Bool.true_and] at hmoves
      rw [jobReady, hl, Option.bind_some, hjob] at hready
      obtain ⟨t, work⟩ := job
      cases work with
      | clear => exact hproceeds.elim
      | observe f => cases hready
      | operate c' rest =>
          cases rest with
          | done result => cases hready
          | step q next =>
              have hcan : s.canRun (.step q next) = true :=
                h.canRun (h.underway_of_rests hrest) hproceeds.2.1
              cases hcan.symm.trans hready

/-- At rest, the lane that takes jobs has none. -/
theorem Prompt.jobs_of_rests (h : s.Prompt d c limit owed g) (hrest : s.Rests d c owed) :
    g.lane.jobs = [] := by
  rcases h.opened.last with hlast | ⟨-, hjobs⟩
  · have hmem : g.lane ∈ s.pipeline.lanes.ofDevice d := hlast ▸ List.mem_concat_self
    obtain ⟨hall, hd⟩ := Lanes.mem_ofDevice.mp hmem
    obtain ⟨l, hl⟩ := List.mem_iff_getElem?.mp hall
    replace hl : s.pipeline.lanes.get? l = some g.lane := hl
    have hdevice : s.laneDevice? l = some d := by rw [laneDevice?, hl, Option.map_some, hd]
    have hrunning := h.running_of_rests hrest hl hdevice
    have hready : s.laneReady l = false := by
      have hmoves := hrest (.startJob l)
      rwa [moves, decide_eq_true hdevice, Bool.true_and] at hmoves
    rw [laneReady, hl, Option.any_some, Lane.canStart, hrunning] at hready
    exact g.lane.jobs_eq_nil.mpr ⟨hrunning, by simpa using hready⟩
  · exact hjobs

/-- At rest, a device that does as it is told has done all that was asked of it. -/
theorem Prompt.jobTickets_of_rests (h : s.Prompt d c limit owed g) (hrest : s.Rests d c owed) :
    s.jobTickets d = [] := by
  refine List.eq_nil_iff_forall_not_mem.mpr fun t ht => ?_
  obtain ⟨lane, hmem, ht⟩ := mem_jobTickets.mp ht
  have hjobs : lane.jobs = [] := by
    rcases h.opened.last with hlast | ⟨hlast, -⟩
    · rw [hlast] at hmem
      rcases List.mem_append.mp hmem with hpre | hlast
      · exact h.earlier lane hpre
      · exact List.mem_singleton.mp hlast ▸ h.jobs_of_rests hrest
    · exact h.earlier lane (hlast ▸ hmem)
  rw [hjobs] at ht
  cases ht

/-! ## Runs -/

theorem stepsOf_append (d : DeviceId) (xs ys : List (Ticket × Request)) :
    stepsOf d (xs ++ ys) = stepsOf d xs + stepsOf d ys := by
  simp [stepsOf]

/-- While a device does as it is told, no more happens than its requests may take. -/
theorem Prompt.go (h : s.Prompt d c limit owed g) (hserved : s.Served) (hlimit : 1 ≤ limit)
    (hids : limit ≤ UInt32.size) (hes : s.Cooperates d c limit owed es) :
    ∃ g', (s.go es).Prompt d c limit (s.owedIn c owed es) g' ∧
      g'.left (s.owedIn c owed es) + s.movesIn d c owed es ≤
        g.left owed + stepsOf d (s.requestedIn es) := by
  induction es generalizing s owed g with
  | nil => exact ⟨g, h, Nat.le_refl _⟩
  | cons e es ih =>
      obtain ⟨he, hes⟩ := hes
      obtain ⟨g₁, hg₁, hle₁⟩ := h.after hserved hlimit hids he
      obtain ⟨g₂, hg₂, hle₂⟩ := ih hg₁ (hserved.after e) hes
      refine ⟨g₂, hg₂, ?_⟩
      rw [owedIn, movesIn, requestedIn, stepsOf_append]
      omega

/-- While a device does as it is told, a job of it has no other result than success. -/
theorem Prompt.assured_go (h : s.Prompt d c limit owed g) (hserved : s.Served) (hlimit : 1 ≤ limit)
    (hids : limit ≤ UInt32.size) (hes : s.Cooperates d c limit owed es)
    (hjobs : ∀ before, before <+: es →
      (s.go before).pipeline.lanes.AllJobs fun d' job => job.ticket = t → d' = d)
    (ht : s.Assured t) : (s.go es).Assured t := by
  induction es generalizing s owed g with
  | nil => exact ht
  | cons e es ih =>
      obtain ⟨he, hes⟩ := hes
      obtain ⟨g₁, hg₁, -⟩ := h.after hserved hlimit hids he
      refine ih hg₁ (hserved.after e) hes (fun before hbefore => ?_)
        (h.assured_after hserved hids he (hjobs [] List.nil_prefix) ht)
      exact hjobs (e :: before) (List.cons_prefix_cons.mpr ⟨rfl, hbefore⟩)

theorem Engaged.go (hserved : s.Served) (h : s.Engaged d t) (es : List Event) :
    (s.go es).Engaged d t :=
  (inv_go (fun s => s.Served ∧ s.Engaged d t) (fun _ e hs => ⟨hs.1.after e, hs.2.after hs.1 e⟩)
    ⟨hserved, h⟩ es).2

theorem cooperates_append {es' : List Event} :
    s.Cooperates d c limit owed (es ++ es') ↔ s.Cooperates d c limit owed es ∧
      (s.go es).Cooperates d c limit (s.owedIn c owed es) es' := by
  induction es generalizing s owed with
  | nil => exact (and_iff_right trivial).symm
  | cons e es ih => rw [List.cons_append, Cooperates, Cooperates, ih, and_assoc, go_cons, owedIn]

/-! ## Connections as they were opened -/

/-- A connection has the room that the settings say. -/
structure Roomy (config : Config) (conn : Connection) : Prop where
  capacity : conn.capacity = config.device.capacity.toNat
  room : 0 < conn.capacity
  wire : conn.wire.Sane

theorem roomy_open {config : Config} {device : DeviceId} {codec : Codec} {wireCapacity : Nat}
    {now : Instant} {conn : Connection}
    (h : Connection.open? device codec wireCapacity config now = some conn) :
    Roomy config conn := by
  have hrooms : 0 < config.device.capacity.toNat ∧ 0 < wireCapacity := by
    rw [Connection.open?] at h
    split at h
    · next hcapacities =>
        simp only [Connection.isCapacity, Bool.and_eq_true, decide_eq_true_eq] at hcapacities
        exact ⟨hcapacities.1.1, hcapacities.2.1⟩
    · cases h
  rw [Connection.eq_of_open h]
  exact ⟨rfl, hrooms.1, hrooms.2, Nat.le_refl _⟩

theorem Roomy.round {config : Config} {conn conn' : Connection} (h : Roomy config conn)
    (hround : conn.Round conn') : Roomy config conn' where
  capacity := hround.same.capacity.trans h.capacity
  room := hround.same.capacity ▸ h.room
  wire := hround.inv (fun conn => conn.wire.Sane) (fun _ e hsane => Connection.sane_after hsane e)
    h.wire

/-! ## Requests that are accepted -/

/-- A request of a device that is attached becomes a job, unless its table is wrong or requests
are refused. -/
theorem accepted_of_attached {r : Request} {quiet : Bool}
    (hattached : s.pipeline.attached.get? r.device = some c) (hcheck : r.check = .ok ())
    (hopen : s.pipeline.shuttingDown = false) :
    s.accepted? r.device (.submit r quiet) = some s.pipeline.tickets := by
  have hchannel : s.pipeline.channel r.device = .ok c := by
    rw [Pipeline.channel, hopen, hattached]
    rfl
  rw [accepted?, if_pos rfl, Pipeline.submit, hcheck]
  dsimp only
  rw [hchannel]
  rfl

theorem engaged_submit {r : Request} {quiet : Bool} (hserved : s.Served)
    (ht : s.accepted? r.device (.submit r quiet) = some t) :
    (s.after (.submit r quiet)).Engaged r.device t := by
  obtain ⟨_, _, _, heq, -, hsubmit⟩ := accepted?_eq_some ht
  cases heq
  obtain ⟨c, -, -, rfl, rfl⟩ := submit_ok hsubmit
  have hpipeline : (s.after (.submit r quiet)).pipeline = _ := after_submit hsubmit
  obtain ⟨pre, lane, -, hqueued, -⟩ := Lanes.exists_openLane (hserved.session r.device).orderly
    ⟨s.pipeline.tickets, r.work s.pipeline.policy c⟩
  refine .inl (mem_jobTickets.mpr
    ⟨lane.push ⟨s.pipeline.tickets, r.work s.pipeline.policy c⟩, ?_, ?_⟩)
  · rw [hpipeline]
    exact hqueued ▸ List.mem_concat_self
  · rw [Lane.jobs_push, List.map_append]
    exact List.mem_concat_self

/-- A request that sends something is done by a program. -/
theorem exists_operate {r : Request} (hr : r.messages ≠ []) (policy : OperationPolicy)
    (c : ConnectionId) : ∃ p, r.work policy c = .operate c p := by
  cases r with
  | observe d f => exact absurd rfl hr
  | _ => exact ⟨_, rfl⟩

section Accepted

variable {config : Config} {s₀ : System} (hnew : System.new config = .ok s₀)
include hnew

theorem roomy_go (es : List Event) {conn : Connection}
    (hc : (s₀.go es).connections[c]? = some conn) : Roomy config conn := by
  have hstep (s : System) (e : Event) (h : s.Plain ∧ s.pipeline.config = config ∧
      ∀ (c : ConnectionId) conn, s.connections[c]? = some conn → Roomy config conn) :
      (s.after e).Plain ∧ (s.after e).pipeline.config = config ∧
        ∀ (c : ConnectionId) conn, (s.after e).connections[c]? = some conn → Roomy config conn := by
    obtain ⟨hplain, hconfig, hroomy⟩ := h
    refine ⟨(step_after hplain e).2, (config_after hplain e).trans hconfig, fun c conn hc => ?_⟩
    cases hbefore : s.connections[c]? with
    | none =>
        obtain ⟨d, codec, wireCapacity, hopen⟩ := opened_of_none hplain e hbefore hc
        rw [hconfig] at hopen
        exact roomy_open hopen
    | some conn₀ =>
        obtain ⟨conn', hc', hround⟩ := exists_round hplain e hbefore
        cases hc.symm.trans hc'
        exact (hroomy c conn₀ hbefore).round hround
  refine (inv_go _ hstep ⟨plain_new hnew, ?_, fun c conn hc => ?_⟩ es).2.2 c conn hc
  · rw [eq_of_new hnew]
  · rw [eq_of_new hnew] at hc
    cases hc

/-- A job that is not accepted yet has no result. -/
theorem assured_of_tickets (es : List Event) : (s₀.go es).Assured (s₀.go es).pipeline.tickets := by
  intro result hresult
  obtain ⟨l₁, l₂, hmem, -⟩ := List.lookup_eq_some_iff.mp hresult
  exact absurd ((bookkept_go hnew es).ended _ (hmem ▸ List.mem_append_cons_self))
    (Nat.lt_irrefl _)

/-- A device that is idle has nothing left to do, and its connection has the room that the
settings say. -/
theorem exists_prompt {es : List Event} (h : (s₀.go es).Idle d c) :
    1 ≤ min config.device.capacity.toNat UInt32.size ∧
      ∃ g, (s₀.go es).Prompt d c (min config.device.capacity.toNat UInt32.size) [] g ∧
        g.left [] = 0 := by
  obtain ⟨conn, hc, -⟩ := h.connection
  have hroomy := roomy_go hnew es hc
  refine ⟨Nat.le_min.mpr ⟨hroomy.capacity ▸ hroomy.room, by decide⟩, ?_⟩
  refine h.prompt (((served_new hnew).go es).session d).orderly fun conn' hc' => ?_
  obtain ⟨hcapacity, -, hwire⟩ := roomy_go hnew es hc'
  exact ⟨hcapacity.symm ▸ Nat.min_le_left _ _, hwire⟩

/-- The job of a request that was accepted has no other result than success. -/
theorem assured_of_accepted {es es₂ : List Event} {r : Request} {quiet : Bool}
    (h : (s₀.go es).Prompt r.device c limit owed g) (hlimit : 1 ≤ limit)
    (hids : limit ≤ UInt32.size)
    (hes : (s₀.go es).Cooperates r.device c limit owed (.submit r quiet :: es₂))
    (hsends : r.messages ≠ []) (ht : (s₀.go es).accepted? r.device (.submit r quiet) = some t) :
    (s₀.go (es ++ .submit r quiet :: es₂)).Assured t := by
  have hserved := (served_new hnew).go es
  obtain ⟨hsubmit, hes₂⟩ := hes
  obtain ⟨g', hg', -⟩ := h.after hserved hlimit hids hsubmit
  obtain ⟨p, hp⟩ := exists_operate hsends s₀.pipeline.policy c
  obtain ⟨_, _, _, heq, -, hok⟩ := accepted?_eq_some ht
  cases heq
  obtain ⟨-, -, -, rfl, -⟩ := submit_ok hok
  rw [go_append, go_cons]
  refine hg'.assured_go (hserved.after _) hlimit hids hes₂ (fun before _ => ?_)
    ((assured_of_tickets hnew es).of_results (results_after hserved.plain rfl))
  -- No other device has a job of that number.
  obtain ⟨c', hc', htells⟩ := tells_go hnew ht before
  cases h.attached.symm.trans hc'
  rw [← go_cons, ← go_append]
  exact (htells p hp).jobs.mono fun d' job hjob hticket => (hjob hticket).1

/-- A device is attached over a connection that is idle, and from then on it does as it is told.
Each request of it is accepted, if its table is right and requests are not refused, and it does
not fail, if its messages fit into the queue of the connection and there are enough transaction
ids for them.  It has succeeded where nothing can go on any more, and that is so after no more
events than the requests may take steps. -/
theorem no_spurious_failure {es es₁ es₂ run : List Event} {r : Request} {quiet : Bool}
    (hidle : (s₀.go es).Idle d c) (hrun : run = es₁ ++ .submit r quiet :: es₂)
    (hcooperates : (s₀.go es).Cooperates d c (min config.device.capacity.toNat UInt32.size) [] run)
    (hdevice : r.device = d) (hsends : r.messages ≠ []) (hcheck : r.check = .ok ())
    (hopen : (s₀.go (es ++ es₁)).pipeline.shuttingDown = false) :
    ∃ t, (s₀.go (es ++ es₁)).accepted? d (.submit r quiet) = some t ∧
      (s₀.go (es ++ run)).Assured t ∧
      ((s₀.go (es ++ run)).Rests d c ((s₀.go es).owedIn c [] run) →
        ∃ v, (s₀.go (es ++ run)).jobResult? t = some (.ok v)) ∧
      (s₀.go es).movesIn d c [] run ≤ stepsOf d ((s₀.go es).requestedIn run) := by
  subst hdevice
  have hserved (es : List Event) : (s₀.go es).Served := (served_new hnew).go es
  have hids : min config.device.capacity.toNat UInt32.size ≤ UInt32.size := Nat.min_le_right _ _
  obtain ⟨hlimit, g, hg, hleft⟩ := exists_prompt hnew hidle
  obtain ⟨g', hg', hmoves⟩ := hg.go (hserved es) hlimit hids hcooperates
  -- The device is still attached when the request is made.
  rw [hrun, cooperates_append] at hcooperates
  obtain ⟨hes₁, hes₂⟩ := hcooperates
  obtain ⟨g₁, hg₁, -⟩ := hg.go (hserved es) hlimit hids hes₁
  rw [← go_append] at hg₁ hes₂
  have ht : (s₀.go (es ++ es₁)).accepted? r.device (.submit r quiet) = _ :=
    accepted_of_attached hg₁.attached hcheck hopen
  have hgo : s₀.go (es ++ run) = s₀.go ((es ++ es₁) ++ .submit r quiet :: es₂) := by
    rw [hrun, List.append_assoc]
  have hsuccess := assured_of_accepted hnew hg₁ hlimit hids hes₂ hsends ht
  rw [← hgo] at hsuccess
  refine ⟨_, ht, hsuccess, fun hrest => ?_, ?_⟩
  · have hengaged : (s₀.go (es ++ run)).Engaged r.device (s₀.go (es ++ es₁)).pipeline.tickets := by
      rw [hgo, go_append, go_cons]
      exact (engaged_submit (hserved _) ht).go ((hserved _).after _) es₂
    rw [go_append] at hrest hengaged hsuccess ⊢
    have hnone := hg'.jobTickets_of_rests hrest
    rw [Engaged, hnone] at hengaged
    obtain ⟨result, hresult⟩ := Option.isSome_iff_exists.mp (hengaged.resolve_left List.not_mem_nil)
    obtain ⟨v, rfl⟩ := hsuccess result hresult
    exact ⟨v, hresult⟩
  · omega

end Accepted

/-! ## A flow is renewed -/

namespace Renewal

def device : DeviceId := ⟨"openflow:1"⟩

def old : Flow := { table := ⟨0⟩ }

/-- The flow with another priority, so that the old one is removed before it is added. -/
def updated (barrier : Bool) : Flow := { table := ⟨0⟩, priority := 7, barrier }

def request (barrier : Bool) : Request :=
  .updateFlow ⟨device, ⟨0⟩, ⟨"f"⟩⟩ old (updated barrier)

/-- The device is attached. -/
def before : List Event := [.openConnection device .json 64, .attach 0]

/-- The device answers a message. -/
def answer (xid : UInt32) (reply : Message) : Event :=
  .receive 0 (⟨⟨xid⟩, reply⟩ : Envelope).toFrame

/-- Both changes and a barrier are handed over.  Then the device reads all that is written, and
confirms it. -/
def later : List Event :=
  [.startJob 0, .stepJob 0, .stepJob 0, .stepJob 0, .writer 0, .writer 0, .writer 0, .writer 0,
    .writer 0, .writer 0, .read 0, .read 0, .read 0, answer 1 .ack, answer 2 .ack,
    answer 3 .barrierReply, .stepJob 0, .stepJob 0, .stepJob 0, .stepJob 0]

/-- The settings, with room for one message. -/
def narrow : Config := { device := { capacity := 1 } }

/-- Both changes are handed over before the writer goes on, so there is no room for the second
one. -/
def hurried : List Event :=
  [.startJob 0, .stepJob 0, .stepJob 0, .writer 0, .writer 0, .read 0, answer 1 .ack, .stepJob 0,
    .stepJob 0]

end Renewal

theorem no_spurious_failure_of_renewal :
    ∃ s₀ v, System.new {} = .ok s₀ ∧
      (s₀.go Renewal.before).accepted? Renewal.device (.submit (Renewal.request true) false) =
        some 0 ∧
      (s₀.go (Renewal.before ++ .submit (Renewal.request true) false :: Renewal.later)).jobResult?
        0 = some (.ok v) := by
  have hstart : ∃ s₀, System.new {} = .ok s₀ ∧
      (s₀.go Renewal.before).Idle Renewal.device 0 ∧
      (s₀.go Renewal.before).Cooperates Renewal.device 0 (min 1024 UInt32.size) []
        (.submit (Renewal.request true) false :: Renewal.later) ∧
      (s₀.go Renewal.before).pipeline.shuttingDown = false ∧
      (s₀.go Renewal.before).accepted? Renewal.device (.submit (Renewal.request true) false) =
        some 0 ∧
      ((s₀.go (Renewal.before ++ .submit (Renewal.request true) false ::
        Renewal.later)).jobResult? 0).isSome = true :=
    ⟨_, rfl, ⟨by decide, by decide, _, rfl, rfl, rfl, rfl, rfl, rfl, rfl, rfl,
      Codec.faithful_json⟩, by decide +kernel, by decide, by decide, by decide +kernel⟩
  obtain ⟨s₀, hnew, hidle, hcooperates, hopen, haccepted, hknown⟩ := hstart
  have hrun : .submit (Renewal.request true) false :: Renewal.later =
      [] ++ .submit (Renewal.request true) false :: Renewal.later := rfl
  obtain ⟨t, ht, hassured, -⟩ := no_spurious_failure hnew hidle hrun hcooperates rfl (by decide)
    rfl hopen
  cases haccepted.symm.trans ht
  obtain ⟨result, hresult⟩ := Option.isSome_iff_exists.mp hknown
  obtain ⟨v, rfl⟩ := hassured result hresult
  exact ⟨s₀, v, hnew, haccepted, hresult⟩

/-- The device does as it is told, but the queue has room for one message only, and an update
hands over two before one is written. -/
theorem renewal_fails_of_narrow_queue :
    ∃ s₀, Renewal.narrow.validate = .ok () ∧ System.new Renewal.narrow = .ok s₀ ∧
      (s₀.go Renewal.before).Idle Renewal.device 0 ∧
      (s₀.go Renewal.before).Cooperates Renewal.device 0 2 []
        (.submit (Renewal.request false) false :: Renewal.hurried) ∧
      (Renewal.request false).check = .ok () ∧ (Renewal.request false).needs? = none ∧
      (s₀.go Renewal.before).accepted? Renewal.device (.submit (Renewal.request false) false) =
        some 0 ∧
      (s₀.go (Renewal.before ++ .submit (Renewal.request false) false ::
        Renewal.hurried)).jobResult? 0 =
          some (.error (.batch 2 [⟨.member 1, some ⟨2⟩, .channelError "Outbound queue full"⟩])) := by
  refine ⟨_, rfl, rfl, ⟨by decide, by decide, _, rfl, rfl, rfl, rfl, rfl, rfl, rfl, rfl,
    Codec.faithful_json⟩, by decide +kernel, rfl, rfl, by decide, ?_⟩
  with_unfolding_all rfl

end Southbound.System
