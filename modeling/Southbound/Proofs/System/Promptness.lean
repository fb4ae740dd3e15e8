import Southbound.Proofs.System.Cooperation
import Southbound.Proofs.System.Deeds
import Southbound.Proofs.System.Shutdown

/-!
# What is asked of a device that does as it is told succeeds

While a device does as it is told, its jobs keep to their bursts: what the job that is being
done has sent is confirmed or on its way, and nothing else is (`System.Prompt`).  No queue is
full then, no transaction id is missing and no request times out.

Every event that brings what was asked for nearer to its end lowers what is left to do
(`System.Prompt.after`).
-/

namespace Southbound

/-! ## Jobs -/

/-- A job that has sent some messages and has so many steps left goes on to succeed. -/
def Job.Proceeds (c : ConnectionId) (limit : Nat) (k : Burst) (job : Job) : Prop :=
  match job.work with
  | .operate c' rest => c' = c ∧ rest.Follows (bursts limit) k fun k result =>
      k.sent = [] ∧ ∃ v, result = .ok v
  | .observe _ => k.sent = []
  | .clear => False

/-- A request whose messages fit into one burst goes on to succeed. -/
theorem Request.proceeds {r : Request} {limit : Nat} (hlimit : 1 ≤ limit) (h : r.Fits limit)
    (policy : OperationPolicy) (c : ConnectionId) (t : Ticket) :
    Job.Proceeds c limit { budget := r.steps - 2 } ⟨t, r.work policy c⟩ := by
  have hwork := r.work_succeeds hlimit h policy c
  rw [Job.Proceeds]
  cases he : r.work policy c with
  | operate c' rest =>
      rw [he] at hwork
      exact ⟨Request.work_connection he, hwork⟩
  | observe f => rfl
  | clear => exact absurd he (r.work_ne_clear policy c)

/-- The jobs of a lane go on to succeed: the one that is being done, and each that waits in so
many steps. -/
structure Lane.Proceeds (c : ConnectionId) (limit : Nat) (k : Burst) (steps : List Nat)
    (lane : Lane Job) : Prop where
  running : ∀ job, lane.running = some job → job.Proceeds c limit k
  idle : lane.running = none → k.sent = []
  waiting : List.Forall₂ (fun job n => 2 ≤ n ∧ job.Proceeds c limit { budget := n - 2 })
    lane.waiting steps

/-- How many steps are left to the job that is being done. -/
def Lane.stepsLeft (lane : Lane Job) (k : Burst) : Nat :=
  if lane.running.isSome then k.budget + 1 else 0

section Lanes

variable {c : ConnectionId} {limit : Nat} {k : Burst} {steps : List Nat} {lane : Lane Job}
  {job : Job}

theorem Lane.jobs_eq_nil (lane : Lane Job) :
    lane.jobs = [] ↔ lane.running = none ∧ lane.waiting = [] := by
  rw [jobs, List.append_eq_nil_iff, Option.toList_eq_nil_iff]

/-- A lane without jobs has nothing left to do. -/
theorem Lane.proceeds_of_jobs (h : lane.jobs = []) (hk : k.sent = []) :
    lane.Proceeds c limit k [] := by
  obtain ⟨hrunning, hwaiting⟩ := lane.jobs_eq_nil.mp h
  refine ⟨fun job hjob => ?_, fun _ => hk, ?_⟩
  · cases hrunning.symm.trans hjob
  · rw [hwaiting]
    exact .nil

theorem Lane.Proceeds.of_jobs (h : lane.Proceeds c limit k steps) (hjobs : lane.jobs = []) :
    k.sent = [] ∧ steps = [] := by
  obtain ⟨hrunning, hwaiting⟩ := lane.jobs_eq_nil.mp hjobs
  have hnone := h.waiting
  rw [hwaiting] at hnone
  cases hnone
  exact ⟨h.idle hrunning, rfl⟩

/-- The next job has the first of the steps. -/
theorem Lane.Proceeds.start (h : lane.Proceeds c limit k steps) (hidle : lane.running = none)
    {waiting : List Job} (hwaiting : lane.waiting = job :: waiting) :
    ∃ n rest, steps = n :: rest ∧ 2 ≤ n ∧
      lane.start.Proceeds c limit { budget := n - 2 } rest := by
  have hsteps := h.waiting
  rw [hwaiting] at hsteps
  cases hsteps with
  | @cons _ n _ rest hjob hrest =>
      refine ⟨n, rest, rfl, hjob.1, ?_⟩
      rw [Lanes.start_of_canStart hidle hwaiting]
      refine ⟨fun job' hjob' => ?_, by simp, hrest⟩
      cases hjob'
      exact hjob.2

/-- The job is done, and all that it has sent was waited for. -/
theorem Lane.Proceeds.finish (h : lane.Proceeds c limit k steps) (hk : k.sent = []) :
    lane.finish.Proceeds c limit k steps := by
  refine ⟨fun job hjob => ?_, fun _ => hk, h.waiting⟩
  cases hjob

theorem Lane.Proceeds.push (h : lane.Proceeds c limit k steps) {n : Nat} (hn : 2 ≤ n)
    (hjob : job.Proceeds c limit { budget := n - 2 }) :
    (lane.push job).Proceeds c limit k (steps ++ [n]) := by
  refine ⟨h.running, h.idle, ?_⟩
  exact List.rel_append h.waiting (.cons ⟨hn, hjob⟩ .nil)

end Lanes

/-- The lane that takes jobs is one and the same, or it is new and has none. -/
theorem OpenLane.proceeds {ls pre pre' : List (Lane Job)} {lane lane' : Lane Job}
    {c : ConnectionId} {limit : Nat} {k : Burst} {steps : List Nat} (h : OpenLane ls pre lane)
    (h' : OpenLane ls pre' lane') (hp : lane.Proceeds c limit k steps) :
    pre' = pre ∧ lane'.Proceeds c limit k steps ∧ lane'.stepsLeft k = lane.stepsLeft k := by
  have hmem {pre : List (Lane Job)} {lane : Lane Job} (hopen : lane.released = false)
      (hpre : ∀ l ∈ pre, l.released = true) : lane ∉ pre := by
    intro hlane
    cases hopen.symm.trans (hpre lane hlane)
  rcases h.last with rfl | ⟨rfl, hjobs⟩
  · rcases h'.last with heq | ⟨rfl, -⟩
    · obtain ⟨rfl, hlane⟩ := List.append_inj' heq rfl
      cases hlane
      exact ⟨rfl, hp, rfl⟩
    · exact absurd List.mem_concat_self (hmem h.opened h'.others)
  · rcases h'.last with rfl | ⟨rfl, hjobs'⟩
    · exact absurd List.mem_concat_self (hmem h'.opened h.others)
    · obtain ⟨hk, rfl⟩ := hp.of_jobs hjobs
      refine ⟨rfl, Lane.proceeds_of_jobs hjobs' hk, ?_⟩
      rw [Lane.stepsLeft, Lane.stepsLeft, (lane.jobs_eq_nil.mp hjobs).1,
        (lane'.jobs_eq_nil.mp hjobs').1]

namespace System

/-! ## How far a device has come -/

/-- How far a device has come with what was asked of it. -/
structure Stage where
  /-- The lanes that take no jobs any more. -/
  pre : List (Lane Job)
  lane : Lane Job
  /-- The messages that the job that is being done has sent, and the steps that are left to it. -/
  burst : Burst
  /-- The steps of the jobs that wait. -/
  steps : List Nat
  conn : Connection

/-- How many steps are left until everything is done. -/
def Stage.left (g : Stage) (owed : List Envelope) : Nat :=
  g.lane.stepsLeft g.burst + g.steps.sum + g.conn.distance owed

/-- The messages of some promises, each with its reply. -/
def replies (sent : List (Promise × Message)) : List (Reply × Message) :=
  sent.map fun a => (a.1.reply, a.2)

/-- What was asked of a device goes on to succeed. -/
structure Prompt (s : System) (d : DeviceId) (c : ConnectionId) (limit : Nat)
    (owed : List Envelope) (g : Stage) : Prop where
  attached : s.pipeline.attached.get? d = some c
  opened : OpenLane (s.pipeline.lanes.ofDevice d) g.pre g.lane
  earlier : ∀ lane ∈ g.pre, lane.jobs = []
  jobs : g.lane.Proceeds c limit g.burst g.steps
  connection : s.connections[c]? = some g.conn
  capacity : limit ≤ g.conn.capacity
  messages : g.conn.Delivers owed (replies g.burst.sent)
  promises : ∀ a ∈ g.burst.sent, a.1.connection = c

variable {s s' : System} {d : DeviceId} {c c' : ConnectionId} {limit : Nat}
  {owed owed' : List Envelope} {g : Stage} {l : LaneId} {lane : Lane Job} {job : Job} {e : Event}
  {t : Ticket}

/-- Nothing is left to do for a device that is idle. -/
theorem Idle.prompt (h : s.Idle d c) (horderly : Orderly (s.pipeline.lanes.ofDevice d))
    (hconn : ∀ conn, s.connections[c]? = some conn → limit ≤ conn.capacity ∧ conn.wire.Sane) :
    ∃ g, s.Prompt d c limit [] g ∧ g.left [] = 0 := by
  obtain ⟨conn, hc, hidle⟩ := h.connection
  obtain ⟨hcapacity, hsane⟩ := hconn conn hc
  obtain ⟨hdelivers, hdistance⟩ := hidle.delivers hsane
  have hjobs := List.flatMap_eq_nil_iff.mp h.jobs
  have hprompt {pre : List (Lane Job)} {lane : Lane Job}
      (hopen : OpenLane (s.pipeline.lanes.ofDevice d) pre lane) (hpre : ∀ l ∈ pre, l.jobs = [])
      (hlane : lane.jobs = []) : ∃ g, s.Prompt d c limit [] g ∧ g.left [] = 0 := by
    refine ⟨⟨pre, lane, { budget := 0 }, [], conn⟩, ⟨h.attached, hopen, hpre,
      Lane.proceeds_of_jobs hlane rfl, hc, hcapacity, hdelivers, List.forall_mem_nil _⟩, ?_⟩
    rw [Stage.left, Lane.stepsLeft, (lane.jobs_eq_nil.mp hlane).1, hdistance]
    rfl
  rcases horderly.cases with hall | ⟨pre, lane, he, hopen, hpre⟩
  · have hopen : OpenLane (s.pipeline.lanes.ofDevice d) (s.pipeline.lanes.ofDevice d)
        { device := d, generation := 0 } := ⟨rfl, hall, .inr ⟨rfl, rfl⟩⟩
    exact hprompt hopen hjobs rfl
  · rw [he] at hjobs
    exact hprompt ⟨hopen, hpre, .inl he⟩ (fun l hl => hjobs l (List.mem_append_left _ hl))
      (hjobs lane List.mem_concat_self)

/-! ## What concerns others -/

/-- What an event does elsewhere. -/
theorem Prompt.elsewhere (h : s.Prompt d c limit owed g)
    (hattached : s'.pipeline.attached.get? d = s.pipeline.attached.get? d)
    (hlanes : s'.pipeline.lanes.ofDevice d = s.pipeline.lanes.ofDevice d)
    (hconn : s'.connections[c]? = s.connections[c]?) : s'.Prompt d c limit owed g :=
  { h with
    attached := hattached.trans h.attached
    opened := hlanes ▸ h.opened
    connection := hconn.trans h.connection }

theorem Prompt.device (h : s.Prompt d c limit owed g) (hwired : s.Wired) : g.conn.device = d := by
  have hd := hwired.attached d c h.attached
  rw [deviceOf?, h.connection] at hd
  exact Option.some.inj hd

theorem Prompt.untouched (h : s.Prompt d c limit owed g) (hwired : s.Wired)
    (hu : s.Untouched s' d) : s'.Prompt d c limit owed g := by
  refine h.elsewhere hu.attached hu.lanes ?_
  rw [(hu.connections c g.conn (h.device hwired)).mpr h.connection, h.connection]

theorem Prompt.modify_of_ne (h : s.Prompt d c limit owed g) (hne : c' ≠ c)
    (f : Connection → Connection) : (s.modifyConnection c' f).Prompt d c limit owed g :=
  h.elsewhere rfl rfl (List.getElem?_modify_ne _ _ hne)

theorem Prompt.isHeld (h : s.Prompt d c limit owed g) : s.isHeld c = true := by
  have hmem : s.pipeline.attached.values.contains c = true :=
    List.contains_iff_mem.mpr (Table.mem_values_of_get? h.attached)
  rw [System.isHeld, hmem, Bool.or_true, Bool.true_or, Bool.true_or]

/-! ## The connection -/

theorem getElem?_modifyConnection {conn : Connection} (hc : s.connections[c]? = some conn)
    (f : Connection → Connection) : (s.modifyConnection c f).connections[c]? = some (f conn) := by
  show (s.connections.modify c f)[c]? = _
  rw [List.getElem?_modify_eq, hc]
  rfl

/-- Something happens to the connection, and every message is still confirmed or on its way, and
no farther from its answer. -/
theorem Prompt.modify (h : s.Prompt d c limit owed g) {f : Connection → Connection} {moved : Bool}
    (hcapacity : (f g.conn).capacity = g.conn.capacity)
    (hmessages : (f g.conn).Delivers owed' (replies g.burst.sent))
    (hle : (f g.conn).distance owed' ≤ g.conn.distance owed)
    (hlt : moved = true → (f g.conn).distance owed' < g.conn.distance owed) :
    ∃ g', (s.modifyConnection c f).Prompt d c limit owed' g' ∧
      g'.left owed' + moved.toNat ≤ g.left owed := by
  refine ⟨{ g with conn := f g.conn }, { h with
    connection := getElem?_modifyConnection h.connection f
    capacity := hcapacity ▸ h.capacity
    messages := hmessages }, ?_⟩
  simp only [Stage.left]
  cases moved with
  | false => exact Nat.add_le_add_left hle _
  | true => exact Nat.add_lt_add_left (hlt rfl) _

/-- Messages move along on the connection. -/
theorem Prompt.relays (h : s.Prompt d c limit owed g) {f : Connection → Connection} {moved : Bool}
    (hr : g.conn.Relays owed (f g.conn) owed')
    (hlt : moved = true → (f g.conn).distance owed' < g.conn.distance owed) :
    ∃ g', (s.modifyConnection c f).Prompt d c limit owed' g' ∧
      g'.left owed' + moved.toNat ≤ g.left owed :=
  h.modify hr.capacity (h.messages.relays hr) hr.distance hlt

/-- As `Prompt.relays`, where nothing need come nearer to its end. -/
theorem Prompt.stays (h : s.Prompt d c limit owed g) {f : Connection → Connection}
    (hr : g.conn.Relays owed (f g.conn) owed') :
    ∃ g', (s.modifyConnection c f).Prompt d c limit owed' g' ∧ g'.left owed' ≤ g.left owed :=
  h.relays hr fun hmoved : false = true => absurd hmoved Bool.false_ne_true

/-! ## Results -/

theorem results?_append {ps qs : List Promise} {xs ys : List Settled} (h : s.results? ps = some xs)
    (h' : s.results? qs = some ys) : s.results? (ps ++ qs) = some (xs ++ ys) := by
  rw [results?] at h h' ⊢
  simp [List.mapM_append, h, h']

theorem isSome_of_results? {ps : List Promise} {xs : List Settled} (h : s.results? ps = some xs) :
    ∀ p ∈ ps, (s.result? p).isSome := by
  have hboth : List.Forall₂ (fun p (_ : Settled) => (s.result? p).isSome ∧ True) ps xs :=
    (forall₂_of_results? h).imp fun p x hx => ⟨Option.isSome_of_eq_some hx, trivial⟩
  exact ((List.forall₂_and_left _ _).mp hboth).1

/-- If the results of some messages are known and are their confirmations, these are all. -/
theorem results?_eq {sent : List (Promise × Message)} {xs : List Settled}
    (h : ∀ a ∈ sent, ∀ o, s.result? a.1 = some o → o = .ok a.2.confirmation)
    (hxs : s.results? (sent.map Prod.fst) = some xs) :
    xs = sent.map fun a => (a.1.xid, .ok a.2.confirmation) := by
  induction sent generalizing xs with
  | nil =>
      cases hxs
      rfl
  | cons a sent ih =>
      obtain ⟨ha, hsent⟩ := List.forall_mem_cons.mp h
      rw [List.map_cons, results?, List.mapM_cons] at hxs
      obtain ⟨x, hx, hxs⟩ := Option.bind_eq_some_iff.mp hxs
      obtain ⟨o, ho, rfl⟩ := Option.map_eq_some_iff.mp hx
      obtain ⟨ys, hys, hxs⟩ := Option.bind_eq_some_iff.mp hxs
      cases hxs
      rw [List.map_cons, ha o ho, ← ih hsent hys]

theorem Prompt.result?_eq (h : s.Prompt d c limit owed g) {p : Promise} (hp : p.connection = c) :
    s.result? p = p.reply.result? g.conn.registry := by
  rw [result?, hp, h.connection]
  rfl

/-- A message that was sent has no other result than its confirmation. -/
theorem Prompt.result (h : s.Prompt d c limit owed g) (haccounted : s.Accounted)
    {a : Promise × Message} (ha : a ∈ g.burst.sent) {o : Outcome Message}
    (ho : s.result? a.1 = some o) : o = .ok a.2.confirmation := by
  rw [h.result?_eq (h.promises a ha)] at ho
  exact h.messages.result (haccounted _ _ h.connection).sound (List.mem_map_of_mem ha) ho

/-- When all results are known, nothing is on its way. -/
theorem Prompt.cleared (h : s.Prompt d c limit owed g) (haccounted : s.Accounted)
    (hall : ∀ a ∈ g.burst.sent, (s.result? a.1).isSome) : g.conn.Delivers owed [] := by
  refine h.messages.cleared (haccounted _ _ h.connection).sound fun b hb => ?_
  obtain ⟨a, ha, rfl⟩ := List.mem_map.mp hb
  rw [← h.result?_eq (h.promises a ha)]
  exact hall a ha

/-! ## Effects -/

/-- A message is sent on a connection that there is, under a new transaction id. -/
theorem send_eq {conn : Connection} (hc : s.connections[c]? = some conn) (m : Message) :
    s.send c none m = some (⟨c, (conn.allocate.2.send s.now conn.allocate.1 m).1⟩,
      s.modifyConnection c fun _ => (conn.allocate.2.send s.now conn.allocate.1 m).2) := by
  rw [System.send, hc]
  rfl

/-- An effect of the job that is being done is answered.  The job keeps to its burst, and it is
nearer to its end. -/
structure Stage.Onward (g : Stage) (c : ConnectionId) (limit : Nat) (owed : List Envelope)
    (q : Effect) (a : q.Answer) (s' : System) (k : Burst) (conn : Connection) : Prop where
  next : (bursts limit).next g.burst q a k
  connection : s'.connections[c]? = some conn
  capacity : limit ≤ conn.capacity
  messages : conn.Delivers owed (replies k.sent)
  promises : ∀ b ∈ k.sent, b.1.connection = c
  left : k.budget + conn.distance owed + 1 ≤ g.burst.budget + g.conn.distance owed

/-- A message is sent: there is room for it, and a transaction id. -/
theorem Prompt.onward_send (h : s.Prompt d c limit owed g) (hids : limit ≤ UInt32.size)
    {m : Message} {p : Promise} (hcost : 5 ≤ g.burst.budget)
    (hroom : g.burst.sent.length < limit) (hsend : s.send c none m = some (p, s')) :
    ∃ k conn, g.Onward c limit owed (.send m) p s' k conn := by
  have hlength : (replies g.burst.sent).length = g.burst.sent.length := List.length_map _
  have hcapacity := h.capacity
  have hdelivers := h.messages.send s.now m (by omega) (by omega)
  rw [send_eq h.connection] at hsend
  generalize g.conn.allocate.2.send s.now g.conn.allocate.1 m = r at hsend hdelivers
  obtain ⟨reply, conn⟩ := r
  obtain ⟨hdelivers, hsame, hdistance⟩ := hdelivers
  replace hsame : conn.capacity = g.conn.capacity := hsame
  replace hdistance : conn.distance owed = g.conn.distance owed + 4 := hdistance
  cases hsend
  have hbudget : g.burst.budget ≤ g.burst.budget - 5 + 5 := by omega
  refine ⟨{ sent := g.burst.sent ++ [(⟨c, reply⟩, m)], budget := g.burst.budget - 5 }, conn,
    ⟨hbudget, rfl⟩, getElem?_modifyConnection h.connection _, ?_, ?_, ?_, ?_⟩
  · rw [hsame]
    exact hcapacity
  · rw [replies, List.map_append]
    exact hdelivers
  · exact List.forall_mem_append.mpr ⟨h.promises, List.forall_mem_singleton.mpr rfl⟩
  · show g.burst.budget - 5 + conn.distance owed + 1 ≤ _
    omega

/-- All that was sent is waited for. -/
theorem Prompt.onward_waited (h : s.Prompt d c limit owed g) (haccounted : s.Accounted)
    {q : Effect} {a : q.Answer} (hcost : 1 ≤ g.burst.budget)
    (hall : ∀ b ∈ g.burst.sent, (s.result? b.1).isSome)
    (hnext : (bursts limit).next g.burst q a { budget := g.burst.budget - 1 }) :
    ∃ k conn, g.Onward c limit owed q a s k conn := by
  refine ⟨_, g.conn, hnext, h.connection, h.capacity, h.cleared haccounted hall,
    List.forall_mem_nil _, ?_⟩
  show g.burst.budget - 1 + _ + 1 ≤ _
  omega

/-- Whatever is not sent leaves the connection alone. -/
theorem Prompt.onward_aside (h : s.Prompt d c limit owed g)
    (hconn : s'.connections = s.connections) {q : Effect} {a : q.Answer}
    (hcost : 1 ≤ g.burst.budget)
    (hnext : (bursts limit).next g.burst q a { g.burst with budget := g.burst.budget - 1 }) :
    ∃ k conn, g.Onward c limit owed q a s' k conn := by
  refine ⟨_, g.conn, hnext, ?_, h.capacity, h.messages, h.promises, ?_⟩
  · rw [hconn]
    exact h.connection
  · show g.burst.budget - 1 + _ + 1 ≤ _
    omega

/-- Where results are waited for, those of all messages that were sent come, and they are
confirmations. -/
theorem Prompt.onward_gather (h : s.Prompt d c limit owed g) (haccounted : s.Accounted)
    {members : List Promise} {last : Option Promise} {xs closing : List Settled}
    (hcost : 1 ≤ g.burst.budget) (hsent : g.burst.sent.map Prod.fst = members ++ last.toList)
    (hxs : s.results? members = some xs) (hclosing : s.results? last.toList = some closing) :
    ∃ k conn, g.Onward c limit owed (.gather members last) (xs, closing.head?) s k conn := by
  have hlength := (forall₂_of_results? hxs).length_eq
  have hlast := (forall₂_of_results? hclosing).length_eq
  have htail : closing.head?.toList = closing := by
    cases last with
    | none => rw [List.length_eq_zero_iff.mp hlast.symm]; rfl
    | some p =>
        obtain ⟨x, rfl⟩ := List.length_eq_one_iff.mp hlast.symm
        rfl
  have hboth := results?_append hxs hclosing
  rw [← hsent] at hboth
  refine h.onward_waited haccounted hcost
    (fun b hb => isSome_of_results? hboth _ (List.mem_map_of_mem hb)) ⟨?_, rfl, hlength.symm, ?_⟩
  · exact Nat.le_add_of_sub_le (Nat.le_refl _)
  · rw [htail]
    exact results?_eq (fun b hb o => h.result haccounted hb) hboth

/-- An effect of the job that is being done is answered. -/
theorem Prompt.onward (h : s.Prompt d c limit owed g) (haccounted : s.Accounted)
    (hids : limit ≤ UInt32.size) {q : Effect} {a : q.Answer}
    (hmay : (bursts limit).may g.burst q) (hgroup : ∀ x, q = .readGroup x → s.offers d x = true)
    (hperform : s.perform d c q = .answer a s') : ∃ k conn, g.Onward c limit owed q a s' k conn := by
  obtain ⟨hcost, hallowed⟩ := hmay
  have hone : g.burst.budget ≤ g.burst.budget - 1 + 1 := Nat.le_add_of_sub_le (Nat.le_refl _)
  cases performed_of_answer hperform with
  | sent hsend => exact h.onward_send hids hcost hallowed hsend
  | @awaited p o hresult =>
      obtain ⟨m, hsent⟩ := hallowed
      refine h.onward_waited haccounted hcost ?_ ⟨hone, rfl, fun m' hm' => ?_⟩
      · rw [hsent]
        exact List.forall_mem_singleton.mpr (by rw [hresult]; rfl)
      · exact h.result (a := (p, m')) haccounted (hm' ▸ .head _) hresult
  | gathered hxs hclosing => exact h.onward_gather haccounted hcost hallowed hxs hclosing
  | @readGroup x result hread =>
      refine h.onward_aside rfl hcost ⟨hone, rfl, ?_⟩
      have hoffers := hgroup x rfl
      rw [offers, hread] at hoffers
      split at hoffers
      · next group heq =>
          cases heq
          exact ⟨group, rfl⟩
      · cases hoffers
  | _ =>
      refine h.onward_aside ?_ hcost ?_
      · rfl
      · exact ⟨hone, rfl⟩

/-- A job of a device that does as it is told is not broken off. -/
theorem Prompt.perform_ne_breakOff (h : s.Prompt d c limit owed g) {q : Effect}
    (hgroup : ∀ x, q = .readGroup x → s.offers d x = true) : s.perform d c q ≠ .breakOff := by
  cases q with
  | send m => simp [perform, System.send, h.connection]
  | await p =>
      simp only [perform]
      split <;> simp
  | gather members last =>
      simp only [perform]
      split <;> simp
  | readGroup x =>
      have hoffers := hgroup x rfl
      rw [offers] at hoffers
      cases hread : s.store.readGroup? d x with
      | none =>
          rw [hread] at hoffers
          cases hoffers
      | some result => simp [perform, hread]
  | _ => simp [perform]

/-! ## Jobs go on -/

/-- A lane of the device that has jobs is the one that takes them, and stays so. -/
theorem Prompt.lane_eq (h : s.Prompt d c limit owed g)
    (horderly : Orderly (s.pipeline.lanes.ofDevice d)) (hl : s.pipeline.lanes.get? l = some lane)
    (hd : lane.device = d) (hjobs : lane.jobs ≠ []) {f : Lane Job → Lane Job}
    (hf : ∀ lane, (f lane).device = lane.device)
    (hreleased : ∀ lane, (f lane).released = lane.released) :
    lane = g.lane ∧ OpenLane ((s.pipeline.lanes.modify l f).ofDevice d) g.pre (f lane) := by
  rcases Lanes.ofDevice_modify s.pipeline.lanes d l hf with
    ⟨pre, lane', post, hl', -, hbefore, hbehind⟩ | ⟨hne, -⟩
  · cases hl.symm.trans hl'
    have hpre : lane ∉ g.pre := fun hmem => hjobs (h.earlier lane hmem)
    have hlane : lane ∈ s.pipeline.lanes.ofDevice d := hbefore ▸ List.mem_append_cons_self
    rcases h.opened.last with hlast | ⟨hnone, -⟩
    · rw [hlast] at hlane
      obtain rfl := List.mem_singleton.mp ((List.mem_append.mp hlane).resolve_left hpre)
      rw [hbefore] at horderly
      obtain ⟨rfl, -⟩ := horderly.of_open h.opened.opened
      obtain ⟨rfl, -⟩ := List.append_inj' (hbefore.symm.trans hlast) rfl
      exact ⟨rfl, (hreleased _).trans h.opened.opened, h.opened.others, .inl hbehind⟩
    · exact absurd (hnone ▸ hlane) hpre
  · exact absurd hd (hne lane hl)

/-- A lane that has no jobs starts none. -/
theorem Prompt.start_of_jobs (h : s.Prompt d c limit owed g)
    (hl : s.pipeline.lanes.get? l = some lane) (hidle : lane.start = lane) :
    (s.startJob l).Prompt d c limit owed g := by
  refine h.elsewhere rfl ?_ rfl
  rcases Lanes.ofDevice_modify s.pipeline.lanes d l Lanes.start_device with
    ⟨pre, lane', post, hl', -, hbefore, hbehind⟩ | ⟨-, hsame⟩
  · cases hl.symm.trans hl'
    rw [hidle] at hbehind
    exact hbehind.trans hbefore.symm
  · exact hsame

/-- A lane of the device starts its next job. -/
theorem Prompt.startJob (h : s.Prompt d c limit owed g)
    (horderly : Orderly (s.pipeline.lanes.ofDevice d)) (hl : s.pipeline.lanes.get? l = some lane)
    (hd : lane.device = d) :
    ∃ g', (s.startJob l).Prompt d c limit owed g' ∧
      g'.left owed + (s.laneReady l).toNat ≤ g.left owed := by
  rw [laneReady, hl, Option.any_some, Lane.canStart]
  cases hrunning : lane.running with
  | some job =>
      have hidle : lane.start = lane := by simp [Lane.start, hrunning]
      exact ⟨g, h.start_of_jobs hl hidle, Nat.le_refl _⟩
  | none =>
      cases hwaiting : lane.waiting with
      | nil =>
          have hidle : lane.start = lane := by simp [Lane.start, hwaiting]
          exact ⟨g, h.start_of_jobs hl hidle, Nat.le_refl _⟩
      | cons job waiting =>
          have hjobs : lane.jobs ≠ [] := by simp [Lane.jobs, hwaiting]
          have hreleased (lane : Lane Job) : lane.start.released = lane.released := by
            rw [Lane.start]
            split <;> rfl
          obtain ⟨rfl, hopen⟩ := h.lane_eq horderly hl hd hjobs Lanes.start_device hreleased
          obtain ⟨n, rest, hsteps, hn, hproceeds⟩ := h.jobs.start hrunning hwaiting
          refine ⟨{ g with lane := g.lane.start, burst := { budget := n - 2 }, steps := rest },
            ⟨h.attached, hopen, h.earlier, hproceeds, h.connection, h.capacity, ?_,
              List.forall_mem_nil _⟩, ?_⟩
          · have hmessages := h.messages
            rw [h.jobs.idle hrunning] at hmessages
            exact hmessages
          · simp only [Stage.left, Lane.stepsLeft, hsteps, hrunning, Option.isSome_none,
              Lanes.start_of_canStart hrunning hwaiting, Option.isSome_some, List.sum_cons]
            simp
            omega

/-- The job that is being done comes to its end, and nothing that it has sent is on its way. -/
theorem Prompt.finish (h : s.Prompt d c limit owed g)
    (horderly : Orderly (s.pipeline.lanes.ofDevice d)) (hl : s.pipeline.lanes.get? l = some lane)
    (hd : lane.device = d) (hjob : lane.running = some job) (hclear : g.burst.sent = [])
    (hlanes : s'.pipeline.lanes = s.pipeline.lanes.modify l Lane.finish)
    (hattached : s'.pipeline.attached = s.pipeline.attached)
    (hconn : s'.connections = s.connections) :
    ∃ g', s'.Prompt d c limit owed g' ∧ g'.left owed < g.left owed := by
  have hjobs : lane.jobs ≠ [] := by simp [Lane.jobs, hjob]
  obtain ⟨rfl, hopen⟩ := h.lane_eq horderly hl hd hjobs (f := Lane.finish) (fun _ => rfl)
    fun _ => rfl
  refine ⟨{ g with lane := g.lane.finish }, ⟨?_, ?_, h.earlier, h.jobs.finish hclear, ?_,
    h.capacity, h.messages, h.promises⟩, ?_⟩
  · rw [hattached]
    exact h.attached
  · rw [hlanes]
    exact hopen
  · rw [hconn]
    exact h.connection
  · simp only [Stage.left, Lane.stepsLeft, hjob, Lane.finish]
    simp

/-- The job that is being done goes on after an effect. -/
theorem Prompt.goOn (h : s.Prompt d c limit owed g)
    (horderly : Orderly (s.pipeline.lanes.ofDevice d)) (hl : s.pipeline.lanes.get? l = some lane)
    (hd : lane.device = d) {q : Effect} {next : q.Answer → Program (Outcome Result)}
    {a : q.Answer} {k : Burst} {conn : Connection}
    (hjob : lane.running = some ⟨t, .operate c (.step q next)⟩)
    (hperform : s.perform lane.device c q = .answer a s')
    (honward : g.Onward c limit owed q a s' k conn)
    (hnext : (⟨t, .operate c (next a)⟩ : Job).Proceeds c limit k) :
    ∃ g', (s.stepJob l).Prompt d c limit owed g' ∧ g'.left owed < g.left owed := by
  have hjobs : lane.jobs ≠ [] := by simp [Lane.jobs, hjob]
  obtain ⟨hstep, -⟩ := stepJob_answer hl hjob hperform
  have heff := perform_effects hperform
  obtain ⟨rfl, hopen⟩ := h.lane_eq horderly hl hd hjobs
    (f := fun lane => { lane with running := some ⟨t, .operate c (next a)⟩ })
    (fun _ => rfl) fun _ => rfl
  rw [hstep]
  refine ⟨{ g with
    lane := { g.lane with running := some ⟨t, .operate c (next a)⟩ }
    burst := k
    conn }, ⟨?_, ?_, h.earlier, ⟨?_, by simp, h.jobs.waiting⟩, honward.connection,
      honward.capacity, honward.messages, honward.promises⟩, ?_⟩
  · exact (congrArg (·.get? d) heff.attached).trans h.attached
  · rw [heff.lanes_suspendJob]
    exact hopen
  · intro job hrunning
    cases hrunning
    exact hnext
  · have hleft := honward.left
    simp only [Stage.left, Lane.stepsLeft, hjob, Option.isSome_some, if_true]
    omega

/-- The job that is being done goes on, or it ends with success. -/
theorem Prompt.stepJob (h : s.Prompt d c limit owed g) (hserved : s.Served)
    (hids : limit ≤ UInt32.size) (hl : s.pipeline.lanes.get? l = some lane)
    (hd : lane.device = d) (hjob : lane.running = some job)
    (hlookup : ∀ x ∈ s.lookup? d l, s.offers d x = true) :
    (∃ g', (s.stepJob l).Prompt d c limit owed g' ∧
        g'.left owed + (s.jobReady l).toNat ≤ g.left owed) ∧
      ((s.stepJob l).results = s.results ∨
        ∃ v, (s.stepJob l).results = (job.ticket, .ok v) :: s.results) := by
  have horderly := (hserved.session d).orderly
  have hjobs : lane.jobs ≠ [] := by simp [Lane.jobs, hjob]
  obtain ⟨hlane, -⟩ := h.lane_eq horderly hl hd hjobs (f := id) (fun _ => rfl) fun _ => rfl
  have hproceeds : job.Proceeds c limit g.burst := h.jobs.running job (hlane ▸ hjob)
  have hcloser {s' : System} (hnext : ∃ g', s'.Prompt d c limit owed g' ∧
      g'.left owed < g.left owed) :
      ∃ g', s'.Prompt d c limit owed g' ∧ g'.left owed + (s.jobReady l).toNat ≤ g.left owed := by
    obtain ⟨g', hg', hlt⟩ := hnext
    have hone := Bool.toNat_le (s.jobReady l)
    exact ⟨g', hg', by omega⟩
  obtain ⟨t, work⟩ := job
  cases work with
  | clear => exact hproceeds.elim
  | observe f =>
      have hstep : s.stepJob l = { s with
          pipeline.flows := (s.pipeline.flows.observe lane.device f).2 }.finishJob l t
            (.ok (.descriptor (s.pipeline.flows.observe lane.device f).1)) := by
        simp only [System.stepJob, hl, hjob]
      rw [hstep]
      exact ⟨hcloser (h.finish horderly hl hd hjob hproceeds rfl rfl rfl), .inr ⟨_, rfl⟩⟩
  | operate c' rest =>
      obtain ⟨rfl, hfollows⟩ := hproceeds
      cases rest with
      | done result =>
          obtain ⟨hclear, v, rfl⟩ := hfollows
          have hstep : s.stepJob l = s.finishJob l t (.ok v) := by
            simp only [System.stepJob, hl, hjob, stepProgram]
          rw [hstep]
          exact ⟨hcloser (h.finish horderly hl hd hjob hclear rfl rfl rfl), .inr ⟨v, rfl⟩⟩
      | step q next =>
          have hgroup (x : GroupId) (hx : q = .readGroup x) : s.offers d x = true := by
            subst hx
            exact hlookup x (by simp [lookup?, hl, hjob, hd])
          have hready : s.jobReady l = s.canRun (.step q next) := by
            rw [jobReady, hl, Option.bind_some, hjob]
          subst hd
          cases hperform : s.perform lane.device c' q with
          | breakOff => exact absurd hperform (h.perform_ne_breakOff hgroup)
          | wait =>
              have hstill : s.stepJob l = s := by
                simp only [System.stepJob, hl, hjob, stepProgram, hperform]
                exact suspendJob_self hl hjob
              rw [hstill, hready]
              refine ⟨⟨g, h, ?_⟩, .inl rfl⟩
              cases hcan : s.canRun (.step q next) with
              | false => exact Nat.le_refl _
              | true => exact absurd hperform (perform_ne_wait hcan)
          | answer a s₁ =>
              obtain ⟨k, conn, honward⟩ :=
                h.onward hserved.accounted hids hfollows.1 hgroup hperform
              obtain ⟨hstep, -⟩ := stepJob_answer hl hjob hperform
              refine ⟨hcloser (h.goOn horderly hl rfl hjob hperform honward
                ⟨rfl, hfollows.2 a k honward.next⟩), .inl ?_⟩
              rw [hstep]
              exact (perform_effects hperform).results

/-! ## Requests -/

/-- A request that is small enough is accepted or refused, and goes on to succeed. -/
theorem Prompt.submit (h : s.Prompt d c limit owed g) (hserved : s.Served) (hlimit : 1 ≤ limit)
    {r : Request} {quiet : Bool} (hr : r.device = d) (hfits : r.Fits limit) :
    ∃ g', (s.after (.submit r quiet)).Prompt d c limit owed g' ∧
      g'.left owed ≤ g.left owed + stepsOf d (s.requested? (.submit r quiet)).toList := by
  cases hsubmit : s.pipeline.submit r with
  | mk result p =>
      cases result with
      | error cause =>
          refine ⟨g, h.elsewhere ?_ ?_ ?_, Nat.le_add_right _ _⟩
          all_goals
            simp only [System.after, System.submit, hsubmit]
            rfl
      | ok t =>
          obtain ⟨c', -, hchannel, rfl, rfl⟩ := submit_ok hsubmit
          have hc := Pipeline.channel_ok hchannel
          rw [hr, h.attached] at hc
          cases hc
          subst hr
          obtain ⟨pre, lane, hopen, hqueued, -⟩ := Lanes.exists_openLane
            (hserved.session r.device).orderly ⟨s.pipeline.tickets, r.work s.pipeline.policy c⟩
          obtain ⟨rfl, hjobs, hleft⟩ := h.opened.proceeds hopen h.jobs
          have hpipeline : (s.after (.submit r quiet)).pipeline = _ := after_submit hsubmit
          have hconnections : (s.after (.submit r quiet)).connections = s.connections := by
            simp only [System.after, System.submit, hsubmit]
            rfl
          have hsteps : 2 ≤ r.steps := by
            rw [Request.steps]
            omega
          refine ⟨{ g with lane := lane.push ⟨s.pipeline.tickets, r.work s.pipeline.policy c⟩,
                           steps := g.steps ++ [r.steps] }, ⟨?_, ?_, h.earlier,
            hjobs.push hsteps (r.proceeds hlimit hfits _ c _), ?_, h.capacity, h.messages,
            h.promises⟩, ?_⟩
          · rw [hpipeline]
            exact h.attached
          · rw [hpipeline]
            exact ⟨hopen.opened, hopen.others, .inl hqueued⟩
          · rw [hconnections]
            exact h.connection
          · have hrequested : s.requested? (.submit r quiet) = some (s.pipeline.tickets, r) := by
              simp [requested?, hsubmit, Except.toOption]
            have hsame : (lane.push ⟨s.pipeline.tickets, r.work s.pipeline.policy c⟩).stepsLeft
                g.burst = lane.stepsLeft g.burst := rfl
            rw [hrequested]
            simp only [Stage.left, hsame, hleft, List.sum_append, List.sum_singleton,
              Option.toList_some, stepsOf, List.filter_singleton, decide_true, cond_true,
              List.map_singleton]
            omega

/-! ## Events -/

theorem exists_lane_of_laneDevice? (h : s.laneDevice? l = some d) :
    ∃ lane, s.pipeline.lanes.get? l = some lane ∧ lane.device = d :=
  Option.map_eq_some_iff.mp h

/-- The job of a lane of the device goes on. -/
theorem Prompt.stepJob_of_lane (h : s.Prompt d c limit owed g) (hserved : s.Served)
    (hids : limit ≤ UInt32.size) (hl : s.laneDevice? l = some d)
    (hlookup : ∀ x ∈ s.lookup? d l, s.offers d x = true) :
    ∃ g', (s.stepJob l).Prompt d c limit owed g' ∧
      g'.left owed + (s.jobReady l).toNat ≤ g.left owed := by
  obtain ⟨lane, hl, hd⟩ := exists_lane_of_laneDevice? hl
  cases hjob : lane.running with
  | some job => exact (h.stepJob hserved hids hl hd hjob hlookup).1
  | none =>
      have hstill : s.stepJob l = s := by simp only [System.stepJob, hl, hjob]
      rw [hstill, jobReady, hl, Option.bind_some, hjob]
      exact ⟨g, h, Nat.le_refl _⟩

/-- While a device does as it is told, everything goes on to succeed, and an event that brings it
nearer to its end lowers what is left to do. -/
theorem Prompt.after (h : s.Prompt d c limit owed g) (hserved : s.Served) (hlimit : 1 ≤ limit)
    (hids : limit ≤ UInt32.size) (he : s.Allows d c limit owed e) :
    ∃ g', (s.after e).Prompt d c limit (s.owedAfter c owed e) g' ∧
      g'.left (s.owedAfter c owed e) + (s.moves d c owed e).toNat ≤
        g.left owed + stepsOf d (s.requested? e).toList := by
  have hother (howner : s.owner? e ≠ some d) : (s.after e).Prompt d c limit owed g :=
    h.untouched hserved.wired (untouched_after hserved.plain hserved.wired howner)
  -- The device is as far as it was, and the event does not bring it nearer to its end.
  have hstill (howed : s.owedAfter c owed e = owed) (hmoves : s.moves d c owed e = false)
      (hsame : (s.after e).Prompt d c limit owed g) :
      ∃ g', (s.after e).Prompt d c limit (s.owedAfter c owed e) g' ∧
        g'.left (s.owedAfter c owed e) + (s.moves d c owed e).toNat ≤
          g.left owed + stepsOf d (s.requested? e).toList := by
    rw [howed, hmoves]
    exact ⟨g, hsame, Nat.le_add_right _ _⟩
  cases e with
  | submit r quiet =>
      by_cases hr : r.device = d
      · exact h.submit hserved hlimit hr (he hr)
      · exact hstill rfl rfl (hother fun howner => hr (Option.some.inj howner))
  | startJob l =>
      by_cases hl : s.laneDevice? l = some d
      · obtain ⟨lane, hget, hd⟩ := exists_lane_of_laneDevice? hl
        rw [moves, decide_eq_true hl, Bool.true_and]
        exact h.startJob (hserved.session d).orderly hget hd
      · exact hstill rfl (by rw [moves, decide_eq_false hl, Bool.false_and]) (hother hl)
  | stepJob l =>
      by_cases hl : s.laneDevice? l = some d
      · rw [moves, decide_eq_true hl, Bool.true_and]
        exact h.stepJob_of_lane hserved hids hl he
      · exact hstill rfl (by rw [moves, decide_eq_false hl, Bool.false_and]) (hother hl)
  | openConnection d' codec wireCapacity =>
      refine hstill rfl rfl ?_
      rw [System.after]
      split
      · refine h.elsewhere rfl rfl ?_
        obtain ⟨hlt, -⟩ := List.getElem?_eq_some_iff.mp h.connection
        exact List.getElem?_append_left hlt
      · exact h
  | «forget» c' =>
      by_cases hc : c' = c
      · subst hc
        exact h.stays (h.messages.carries.relays_aside _ _)
      · exact hstill rfl rfl (h.modify_of_ne hc _)
  | writer c' =>
      by_cases hc : c' = c
      · subst hc
        have hmoves : s.moves d c' owed (.writer c') = g.conn.writerReady true := by
          simp [moves, writerReady, h.connection, h.isHeld]
        obtain ⟨hrelays, hlt⟩ := h.messages.carries.relays_writerStep
        rw [hmoves, System.after, writerStep, h.isHeld]
        exact h.relays hrelays hlt
      · refine hstill rfl ?_ (h.modify_of_ne hc _)
        rw [moves, decide_eq_false hc, Bool.false_and]
  | sweeper c' =>
      by_cases hc : c' = c
      · subst hc
        rw [System.after, sweeperStep, h.isHeld]
        refine h.stays ?_
        rw [h.messages.carries.sweeperStep_eq]
        exact h.messages.carries.relays_self
      · exact hstill rfl rfl (h.modify_of_ne hc _)
  | sweep c' =>
      by_cases hc : c' = c
      · subst hc
        exact h.stays (h.messages.carries.relays_sweep (he rfl g.conn h.connection))
      · exact hstill rfl rfl (h.modify_of_ne hc _)
  | read c' =>
      by_cases hc : c' = c
      · subst hc
        obtain ⟨hrelays, hlt⟩ := h.messages.carries.relays_read
        have hmoves : s.moves d c' owed (.read c') = !g.conn.wire.unread.isEmpty := by
          simp [moves, h.connection]
        rw [hmoves, owedAfter, if_pos rfl, h.connection]
        exact h.relays hrelays fun hunread => hlt (by simpa using hunread)
      · refine hstill (if_neg hc) ?_ (h.modify_of_ne hc _)
        rw [moves, decide_eq_false hc, Bool.false_and]
  | receive c' f =>
      by_cases hc : c' = c
      · subst hc
        have hf : g.conn.Proper owed f := he rfl g.conn h.connection
        obtain ⟨hmessages, hle, hlt⟩ :=
          h.messages.receive (hserved.accounted _ _ h.connection).sound hf
        rw [moves, owedAfter, if_pos rfl, h.connection]
        exact h.modify (Connection.same_after g.conn (.receive f)).capacity hmessages hle
          fun hless => hlt (of_decide_eq_true hless)
      · refine hstill (if_neg hc) ?_ (h.modify_of_ne hc _)
        rw [moves, owedAfter, if_neg hc, decide_eq_false (Nat.lt_irrefl _)]
  | _ => exact hstill rfl rfl (hother he)

end System

end Southbound
