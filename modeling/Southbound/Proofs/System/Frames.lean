import Southbound.Proofs.Connection.Answers
import Southbound.Proofs.Connection.Together
import Southbound.Proofs.System.Steps

/-!
# Where frames of a device come in

The device of a connection is heard in one event and no other: a frame arrives from it.
Whatever else happens in the system, no connection takes a frame
(`System.unprompted_after`), so nothing is answered.  A connection that there is after an
event has just been opened, has taken that frame, or has taken none (`System.came_after`).

Nor does an event settle a request of a connection for itself, but for that frame, a step of the
writer, and a withdrawal (`System.turn_after`).
-/

namespace Southbound

/-- To send messages settles no request for itself. -/
theorem Connection.SentOn.impartial {c c' : Connection} (h : SentOn c c') : Impartial c c' := by
  obtain ⟨es, hes, rfl⟩ := h
  refine ⟨es, fun e he => ?_, rfl⟩
  have hsend := hes e he
  cases e with
  | send now x m => rfl
  | _ => cases hsend

/-- A request that a frame settles is settled for itself. -/
theorem Connection.Impartial.unprompted {c c' : Connection} (h : Impartial c c') :
    Unprompted c c' := by
  obtain ⟨es, hes, rfl⟩ := h
  refine ⟨es, fun e he => ?_, rfl⟩
  have himpartial := hes e he
  cases e with
  | receive f => cases himpartial
  | _ => rfl

namespace System

open Connection (Impartial Unprompted)

variable {s s' : System} {d : DeviceId}

/-- Whether a frame arrives from the device of a connection. -/
def Event.isReceive : Event → Bool
  | receive _ _ => true
  | _ => false

/-! ## Parts of events -/

theorem impartial_of_sent (h : Connected Connection.SentOn s s') : Connected Impartial s s' :=
  h.mono fun _ _ hsent => hsent.impartial

/-- One thing happens to one connection, and it settles no request for itself. -/
theorem impartial_modify (s : System) (c : ConnectionId) (e : Connection.Event)
    (he : e.isImpartial = true) : Connected Impartial s (s.modifyConnection c (·.after e)) :=
  connected_modify .refl s c fun conn _ => .once he conn

theorem impartial_detach? {t : Ticket} (h : s.detach? d = some (t, s')) :
    Connected Impartial s s' := by
  rw [detach?] at h
  obtain ⟨c, -, he⟩ := Option.map_eq_some_iff.mp h
  cases he
  exact impartial_modify s c .disconnect rfl

theorem impartial_detachNext (s : System) (ds : List DeviceId) :
    Connected Impartial s (s.detachNext ds).2 := by
  induction ds with
  | nil => exact .of_eq .refl rfl
  | cons d ds ih =>
      rw [detachNext]
      split
      · next t s' hd => exact impartial_detach? hd
      · exact ih

theorem impartial_insert (s : System) (c : ConnectionId) :
    Connected Impartial s (s.insert c) := by
  rw [insert]
  split
  · exact .of_eq .refl rfl
  · dsimp only
    split
    · exact .of_eq .refl rfl
    · next c' _ => exact impartial_modify _ c' .disconnect rfl

theorem impartial_stepErrand (hplain : s.Plain) (n : ErrandId) :
    Connected Impartial s (s.stepErrand n) := by
  rw [stepErrand]
  cases hn : s.errand? n with
  | none => exact .of_eq .refl rfl
  | some e =>
      rw [Option.bind_some]
      split
      · next e' s' he =>
          show Connected Impartial s s'
          cases e with
          | «over» result => cases he
          | reply p => cases he
          | attach c =>
              cases he
              exact s.impartial_insert c
          | job t quiet =>
              obtain ⟨_, -, he⟩ := Option.map_eq_some_iff.mp he
              cases he
              exact .of_eq .refl rfl
          | detach t =>
              obtain ⟨_, -, he⟩ := Option.map_eq_some_iff.mp he
              cases he
              exact .of_eq .refl rfl
          | shutdown t rest =>
              obtain ⟨_, -, he⟩ := Option.map_eq_some_iff.mp he
              have hs : (s.detachNext rest).2 = s' := congrArg Prod.snd he
              exact hs ▸ impartial_detachNext s rest
          | program c rest =>
              simp only [advanceErrand?] at he
              split at he
              · cases he
                have hstep := stepProgram_transported (s := s) (d := s.errandDevice c) (c := c)
                  (hplain.errand? hn)
                exact impartial_of_sent hstep.1.connections
              · cases he
      · exact .of_eq .refl rfl

theorem impartial_stepJob (s : System) (l : LaneId) : Connected Impartial s (s.stepJob l) := by
  have hstep := jobStep_stepJob s l
  generalize s.stepJob l = s' at hstep ⊢
  cases hstep with
  | answer _ _ hperform => exact impartial_of_sent (perform_effects hperform).connections
  | _ => exact .of_eq .refl rfl

/-! ## Events -/

/-- Whether an event leaves open how a connection goes on: it is opened, it takes a frame, a
message on it is withdrawn, or its writer goes on. -/
def Event.isPartial : Event → Bool
  | openConnection _ _ _ => true
  | receive _ _ => true
  | cancel _ => true
  | writer _ => true
  | _ => false

/-- Whatever else happens, requests are not settled for themselves. -/
theorem impartial_after (hplain : s.Plain) {e : Event} (he : e.isPartial = false) :
    Connected Impartial s (s.after e) := by
  cases e with
  | openConnection d codec n => cases he
  | receive c f => cases he
  | cancel n => cases he
  | writer c => cases he
  | send c x m =>
      simp only [after, beginSend?]
      cases hsend : s.send c x m with
      | none => exact .of_eq .refl rfl
      | some r => exact impartial_of_sent (send_transported hsend).connections
  | barrier c =>
      obtain ⟨-, -, -, hconn, -⟩ :=
        beginProgram_transported c (Operation.follows_barrier transport_patient) hplain
      exact impartial_of_sent hconn
  | compose c ns barrierAfter =>
      simp only [after, beginBatch?]
      cases hps : s.takePromises? ns with
      | none => exact .of_eq .refl rfl
      | some r =>
          obtain ⟨ps, s'⟩ := r
          obtain ⟨hs', hplain'⟩ := takePromises?_cases hps
          have hbegun {o : Operation Unit} (ho : Operation.Follows transport () o fun _ _ => True) :
              Connected Impartial s (s'.beginProgram c o).2 := by
            have hsame : Connected Connection.SentOn s s' := .of_eq .refl (by rw [hs'])
            obtain ⟨-, -, -, hconn, -⟩ := beginProgram_transported c ho (hplain' hplain)
            exact impartial_of_sent (hsame.trans hconn .trans)
          cases barrierAfter with
          | none => exact hbegun (Operation.follows_settleBatch transport_patient ps none)
          | some b => exact hbegun (Operation.follows_composeWithBarrier transport_patient ps b)
  | read c => exact impartial_modify s c .read rfl
  | closeWire c => exact impartial_modify s c .closeWire rfl
  | disconnect c => exact impartial_modify s c .disconnect rfl
  | forget c => exact impartial_modify s c .forget rfl
  | sweeper c => exact impartial_modify s c (.sweeper (s.isHeld c)) rfl
  | sweep c => exact impartial_modify s c (.sweep s.now) rfl
  | submit r quiet =>
      simp only [after, submit]
      split <;> exact .of_eq .refl rfl
  | noteStale flow =>
      simp only [after, noteStale]
      split <;> exact .of_eq .refl rfl
  | attach c =>
      rw [after_attach]
      split
      · exact .of_eq .refl rfl
      · exact s.impartial_insert c
  | detach d =>
      simp only [after, beginDetach]
      split
      · next t s' hd =>
          show Connected Impartial s s'
          exact impartial_detach? hd
      · exact .of_eq .refl rfl
  | shutdown =>
      simp only [after, beginShutdown]
      split
      · exact .of_eq .refl rfl
      · exact impartial_detachNext { s with pipeline.shuttingDown := true } s.pipeline.devices
  | stepJob l => exact impartial_stepJob s l
  | stepErrand n => exact impartial_stepErrand hplain n
  | _ => exact .of_eq .refl rfl

/-- Whether a request is withdrawn in an event. -/
def withdraws (s : System) : Event → Bool
  | .cancel n => (s.cancel? n).any Prod.fst
  | _ => false

/-- When whoever waits for a message gives up, one request is withdrawn, or nothing happens. -/
theorem withdrawn_after (s : System) (n : ErrandId) :
    Connected (fun conn conn' => conn' = conn ∨ s.withdraws (.cancel n) = true ∧
      ∃ reply, conn' = conn.after (.withdraw reply)) s (s.after (.cancel n)) := by
  have hsame (Q : Connection → Connection → Prop) (hQ : ∀ conn, Q conn conn) :
      Connected Q s s := .of_eq hQ rfl
  simp only [after, withdraws, cancel?]
  cases s.errand? n with
  | none => exact hsame _ fun _ => .inl rfl
  | some e =>
      cases e with
      | reply p =>
          simp only [Option.map_some, Option.getD_some, Option.any_some, withdraw]
          split
          · exact hsame _ fun _ => .inl rfl
          · next conn hconn =>
              refine connected_modify (fun _ => .inl rfl) s p.connection fun c hc => ?_
              cases hconn.symm.trans hc
              cases hdone : (p.reply.cancel conn.registry).1 with
              | true => exact .inr ⟨rfl, p.reply, rfl⟩
              | false =>
                  left
                  rw [TransactionRegistry.cancel_of_refused p.reply hdone]
      | _ => exact hsame _ fun _ => .inl rfl

/-- Whatever happens but that a frame arrives or a connection is opened, no connection takes
a frame. -/
theorem unprompted_after (hplain : s.Plain) {e : Event} (he : e.isReceive = false)
    (hopen : ∀ d codec n, e ≠ .openConnection d codec n) : Connected Unprompted s (s.after e) := by
  cases hpartial : e.isPartial with
  | false => exact (impartial_after hplain hpartial).mono fun _ _ h => h.unprompted
  | true =>
      cases e with
      | openConnection d codec n => exact absurd rfl (hopen d codec n)
      | receive c f => cases he
      | cancel n =>
          refine (withdrawn_after s n).mono fun conn conn' h => ?_
          rcases h with rfl | ⟨-, reply, rfl⟩
          · exact .refl conn'
          · exact .once rfl conn
      | writer c =>
          exact connected_modify .refl s c fun conn _ => .once (e := .writer (s.isHeld c)) rfl conn
      | _ => cases hpartial

/-- What happens to a connection in an event. -/
inductive Turn (s : System) (c : ConnectionId) (conn : Connection) : Event → Connection → Prop where
  /-- No request of the connection is settled for itself. -/
  | impartial {e : Event} {conn' : Connection} : Impartial conn conn' → Turn s c conn e conn'
  | received (f : Frame) : Turn s c conn (.receive c f) (conn.receive f)
  | wrote (held : Bool) : Turn s c conn (.writer c) (conn.writerStep held)
  | withdrew {e : Event} (reply : Reply) :
      s.withdraws e = true → Turn s c conn e (conn.after (.withdraw reply))

theorem turn_after (hplain : s.Plain) (e : Event) {c : ConnectionId} {conn : Connection}
    (hc : s.connections[c]? = some conn) :
    ∃ conn', (s.after e).connections[c]? = some conn' ∧ Turn s c conn e conn' := by
  have hmodify (c' : ConnectionId) (f : Connection → Connection) :
      (s.modifyConnection c' f).connections[c]? = some (if c' = c then f conn else conn) := by
    show (s.connections.modify c' f)[c]? = _
    rw [List.getElem?_modify, hc, Option.map_eq_map, Option.map_some]
  cases hpartial : e.isPartial with
  | false =>
      obtain ⟨conn', hc', h⟩ := (impartial_after hplain hpartial).exists_of_some hc
      exact ⟨conn', hc', .impartial h⟩
  | true =>
      cases e with
      | openConnection d codec n =>
          refine ⟨conn, ?_, .impartial (.refl conn)⟩
          simp only [after]
          split
          · obtain ⟨hlt, -⟩ := List.getElem?_eq_some_iff.mp hc
            rw [List.getElem?_append_left hlt, hc]
          · exact hc
      | receive c' f =>
          refine ⟨_, hmodify c' _, ?_⟩
          split
          · next heq => exact heq ▸ .received f
          · exact .impartial (.refl conn)
      | cancel n =>
          obtain ⟨conn', hc', h⟩ := (withdrawn_after s n).exists_of_some hc
          refine ⟨conn', hc', ?_⟩
          rcases h with rfl | ⟨hwithdraws, reply, rfl⟩
          · exact .impartial (.refl conn')
          · exact .withdrew reply hwithdraws
      | writer c' =>
          refine ⟨_, hmodify c' _, ?_⟩
          split
          · next heq => exact heq ▸ .wrote (s.isHeld c')
          · exact .impartial (.refl conn)
      | _ => cases hpartial

/-- The slot of the request on a connection that is answered in an event. -/
def answers? (s : System) (c : ConnectionId) : Event → Option Slot
  | .receive c' f => if c' = c then (s.connections[c]?).bind (·.answers? f) else none
  | _ => none

/-- How a connection has come about that there is after an event. -/
inductive Came (s : System) (c : ConnectionId) (conn' : Connection) : Event → Prop where
  /-- It has just been opened. -/
  | opened {d : DeviceId} {codec : Codec} {n : Nat} :
      s.connections[c]? = none → Connection.open? d codec n s.pipeline.config s.now = some conn' →
      Came s c conn' (.openConnection d codec n)
  /-- It has taken a frame from its device. -/
  | received {conn : Connection} {f : Frame} :
      s.connections[c]? = some conn → conn' = conn.receive f → Came s c conn' (.receive c f)
  | unprompted {conn : Connection} {e : Event} :
      s.connections[c]? = some conn → Unprompted conn conn' → s.answers? c e = none →
      Came s c conn' e

theorem came_after (hplain : s.Plain) (e : Event) {c : ConnectionId} {conn' : Connection}
    (hc' : (s.after e).connections[c]? = some conn') : Came s c conn' e := by
  have hother (he : e.isReceive = false) (hopen : ∀ d codec n, e ≠ .openConnection d codec n) :
      Came s c conn' e := by
    obtain ⟨conn, hc, hconn⟩ := (unprompted_after hplain he hopen).exists_of_some' hc'
    refine .unprompted hc hconn ?_
    cases e with
    | receive c f => cases he
    | _ => rfl
  cases e with
  | openConnection d codec n =>
      simp only [after] at hc'
      split at hc'
      · next conn hopen =>
          cases hc : s.connections[c]? with
          | some conn₀ =>
              obtain ⟨hlt, -⟩ := List.getElem?_eq_some_iff.mp hc
              rw [List.getElem?_append_left hlt, hc] at hc'
              cases hc'
              exact .unprompted hc (.refl conn') rfl
          | none =>
              rw [List.getElem?_append_right (List.getElem?_eq_none_iff.mp hc),
                List.getElem?_singleton] at hc'
              split at hc'
              · cases hc'
                exact .opened hc hopen
              · cases hc'
      · exact .unprompted hc' (.refl conn') rfl
  | receive c₁ f =>
      have hmodify : (s.connections.modify c₁ (·.receive f))[c]? = some conn' := hc'
      rw [List.getElem?_modify] at hmodify
      obtain ⟨conn, hc, hconn⟩ := Option.map_eq_some_iff.mp hmodify
      split at hconn
      · next heq =>
          subst heq
          exact .received hc hconn.symm
      · next hne =>
          cases hconn
          exact .unprompted hc (.refl _) (if_neg hne)
  | _ => exact hother rfl fun d codec n h => by cases h

end System

end Southbound
