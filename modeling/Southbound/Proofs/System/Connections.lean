import Southbound.Proofs.System.Event

/-!
# Connections in a run

One event of the system does little to a connection: one thing happens to it, or
messages are sent on it (`Connection.Round`).  `System.Connected` relates every
connection to what has become of it, when none was opened.
-/

namespace Southbound

/-! ## One connection -/

namespace Connection

/-- The connection after some messages were sent. -/
def SentOn (c c' : Connection) : Prop := ∃ es, (∀ e ∈ es, Event.isSend e = true) ∧ c' = c.go es

theorem SentOn.refl (c : Connection) : SentOn c c := ⟨[], by simp, rfl⟩

theorem SentOn.trans {c c' c'' : Connection} (h : SentOn c c') (h' : SentOn c' c'') :
    SentOn c c'' := by
  obtain ⟨es, hes, rfl⟩ := h
  obtain ⟨es', hes', rfl⟩ := h'
  refine ⟨es ++ es', fun e he => ?_, (go_append c es es').symm⟩
  exact (List.mem_append.mp he).elim (hes e) (hes' e)

/-- What one event of the system can do to a connection. -/
inductive Round (c : Connection) : Connection → Prop where
  | once (e : Event) : Round c (c.after e)
  | sent (c' : Connection) : SentOn c c' → Round c c'

theorem Round.refl (c : Connection) : Round c c := .sent c (.refl c)

theorem Round.same {c c' : Connection} (h : Round c c') : Same c c' := by
  cases h with
  | once e => exact same_after c e
  | sent _ hs =>
      obtain ⟨es, -, rfl⟩ := hs
      exact same_go c es

/-- Messages that are sent join the queue. -/
theorem SentOn.queued {c c' : Connection} (h : SentOn c c') :
    ∃ new, c'.outbound = c.outbound ++ new ∧ c'.writer = c.writer ∧ c'.wire.sent = c.wire.sent := by
  obtain ⟨es, hes, rfl⟩ := h
  induction es generalizing c with
  | nil => exact ⟨[], by simp, rfl, rfl⟩
  | cons e es ih =>
      obtain ⟨new', hq', hw', hs'⟩ := ih (c := c.after e) fun e he => hes e (.tail _ he)
      cases e with
      | send now x m =>
          obtain ⟨registry, new, -, he⟩ := after_send_cases c now x m
          rw [he] at hq' hw' hs'
          refine ⟨new ++ new', ?_, ?_, ?_⟩
          · rw [go_cons, he, hq', List.append_assoc]
          · rw [go_cons, he, hw']
          · rw [go_cons, he, hs']
      | _ => cases hes _ (.head _)

theorem Round.transit {c c' : Connection} (h : Round c c') : Transit c c' := by
  cases h with
  | once e => exact transit_after c e
  | sent _ hs =>
      obtain ⟨new, hq, hw, hsent⟩ := hs.queued
      exact .queued new hq hw hsent

end Connection

/-! ## All connections -/

namespace System

/-- Every connection is related to what has become of it, and none was opened. -/
def Connected (R : Connection → Connection → Prop) (s s' : System) : Prop :=
  ∀ c : ConnectionId, Option.Rel R s.connections[c]? s'.connections[c]?

variable {R R' : Connection → Connection → Prop} {s s' s'' : System}

theorem Connected.of_eq (hR : ∀ c, R c c) (h : s'.connections = s.connections) :
    Connected R s s' := by
  intro c
  rw [h]
  cases s.connections[c]? with
  | none => exact .none
  | some conn => exact .some (hR conn)

theorem Connected.mono (h : Connected R s s') (hR : ∀ c c', R c c' → R' c c') :
    Connected R' s s' := by
  intro c
  have h₁ := h c
  generalize s.connections[c]? = o at h₁ ⊢
  generalize s'.connections[c]? = o' at h₁ ⊢
  cases h₁ with
  | none => exact .none
  | some hr => exact .some (hR _ _ hr)

theorem Connected.trans (h : Connected R s s') (h' : Connected R s' s'')
    (hR : ∀ {c c' c''}, R c c' → R c' c'' → R c c'') : Connected R s s'' := by
  intro c
  have h₁ := h c
  have h₂ := h' c
  generalize s.connections[c]? = o at h₁ ⊢
  generalize s'.connections[c]? = o' at h₁ h₂
  generalize s''.connections[c]? = o'' at h₂ ⊢
  cases h₁ with
  | none => exact h₂
  | some hr =>
      cases h₂ with
      | some hr' => exact .some (hR hr hr')

/-- A connection that was there is there, and related to what it was. -/
theorem Connected.exists_of_some {c : ConnectionId} {conn : Connection} (h : Connected R s s')
    (hc : s.connections[c]? = some conn) :
    ∃ conn', s'.connections[c]? = some conn' ∧ R conn conn' := by
  have h₁ := h c
  rw [hc] at h₁
  generalize s'.connections[c]? = o' at h₁
  cases h₁ with
  | some hr => exact ⟨_, rfl, hr⟩

/-- A connection that is there was there. -/
theorem Connected.exists_of_some' {c : ConnectionId} {conn' : Connection} (h : Connected R s s')
    (hc : s'.connections[c]? = some conn') :
    ∃ conn, s.connections[c]? = some conn ∧ R conn conn' := by
  have h₁ := h c
  rw [hc] at h₁
  generalize s.connections[c]? = o at h₁
  cases h₁ with
  | some hr => exact ⟨_, rfl, hr⟩

theorem connected_modify (hR : ∀ c, R c c) (s : System) (c : ConnectionId)
    {f : Connection → Connection} (hf : ∀ conn, s.connections[c]? = some conn → R conn (f conn)) :
    Connected R s (s.modifyConnection c f) := by
  intro c'
  show Option.Rel R s.connections[c']? (s.connections.modify c f)[c']?
  rw [List.getElem?_modify]
  cases hc' : s.connections[c']? with
  | none => exact .none
  | some conn =>
      show Option.Rel R (some conn) (some (if c = c' then f conn else conn))
      split
      · next he =>
          subst he
          exact .some (hf conn hc')
      · exact .some (hR conn)

/-- A message is sent on one connection. -/
theorem send_sentOn {s s' : System} {c : ConnectionId} {x : Option Xid} {m : Message}
    {p : Promise} (h : s.send c x m = some (p, s')) :
    s' = { s with connections := s'.connections } ∧ Connected Connection.SentOn s s' := by
  rw [send] at h
  cases hc : s.connections[c]? with
  | none =>
      rw [hc] at h
      cases h
  | some conn =>
      rw [hc] at h
      have hsent : ∀ conn', conn' = conn.after (.send s.now x m) →
          Connection.SentOn conn conn' := by
        rintro conn' rfl
        exact ⟨[.send s.now x m], by simp [Connection.Event.isSend], rfl⟩
      cases x with
      | some x =>
          cases h
          refine ⟨rfl, connected_modify .refl s c fun conn' hconn' => ?_⟩
          cases hc.symm.trans hconn'
          exact hsent _ rfl
      | none =>
          cases h
          refine ⟨rfl, connected_modify .refl s c fun conn' hconn' => ?_⟩
          cases hc.symm.trans hconn'
          exact hsent _ rfl

end System

end Southbound
