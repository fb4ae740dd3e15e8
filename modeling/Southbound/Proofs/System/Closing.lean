import Southbound.Proofs.Connection.Requests
import Southbound.Proofs.Operation.Promises
import Southbound.Proofs.System.Wiring
import Southbound.Proofs.Transaction.Settlement

/-!
# Connections that were closed

A connection that accepts no messages any more is *closed*.  It stays so, and it has no
requests, so every message that was sent on it has its result.  A program that waits
only for what it has sent can therefore always go on there
(`System.canRun_of_closed`).

The connection of a device that is attached stays so or is closed
(`System.attached_or_closed`): a device is not detached, and its connection is not
replaced, without that.
-/

namespace Southbound

/-! ## Replies -/

/-- Whether a reply is known to be one of some registry. -/
def Reply.Opened (r : TransactionRegistry) : Reply → Prop
  | .awaited _ slot => slot < r.slots
  | .failed _ _ => True

theorem Reply.Opened.mono {r r' : TransactionRegistry} {reply : Reply} (h : reply.Opened r)
    (hr : r.slots ≤ r'.slots) : reply.Opened r' := by
  cases reply with
  | awaited x slot => exact Nat.lt_of_lt_of_le h hr
  | failed x cause => trivial

/-- If no request waits, every slot that was opened has its result. -/
theorem Reply.Opened.result? {r : TransactionRegistry} {reply : Reply} (h : reply.Opened r)
    (hr : r.Sound) (hnone : r.pending = []) : (reply.result? r).isSome := by
  cases reply with
  | failed x cause => rfl
  | awaited x slot =>
      have hmem : slot ∈ r.usedSlots := hr.slots.mem_iff.mpr (List.mem_range.mpr h)
      rw [TransactionRegistry.usedSlots, hnone, List.map_nil, List.nil_append] at hmem
      obtain ⟨⟨_, o⟩, ho, rfl⟩ := List.mem_map.mp hmem
      exact Option.isSome_iff_exists.mpr ⟨o, hr.result?_eq_some_iff.mpr ho⟩

namespace Connection

variable {c c' : Connection}

/-- Slots that were opened stay so. -/
theorem slots_le_after (c : Connection) (e : Event) :
    c.registry.slots ≤ (c.after e).registry.slots := by
  obtain ⟨calls, he, -⟩ := registry_after c e
  rw [he, TransactionRegistry.slots_after]
  exact Nat.le_add_right _ _

/-- What every event keeps, a round keeps. -/
theorem Round.inv (h : Round c c') (inv : Connection → Prop)
    (hstep : ∀ c e, inv c → inv (c.after e)) (hc : inv c) : inv c' := by
  cases h with
  | once e => exact hstep c e hc
  | sent _ hs =>
      obtain ⟨es, -, rfl⟩ := hs
      induction es generalizing c with
      | nil => exact hc
      | cons e es ih => exact ih (hstep c e hc)

theorem Round.accounted (h : Round c c') (hc : c.Accounted) : c'.Accounted :=
  h.inv Accounted (fun _ e hc => hc.after e) hc

theorem Round.connected_eq_false (h : Round c c') (hc : c.connected = false) :
    c'.connected = false :=
  h.inv (·.connected = false) (fun _ e hc => connected_after_of_false hc e) hc

theorem Round.slots_le (h : Round c c') : c.registry.slots ≤ c'.registry.slots :=
  h.inv (c.registry.slots ≤ ·.registry.slots)
    (fun c' e hc => Nat.le_trans hc (c'.slots_le_after e)) (Nat.le_refl _)

theorem connected_disconnect (c : Connection) : c.disconnect.connected = false := by
  rw [disconnect]
  split
  · rfl
  · next hc => simpa using hc

/-- The reply to a message that is sent has its slot. -/
theorem opened_send (c : Connection) (now : Instant) (x : Xid) (m : Message) :
    (c.send now x m).1.Opened (c.send now x m).2.registry := by
  rw [send]
  split
  · split
    · trivial
    · next slot registry hregister =>
        obtain ⟨rfl, hslots⟩ : c.registry.slots = slot ∧ registry.slots = c.registry.slots + 1 := by
          rw [TransactionRegistry.register] at hregister
          split at hregister
          · cases hregister
          · cases hregister
            exact ⟨rfl, rfl⟩
        split
        · next cause _ =>
            have hfail := TransactionRegistry.slots_perform registry (.fail x cause)
            show c.registry.slots < (registry.perform (.fail x cause)).2.slots
            omega
        · show c.registry.slots < registry.slots
          omega
  · trivial

end Connection

namespace System

variable {s s' : System} {c : ConnectionId} {d : DeviceId} {p : Promise} {e : Event}

/-! ## Closed connections -/

/-- All connections are accounted for. -/
def Accounted (s : System) : Prop :=
  ∀ (c : ConnectionId) conn, s.connections[c]? = some conn → conn.Accounted

/-- There is a connection, and it accepts no messages any more. -/
def Closed (s : System) (c : ConnectionId) : Prop :=
  ∃ conn, s.connections[c]? = some conn ∧ conn.connected = false

/-- A message was sent on a connection, or it failed at once. -/
def Promised (s : System) (c : ConnectionId) (p : Promise) : Prop :=
  p.connection = c ∧ ∃ conn, s.connections[c]? = some conn ∧ p.reply.Opened conn.registry

theorem accounted_new {config : Config} {s₀ : System} (h : System.new config = .ok s₀) :
    s₀.Accounted := by
  cases eq_of_new h
  intro c conn hc
  cases hc

theorem Accounted.after (hplain : s.Plain) (h : s.Accounted) (e : Event) :
    (s.after e).Accounted := by
  intro c conn' hc'
  cases hc : s.connections[c]? with
  | none =>
      obtain ⟨d, codec, wireCapacity, hopen⟩ := opened_of_none hplain e hc hc'
      exact Connection.accounted_open hopen
  | some conn =>
      obtain ⟨conn₁, hc₁, hround⟩ := exists_round hplain e hc
      cases hc'.symm.trans hc₁
      exact hround.accounted (h c conn hc)

theorem Closed.after (hplain : s.Plain) (h : s.Closed c) (e : Event) : (s.after e).Closed c := by
  obtain ⟨conn, hc, hdown⟩ := h
  obtain ⟨conn', hc', hround⟩ := exists_round hplain e hc
  exact ⟨conn', hc', hround.connected_eq_false hdown⟩

theorem Promised.after (hplain : s.Plain) (h : s.Promised c p) (e : Event) :
    (s.after e).Promised c p := by
  obtain ⟨hp, conn, hc, hopened⟩ := h
  obtain ⟨conn', hc', hround⟩ := exists_round hplain e hc
  exact ⟨hp, conn', hc', hopened.mono hround.slots_le⟩

/-- No request waits on a connection that was closed. -/
theorem Closed.pending_eq_nil (h : s.Closed c) (haccounted : s.Accounted) :
    ∃ conn, s.connections[c]? = some conn ∧ conn.connected = false ∧
      conn.registry.pending = [] := by
  obtain ⟨conn, hc, hdown⟩ := h
  exact ⟨conn, hc, hdown, (haccounted c conn hc).lost hdown⟩

/-- What was sent on a connection that was closed has its result. -/
theorem Closed.result? (h : s.Closed c) (haccounted : s.Accounted) (hp : s.Promised c p) :
    (s.result? p).isSome := by
  obtain ⟨conn, hc, hdown, hnone⟩ := h.pending_eq_nil haccounted
  obtain ⟨rfl, conn', hc', hopened⟩ := hp
  cases hc.symm.trans hc'
  rw [System.result?, hc, Option.bind_some]
  exact hopened.result? (haccounted _ conn hc).sound hnone

/-- The result of a message that is sent can be waited for. -/
theorem promised_send {m : Message} (h : s.send c none m = some (p, s')) : s'.Promised c p := by
  rw [send] at h
  obtain ⟨conn, hc, he⟩ := Option.map_eq_some_iff.mp h
  cases he
  refine ⟨rfl, (conn.allocate.2.send s.now conn.allocate.1 m).2, ?_, conn.allocate.2.opened_send ..⟩
  show (s.connections.modify c _)[c]? = _
  rw [List.getElem?_modify_eq, hc]
  rfl

/-- A program that waits only for what it has sent can go on, on a connection that was
closed. -/
theorem canRun_of_closed {α : Type} {q : Program α} (haccounted : s.Accounted) (hc : s.Closed c)
    (hq : q.Obeys ownPromises (s.Promised c)) : s.canRun q = true := by
  cases q with
  | done a => rfl
  | step e next =>
      cases e with
      | await p => exact hc.result? haccounted hq.1
      | gather members last =>
          have hall : s.knownCount members = members.length :=
            List.countP_eq_length.mpr fun p hp => hc.result? haccounted (hq.1.1 p hp)
          have hlast : last.all (fun p => (s.result? p).isSome) = true := by
            cases last with
            | none => rfl
            | some p => exact hc.result? haccounted (hq.1.2 p rfl)
          simp only [canRun, hall, hlast, decide_true, Bool.and_true]
      | _ => rfl

end System

end Southbound
