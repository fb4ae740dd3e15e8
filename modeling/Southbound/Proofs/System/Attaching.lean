import Southbound.Proofs.System.Presence
import Southbound.Proofs.Table

/-!
# Attaching a connection

A connection that is attached takes the place of the one that its device had, and that one is
ended: it accepts no messages any more, and its requests have failed (`System.Lost`).  All other
connections are left as they are.

So a connection that was not attached before is attached, open and with all its requests.  But a
connection that is attached once more takes its own place, and is ended
(`System.attach_leaves_open_iff`).  Attaching it twice is therefore not the same as attaching it
once (`System.attached_twice_is_closed`).
-/

namespace Southbound

/-- When a connection is ended, each of its requests fails as lost. -/
theorem Connection.Accounted.result?_disconnect {c : Connection} (h : c.Accounted) {p : Pending}
    (hp : p ∈ c.registry.pending) :
    c.disconnect.registry.result? p.slot = some (.error c.lost) := by
  have hopen : c.connected = true := by
    by_contra hdown
    rw [h.lost (Bool.not_eq_true _ ▸ hdown)] at hp
    cases hp
  rw [disconnect, if_pos hopen]
  refine (h.sound.failAll c.lost).result?_eq_some_iff.mpr ?_
  exact List.mem_append_left _ (List.mem_map.mpr ⟨p, hp, rfl⟩)

namespace System

variable {s s' : System} {c : ConnectionId} {conn : Connection}

/-! ## What may become of a connection -/

/-- A connection accepts no messages any more, and the requests that it had have failed. -/
structure Lost (s s' : System) (c : ConnectionId) : Prop where
  closed : s'.Closed c
  requests : ∀ conn conn', s.connections[c]? = some conn → s'.connections[c]? = some conn' →
    conn'.registry.pending = [] ∧
      ∀ p ∈ conn.registry.pending, conn'.registry.result? p.slot = some (.error conn.lost)

/-- A connection accepts messages, and it has the requests that it had. -/
def StaysOpen (s s' : System) (c : ConnectionId) : Prop :=
  ∃ conn conn', s.connections[c]? = some conn ∧ s'.connections[c]? = some conn' ∧
    conn'.connected = true ∧ conn'.registry.pending = conn.registry.pending

/-- A connection that is attached is then the one of its device, and open with its requests.  The
one that it replaces, if that is another, is lost. -/
structure Attaches (s : System) (c : ConnectionId) (d : DeviceId) : Prop where
  accepted : (s.attach c).1 = .ok ()
  attached : (s.attach c).2.pipeline.attached.get? d = some c
  staysOpen : s.StaysOpen (s.attach c).2 c
  replaced : ∀ c', c' ≠ c → s.pipeline.attached.get? d = some c' → s.Lost (s.attach c).2 c'

/-- A connection that is ended is lost. -/
theorem lost_disconnect (haccounted : s.Accounted) (hc : s.connections[c]? = some conn)
    (hs' : s'.connections[c]? = some conn.disconnect) : s.Lost s' c := by
  have hdown := conn.connected_disconnect
  refine ⟨⟨_, hs', hdown⟩, fun conn₁ conn' hconn₁ hconn' => ?_⟩
  cases hc.symm.trans hconn₁
  cases hs'.symm.trans hconn'
  have hold := haccounted c conn hc
  exact ⟨(hold.after .disconnect).lost hdown, fun p => hold.result?_disconnect⟩

/-- A connection that was ended is not ended again. -/
theorem disconnect_of_closed (h : s.Closed c) : s.disconnect c = s := by
  obtain ⟨conn, hc, hdown⟩ := h
  have hsame : s.connections.modify c Connection.disconnect = s.connections := by
    apply List.ext_getElem?
    intro k
    by_cases hk : c = k
    · subst hk
      rw [List.getElem?_modify_eq, hc]
      show some conn.disconnect = some conn
      rw [Connection.disconnect, hdown]
      rfl
    · exact List.getElem?_modify_ne _ _ hk
  rw [disconnect, modifyConnection, hsame]

/-! ## Attaching -/

section Attach

variable (hruns : s.pipeline.shuttingDown = false) (hc : s.connections[c]? = some conn)
include hruns hc

/-- The connection is noted for its device, and the one that was noted is ended. -/
theorem attach_eq : s.attach c = (.ok (), { s with
    pipeline.attached := s.pipeline.attached.set conn.device c
    connections := match s.pipeline.attached.get? conn.device with
      | some c' => s.connections.modify c' Connection.disconnect
      | none => s.connections }) := by
  have hdevice : s.deviceOf? c = some conn.device := by
    rw [deviceOf?, hc]
    rfl
  rw [attach, hruns, if_neg Bool.false_ne_true]
  exact Prod.ext rfl (insert_eq hdevice)

theorem isAttached_attach : (s.attach c).2.pipeline.attached.get? conn.device = some c := by
  rw [attach_eq hruns hc]
  exact Table.get?_set_self ..

theorem connections_attach_of_attached {k : ConnectionId}
    (hk : s.pipeline.attached.get? conn.device = some k) :
    (s.attach c).2.connections[k]? = s.connections[k]?.map Connection.disconnect := by
  rw [attach_eq hruns hc, hk]
  exact List.getElem?_modify_eq ..

theorem connections_attach_of_ne {k : ConnectionId}
    (hk : s.pipeline.attached.get? conn.device ≠ some k) :
    (s.attach c).2.connections[k]? = s.connections[k]? := by
  rw [attach_eq hruns hc]
  cases hold : s.pipeline.attached.get? conn.device with
  | none => rfl
  | some c' =>
      have hne : c' ≠ k := fun he => hk (he ▸ hold)
      exact List.getElem?_modify_ne _ _ hne

/-- The connection that a device had is lost. -/
theorem lost_attach (hwired : s.Wired) (haccounted : s.Accounted) {c' : ConnectionId}
    (hc' : s.pipeline.attached.get? conn.device = some c') : s.Lost (s.attach c).2 c' := by
  obtain ⟨conn', hconn', -⟩ := Option.map_eq_some_iff.mp (hwired.attached _ _ hc')
  refine lost_disconnect haccounted hconn' ?_
  rw [connections_attach_of_attached hruns hc hc', hconn']
  rfl

/-- The connection stays open if it does not take its own place. -/
theorem staysOpen_attach_iff (hopen : conn.connected = true) :
    s.StaysOpen (s.attach c).2 c ↔ s.pipeline.attached.get? conn.device ≠ some c := by
  constructor
  · rintro ⟨-, conn', -, hconn', hopen', -⟩ hagain
    rw [connections_attach_of_attached hruns hc hagain, hc] at hconn'
    cases hconn'
    exact Bool.false_ne_true (conn.connected_disconnect.symm.trans hopen')
  · intro hnew
    exact ⟨conn, conn, hc, (connections_attach_of_ne hruns hc hnew).trans hc, hopen, rfl⟩

/-- A connection that is attached once more is ended, and nothing else happens. -/
theorem attach_of_attached (hagain : s.pipeline.attached.get? conn.device = some c) :
    (s.attach c).2 = s.disconnect c := by
  rw [attach_eq hruns hc, Table.set_eq_self hagain, hagain]
  rfl

/-- Attaching a connection twice is the same as attaching it once just if it is ended by the
first. -/
theorem attach_twice_iff (hopen : conn.connected = true) :
    ((s.attach c).2.attach c).2 = (s.attach c).2 ↔
      s.pipeline.attached.get? conn.device = some c := by
  have hruns' : (s.attach c).2.pipeline.shuttingDown = false := by
    rw [attach_eq hruns hc]
    exact hruns
  have hattached := isAttached_attach hruns hc
  constructor
  · intro hsame
    by_contra hnew
    have hc' := (connections_attach_of_ne hruns hc hnew).trans hc
    have hended := connections_attach_of_attached hruns' hc' hattached
    rw [hsame, hc'] at hended
    have hdown := congrArg Connection.connected (Option.some.inj hended)
    rw [conn.connected_disconnect, hopen] at hdown
    cases hdown
  · intro hagain
    have hc' := connections_attach_of_attached hruns hc hagain
    rw [hc, Option.map_some] at hc'
    have hdevice : conn.disconnect.device = conn.device := (conn.same_after .disconnect).device
    rw [attach_of_attached hruns' hc' (hdevice ▸ hattached)]
    exact disconnect_of_closed ⟨_, hc', conn.connected_disconnect⟩

end Attach

/-! ## Runs -/

/-- In every state that a pipeline which still accepts requests can come to, an open connection is
accepted when it is attached, and is then the one of its device.  The connection that the device had
is lost with all its requests, and all others are left as they are.  So the connection stays open
with its requests, unless it is the one that the device had.  Attaching it once more changes nothing
only in that case. -/
theorem attach_leaves_open_iff {config : Config} {s₀ : System} (hnew : System.new config = .ok s₀)
    (es : List Event) (hruns : (s₀.go es).pipeline.shuttingDown = false)
    (hc : (s₀.go es).connections[c]? = some conn) (hopen : conn.connected = true) :
    ((s₀.go es).Attaches c conn.device ↔
        (s₀.go es).pipeline.attached.get? conn.device ≠ some c) ∧
      ((s₀.go es).attach c).1 = .ok () ∧
      ((s₀.go es).attach c).2.pipeline.attached.get? conn.device = some c ∧
      (∀ c', (s₀.go es).pipeline.attached.get? conn.device = some c' →
        (s₀.go es).Lost ((s₀.go es).attach c).2 c') ∧
      (∀ c', (s₀.go es).pipeline.attached.get? conn.device ≠ some c' →
        ((s₀.go es).attach c).2.connections[c']? = (s₀.go es).connections[c']?) ∧
      ((((s₀.go es).attach c).2.attach c).2 = ((s₀.go es).attach c).2 ↔
        (s₀.go es).pipeline.attached.get? conn.device = some c) := by
  have hserved := (served_new hnew).go es
  have haccepted : ((s₀.go es).attach c).1 = .ok () := by rw [attach_eq hruns hc]
  have hattached := isAttached_attach hruns hc
  have hlost (c' : ConnectionId) (hc' : (s₀.go es).pipeline.attached.get? conn.device = some c') :=
    lost_attach hruns hc hserved.wired hserved.accounted hc'
  have hstays := staysOpen_attach_iff hruns hc hopen
  refine ⟨?_, haccepted, hattached, hlost, fun c' => connections_attach_of_ne hruns hc,
    attach_twice_iff hruns hc hopen⟩
  constructor
  · exact fun h => hstays.mp h.staysOpen
  · exact fun h => ⟨haccepted, hattached, hstays.mpr h, fun c' _ => hlost c'⟩

/-! ## Attaching twice -/

namespace Twice

def device : DeviceId := ⟨"openflow:1"⟩

/-- A connection is attached, and a barrier is sent on it. -/
def opened : List Event :=
  [.openConnection device .json 64, .attach 0, .send 0 none .barrierRequest]

/-- Another connection to the device is opened, too. -/
def both : List Event := opened ++ [.openConnection device .json 64]

end Twice

/-- A connection takes the place of another, on which a request waits: it is open, and the request
has failed. -/
theorem attach_leaves_open_of_another :
    ∃ s₀ conn, System.new {} = .ok s₀ ∧
      (s₀.go Twice.both).pipeline.shuttingDown = false ∧
      (s₀.go Twice.both).connections[1]? = some conn ∧ conn.connected = true ∧
      (s₀.go Twice.both).Attaches 1 Twice.device ∧
      (((s₀.go Twice.both).attach 1).2.connections[0]?.bind fun old => old.registry.result? 0) =
        some (.error (.connectionLost Twice.device)) := by
  let s₀ := start
  have hnew : System.new {} = .ok s₀ := rfl
  have hruns : (s₀.go Twice.both).pipeline.shuttingDown = false := rfl
  have hc : (s₀.go Twice.both).connections[1]? = some _ := rfl
  obtain ⟨hattaches, -⟩ := attach_leaves_open_iff hnew Twice.both hruns hc rfl
  exact ⟨s₀, _, hnew, hruns, hc, rfl, hattaches.mpr (by decide), rfl⟩

/-- A connection that is attached twice is closed, and the request that waits on it fails. -/
theorem attached_twice_is_closed :
    ¬∀ (config : Config) (s₀ : System) (es : List Event) (c : ConnectionId) (conn : Connection),
      System.new config = .ok s₀ → (s₀.go es).pipeline.shuttingDown = false →
      (s₀.go es).connections[c]? = some conn → conn.connected = true →
      (s₀.go es).Attaches c conn.device := by
  intro hall
  have hattaches := hall {} _ Twice.opened 0 _ rfl rfl rfl rfl
  obtain ⟨-, conn', -, hc', hopen, -⟩ := hattaches.staysOpen
  cases hc'
  cases hopen

end System

end Southbound
