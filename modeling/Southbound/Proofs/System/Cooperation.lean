import Mathlib.Algebra.GroupWithZero.Nat
import Southbound.Proofs.Connection.Flight
import Southbound.Proofs.System.Answers
import Southbound.Proofs.System.Untouched

/-!
# Devices that do as they are told

A run in which a device that is attached reads all that is written to it and confirms every
message before its request has waited too long (`System.Cooperates`).  What it has read and
not answered yet, it owes (`System.owedAfter`).  Nobody but the pipeline uses its connection,
the requests on it are small enough, and every group that is looked up is configured.

Nothing is said of when anything happens.  Events that bring what was asked for nearer to its
end are counted (`System.movesIn`), and if there are none the device is at rest
(`System.Rests`).
-/

namespace Southbound

instance (r : Request) (limit : Nat) : Decidable (r.Fits limit) :=
  decidable_of_iff (r.messages.length ≤ limit ∧ (r.isGroupBatch = true → r.groupMods ≠ []))
    ⟨fun h => ⟨h.1, h.2⟩, fun h => ⟨h.1, h.2⟩⟩

namespace Connection

/-- A connection that accepts messages and on which nothing goes on. -/
structure Idle (c : Connection) : Prop where
  connected : c.connected = true
  closing : c.closing = false
  writer : c.writer = .idle
  outbound : c.outbound = []
  pending : c.registry.pending = []
  isOpen : c.wire.isOpen = true
  unread : c.wire.unread = []
  faithful : c.codec.Faithful

/-- Nothing is on its way on such a connection. -/
theorem Idle.delivers {c : Connection} (h : c.Idle) (hwire : c.wire.Sane) :
    c.Delivers [] [] ∧ c.distance [] = 0 := by
  have hway : c.underway [] = [] := by
    simp [underway, h.unread, h.writer, Writer.frames, h.outbound]
  have hwaiting : c.waiting = [] := by rw [waiting, h.pending, List.map_nil]
  have hwriter : c.writer ≠ .stopped := by simp [h.writer]
  refine ⟨⟨⟨h.connected, h.closing, hwriter, h.isOpen, hwire, h.faithful, ?_⟩,
    List.forall_mem_nil _, ?_⟩, ?_⟩
  · rw [hway, hwaiting]
    exact .refl _
  · rw [hwaiting]
    exact .refl _
  · simp [distance, h.unread, h.writer, Writer.frames, h.outbound]

end Connection

namespace System

/-- A device is attached over a connection, and nothing goes on that concerns it. -/
structure Idle (s : System) (d : DeviceId) (c : ConnectionId) : Prop where
  attached : s.pipeline.attached.get? d = some c
  jobs : s.pipeline.lanes.jobsOf d = []
  connection : ∃ conn, s.connections[c]? = some conn ∧ conn.Idle

/-! ## What the device owes -/

/-- The messages that the device of a connection has read and not answered, after an event. -/
def owedAfter (s : System) (c : ConnectionId) (owed : List Envelope) : Event → List Envelope
  | .read c' => if c' = c then (s.connections[c]?).elim owed (·.owedOnRead owed) else owed
  | .receive c' f => if c' = c then (s.connections[c]?).elim owed (·.owedOnReceive owed f) else owed
  | _ => owed

/-- The messages that the device of a connection has read and not answered, after a run. -/
def owedIn (s : System) (c : ConnectionId) (owed : List Envelope) : List Event → List Envelope
  | [] => owed
  | e :: es => (s.after e).owedIn c (s.owedAfter c owed e) es

/-! ## Cooperation -/

/-- The group that the job of a lane of a device looks up next. -/
def lookup? (s : System) (d : DeviceId) (l : LaneId) : Option GroupId :=
  (s.pipeline.lanes.get? l).bind fun lane =>
    match lane.running with
    | some ⟨_, .operate _ (.step (.readGroup g) _)⟩ => if lane.device = d then some g else none
    | _ => none

/-- Whether a group is found when it is looked up. -/
def offers (s : System) (d : DeviceId) (g : GroupId) : Bool :=
  match s.store.readGroup? d g with
  | some (.ok (some _)) => true
  | _ => false

/-- What may happen while a device does as it is told. -/
def Allows (s : System) (d : DeviceId) (c : ConnectionId) (limit : Nat) (owed : List Envelope) :
    Event → Prop
  | .submit r _ => r.device = d → r.Fits limit
  | .startJob _ => True
  | .stepJob l => ∀ g ∈ s.lookup? d l, s.offers d g = true
  | .openConnection .. => True
  | .forget _ => True
  | .writer _ => True
  | .sweeper _ => True
  -- No request has waited too long.
  | .sweep c' => c' = c → ∀ conn ∈ s.connections[c]?, conn.registry.overdue s.now = []
  | .read _ => True
  | .receive c' f => c' = c → ∀ conn ∈ s.connections[c]?, conn.Proper owed f
  | e => s.owner? e ≠ some d

/-- A run in which a device does as it is told. -/
def Cooperates (s : System) (d : DeviceId) (c : ConnectionId) (limit : Nat)
    (owed : List Envelope) : List Event → Prop
  | [] => True
  | e :: es => s.Allows d c limit owed e ∧
      (s.after e).Cooperates d c limit (s.owedAfter c owed e) es

/-! ## Progress -/

/-- Whether an event brings what was asked of a device nearer to its end. -/
def moves (s : System) (d : DeviceId) (c : ConnectionId) (owed : List Envelope) : Event → Bool
  | .startJob l => s.laneDevice? l = some d && s.laneReady l
  | .stepJob l => s.laneDevice? l = some d && s.jobReady l
  | .writer c' => c' = c && s.writerReady c
  | .read c' => c' = c && (s.connections[c]?).any fun conn => !conn.wire.unread.isEmpty
  | .receive c' f => (s.owedAfter c owed (.receive c' f)).length < owed.length
  | _ => false

/-- How many events of a run bring what was asked of a device nearer to its end. -/
def movesIn (s : System) (d : DeviceId) (c : ConnectionId) (owed : List Envelope) :
    List Event → Nat
  | [] => 0
  | e :: es => (s.moves d c owed e).toNat + (s.after e).movesIn d c (s.owedAfter c owed e) es

/-- No event brings what was asked of a device nearer to its end. -/
def Rests (s : System) (d : DeviceId) (c : ConnectionId) (owed : List Envelope) : Prop :=
  ∀ e, s.moves d c owed e = false

/-- How many steps the requests of a device may take, of some that were accepted. -/
def stepsOf (d : DeviceId) (requested : List (Ticket × Request)) : Nat :=
  ((requested.filter (·.2.device = d)).map (·.2.steps)).sum

section Decisions

variable {s : System} {d : DeviceId} {c : ConnectionId} {limit : Nat} {owed : List Envelope}

instance (conn : Connection) (f : Frame) : Decidable (conn.Proper owed f) :=
  inferInstanceAs (Decidable (∀ e ∈ conn.codec.read f, _ → _))

instance decidableAllows (e : Event) : Decidable (s.Allows d c limit owed e) := by
  cases e <;> dsimp only [Allows] <;> infer_instance

instance decidableCooperates : (s : System) → (owed : List Envelope) → (es : List Event) →
    Decidable (s.Cooperates d c limit owed es)
  | _, _, [] => isTrue trivial
  | s, owed, e :: es =>
    have := decidableCooperates (s.after e) (s.owedAfter c owed e) es
    inferInstanceAs (Decidable (_ ∧ _))

end Decisions

end System

end Southbound
