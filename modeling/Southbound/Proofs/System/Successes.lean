import Southbound.Proofs.System.Books
import Southbound.Proofs.System.Tracked

/-!
# Success and the frames that it presupposes

The device of a connection is believed: whatever frame it sends answers the request that
is found under the transaction id of the frame.  If it answers only what has been written,
then every answer presupposes a frame, and no request succeeds for a message that was
never written, but for those that were withdrawn from a batch
(`System.answers_presuppose_frames`).

A device that answers a request whose message still waits in the queue is believed all the
same, and then the message is never written (`System.success_without_frame`).
-/

namespace Southbound

/-- What the device confirms, it answers. -/
theorem GroupExistsRule.isAnswer_of_confirms {rule : GroupExistsRule} {m : Message}
    {o : Outcome Message} (h : rule.confirms m o = true) : isAnswer o = true := by
  rw [confirms.eq_def] at h
  split at h
  · rfl
  · rfl
  · cases h

namespace System

/-- The answers on a connection come in turn just if no request on it was ever answered before
its message was put on the wire; what was put on the wire are the frames on the trail.  Then
a message that was answered was put on the wire, and a request succeeds only if each of its
messages was put on the wire to its device, or withdrawn from a batch. -/
theorem answers_presuppose_frames {config : Config} {s₀ : System}
    (hnew : System.new config = .ok s₀) (es : List Event)
    (hcodecs : ∀ d codec n, .openConnection d codec n ∈ es → codec.Candid) :
    (∀ c, (s₀.AnswersInTurn c {} es ↔ ∀ es₁ x slot o, es₁ <+: es →
        (s₀.go es₁).result? ⟨c, .awaited x slot⟩ = some o → isAnswer o = true →
          (s₀.trailIn c {} es₁).Wrote slot) ∧
      ∀ conn, (s₀.go es).connections[c]? = some conn →
        (s₀.trailIn c {} es).written.map (fun m => conn.codec.write m.2) = conn.wire.sent.map .ok) ∧
    (∀ p m o, (p, m) ∈ s₀.sentIn es → s₀.AnswersInTurn p.connection {} es →
      (s₀.go es).result? p = some o → isAnswer o = true →
        p.WrittenIn (s₀.trailIn p.connection {} es) m) ∧
    ∀ t r v, (t, r) ∈ s₀.requestedIn es → (s₀.go es).jobResult? t = some (.ok v) →
      r.Fulfilled v fun p m => (t, p, m) ∈ s₀.askedIn es ∧
        (s₀.go es).deviceOf? p.connection = some r.device ∧
        (s₀.AnswersInTurn p.connection {} es → p.WrittenIn (s₀.trailIn p.connection {} es) m ∨
          r.passesOver m = true ∧ (s₀.go es).Withdrawn p) := by
  refine ⟨fun c => ⟨answersInTurn_iff hnew hcodecs c, fun conn hc => ?_⟩, ?_, ?_⟩
  · have hexplained := explained_go hnew c es
    rw [Explained, hc] at hexplained
    obtain ⟨joined, hL⟩ := hexplained
    exact hL.onWire
  · exact fun p m o hsent hturn ho hanswer =>
      writtenIn_of_answer hnew hcodecs hsent hturn ho hanswer
  · intro t r v hr hv
    refine (fulfilled_go hnew hr hv).mono fun p m hdone => ?_
    obtain ⟨hasked, hd, hover⟩ := hdone
    refine ⟨hasked, hd, fun hturn => hover.imp_left fun hconfirmed => ?_⟩
    obtain ⟨o, ho, hconfirms⟩ := hconfirmed
    exact writtenIn_of_answer hnew hcodecs (mem_sentIn_of_mem_askedIn hasked) hturn ho
      (GroupExistsRule.isAnswer_of_confirms hconfirms)

/-! ## A device that answers too early -/

namespace EarlyAnswer

open Withdrawal (device group asking)

def added : Message := .groupMod ⟨.add, group⟩

/-- A group is added, and its message waits in the queue. -/
def queued : List Event :=
  [.openConnection device .confirming 64, .attach 0] ++ asking (.addGroup device group)

/-- The message is written, and then the device answers it. -/
def inTurn : List Event :=
  queued ++ [.writer 0, .writer 0, .receive 0 [0], .stepJob 0, .stepJob 0, .stepJob 0]

/-- The device answers the message in the queue, and then the writer goes on. -/
def early : List Event :=
  queued ++ [.receive 0 [0], .stepJob 0, .stepJob 0, .stepJob 0, .writer 0, .writer 0]

end EarlyAnswer

theorem answers_presuppose_frames_of_inTurn :
    ∃ s₀ p, System.new {} = .ok s₀ ∧
      (0, p, EarlyAnswer.added) ∈ s₀.askedIn EarlyAnswer.inTurn ∧
      p.WrittenIn (s₀.trailIn p.connection {} EarlyAnswer.inTurn) EarlyAnswer.added := by
  let s₀ := start
  have hnew : System.new {} = .ok s₀ := rfl
  let es := EarlyAnswer.inTurn
  have hcodecs (d : DeviceId) (codec : Codec) (n : Nat) (h : .openConnection d codec n ∈ es) :
      codec.Candid := by
    obtain ⟨-, rfl, -⟩ : d = Withdrawal.device ∧ codec = .confirming ∧ n = 64 := by
      simpa [es, EarlyAnswer.inTurn, EarlyAnswer.queued, Withdrawal.asking] using h
    exact Codec.candid_numbered _
  have hrequested : (0, .addGroup Withdrawal.device Withdrawal.group) ∈ s₀.requestedIn es := by
    decide
  have hsuccess : ((s₀.go es).jobResult? 0).any Except.toBool = true := by decide
  have hturn : s₀.AnswersInTurn 0 {} es := by decide
  have hall : ∀ a ∈ s₀.askedIn es, a.2.1.connection = 0 ∧ ¬(s₀.go es).Withdrawn a.2.1 := by decide
  refine ⟨s₀, ?_⟩
  show ∃ p, System.new {} = .ok s₀ ∧ (0, p, EarlyAnswer.added) ∈ s₀.askedIn es ∧
    p.WrittenIn (s₀.trailIn p.connection {} es) EarlyAnswer.added
  -- From here on the states are not to be computed.
  generalize s₀ = s at *
  generalize es = es at *
  obtain ⟨result, hresult, hok⟩ := (Option.any_eq_true ..).mp hsuccess
  cases result with
  | error cause => cases hok
  | ok v =>
      obtain ⟨-, -, hfulfilled⟩ := answers_presuppose_frames hnew es hcodecs
      obtain ⟨p, hasked, -, hwritten⟩ :=
        (hfulfilled 0 _ v hrequested hresult).1 EarlyAnswer.added (.head _)
      obtain ⟨hc, hkept⟩ := hall _ hasked
      refine ⟨p, hnew, hasked, (hwritten ?_).resolve_right fun h => hkept h.2⟩
      rw [hc]
      exact hturn

/-- A group is added and recorded as present although its message never left the queue: the
device had answered it there, and the writer passes it over. -/
theorem success_without_frame :
    ∃ s₀ p, System.new {} = .ok s₀ ∧
      let es := EarlyAnswer.early
      s₀.askedIn es = [(0, p, EarlyAnswer.added)] ∧
        (s₀.go es).result? p = some (.ok .barrierReply) ∧
        (s₀.go es).jobResult? 0 = some (.ok .done) ∧
        (s₀.go es).Has Withdrawal.device (.group Withdrawal.group.id) ∧
        (s₀.go es).connections.map (fun c => (c.outbound, c.wire.sent)) = [([], [])] ∧
        ¬s₀.AnswersInTurn 0 {} es :=
  ⟨_, ⟨0, .awaited ⟨1⟩ 0⟩, rfl, rfl, rfl, rfl, by decide, rfl, by decide⟩

end System

end Southbound
