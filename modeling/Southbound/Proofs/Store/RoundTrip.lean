import Southbound.ChangeEvent
import Southbound.Proofs.Message.RoundTrip
import Southbound.Proofs.Time.ReadBack
import Southbound.StaleFlow

/-!
# Changes and markers are read as they were written

Changes of the configuration are `Faithful`, so each is read back from the octets that it
is written as.  A marker is a record with a moment in it, and a moment is read back if its
year can be written; all years from zero to 9999 can.  What is read as a marker has such a
moment, whatever text it was written as, so a marker that was read once is read again from
what is written of it (`ReadBack`).
-/

namespace Southbound

open Json

/-! ## Changes -/

instance : Faithful FlowPath 1 where
  encode_ne_null _ := nofun
  decode_encode p path h := by
    unfold instEncodeFlowPath instDecodeFlowPath
    simp (disch := first | omega | simp) [member_eq_written, List.lookup_cons]
  holdable_encode depth path h := by
    have hdepth : depth < maxNesting := by omega
    unfold instEncodeFlowPath
    simp (disch := omega) [hdepth]

theorem ChangeEvent.holdable_encode {depth : Nat} (e : ChangeEvent)
    (h : depth + 8 ≤ maxNesting) : (encode e).holdable depth = true := by
  have hdepth : depth < maxNesting := by omega
  unfold instEncodeChangeEvent
  cases e <;> simp (disch := omega) [ChangeEvent.members, hdepth]

instance : Faithful ChangeEvent 8 where
  encode_ne_null _ := nofun
  decode_encode p e h := by
    have hold := e.holdable_encode h
    cases e with
    | flowAdded path flow | flowRemoved path flow =>
      exact decodeTagged_twoFields (by rfl) (by decide) hold (by omega) (by omega)
    | groupAdded device group | groupRemoved device group =>
      exact decodeTagged_twoFields (by rfl) (by decide) hold (by omega) (by omega)
    | flowUpdated path old updated =>
      exact decodeTagged_threeFields (by rfl) (by decide) hold (by omega) (by omega) (by omega)
    | groupUpdated device old updated =>
      exact decodeTagged_threeFields (by rfl) (by decide) hold (by omega) (by omega) (by omega)
  holdable_encode depth e h := e.holdable_encode h

/-! ## Markers -/

theorem decode_encode_moment {p : Place} {m : Moment} (h : m.date.inRange = true) :
    decode p (encode m) = some m := by
  have htext : (decode p (encode m.display) : Option String) = some m.display := rfl
  have hmoment : (decode p (encode m) : Option Moment) =
      (decode p (encode m.display)).bind Moment.ofText? := rfl
  rw [hmoment, htext, Option.bind_some, m.ofText?_display h]

theorem inRange_of_decode {p : Place} {j : Json} {m : Moment} (h : decode p j = some m) :
    m.date.inRange = true := by
  obtain ⟨s, -, hs⟩ := Option.bind_eq_some_iff.mp h
  exact Moment.givesInRange_ofText? s m hs

/-- A marker is read as it was written, at any place with room for a flow. -/
theorem StaleMarker.decode_encode {p : Place} (m : StaleMarker)
    (hdate : m.recordedAt.date.inRange = true) (h : p.depth + 8 ≤ maxNesting) :
    decode p (encode m) = some m := by
  have hmoment := decode_encode_moment (p := p.inner) hdate
  unfold instEncodeStaleMarker instDecodeStaleMarker
  simp (disch := first | omega | simp) [member_eq_written, List.lookup_cons, hmoment]

/-- What is read as a marker was noted in a year that can be written. -/
theorem StaleMarker.inRange_of_decode {p : Place} {j : Json} {m : StaleMarker}
    (h : decode p j = some m) : m.recordedAt.date.inRange = true := by
  unfold instDecodeStaleMarker at h
  simp only [Option.bind_eq_bind, Option.bind_eq_some_iff, Option.pure_def] at h
  obtain ⟨fields, -, device, -, table, -, flow, -, configured, -, recordedAt, hrecorded, ⟨⟩⟩ := h
  obtain ⟨j, -, hj⟩ := Option.bind_eq_some_iff.mp hrecorded
  exact Southbound.inRange_of_decode hj

/-! ## Octets -/

/-- A value is read back from the octets that it is written as. -/
def ReadBack {α : Type} [Encode α] [Decode α] (x : α) : Prop :=
  (Json.read (encode x).octets).bind (decode {}) = some x

/-- Every change is read back; so is every marker that was noted in a year from zero to 9999,
at any nanosecond; and so is every marker that was read from any octets, whatever offset and
fraction of a second they give. -/
theorem changes_and_markers_readBack :
    (∀ e : ChangeEvent, ReadBack e) ∧
    (∀ m : StaleMarker, 0 ≤ m.recordedAt.date.year → m.recordedAt.date.year ≤ 9999 →
      ReadBack m) ∧
    (∀ (octets : List UInt8) (m : StaleMarker), (Json.read octets).bind (decode {}) = some m →
      ReadBack m) := by
  have hmarker (m : StaleMarker) (h : m.recordedAt.date.inRange = true) : ReadBack m := by
    rw [ReadBack, read_octets]
    exact m.decode_encode h (by decide)
  refine ⟨fun e => ?_, fun m hlow hhigh => hmarker m ?_, fun octets m h => hmarker m ?_⟩
  · rw [ReadBack, read_octets]
    exact decode_encode {} e (by decide)
  · rw [Date.inRange, decide_eq_true_iff]
    omega
  · obtain ⟨j, -, hj⟩ := Option.bind_eq_some_iff.mp h
    exact StaleMarker.inRange_of_decode hj

namespace LeapSecond

/-- A marker of the leap second at the end of 2016, some of it over. -/
def marker (nanoseconds : Nat) (h : nanoseconds < 1000000000) : StaleMarker where
  stale := ⟨⟨⟨"openflow:1"⟩, ⟨0⟩, ⟨"f"⟩⟩, { table := ⟨0⟩ }⟩
  recordedAt := ⟨(Date.of? 2016 12 31).get rfl, 86399, 1000000000 + nanoseconds, by decide, by omega,
    by omega⟩

/-- Such a marker as it is written two hours east of Greenwich. -/
def octets : List UInt8 :=
  ("\x7b\"device_id\":\"openflow:1\",\"table_id\":0,\"flow_id\":\"f\"," ++
    "\"flow\":\x7b\"table_id\":0\x7d,\"recorded_at\":\"2017-01-01T01:59:60.25+02:00\"\x7d"
    ).toUTF8.toList

end LeapSecond

theorem changes_and_markers_readBack_of_leapSecond :
    ReadBack (LeapSecond.marker 500000000 (by decide)) ∧
      (Json.read LeapSecond.octets).bind (decode {}) =
        some (LeapSecond.marker 250000000 (by decide)) ∧
      ReadBack (LeapSecond.marker 250000000 (by decide)) := by
  have hread : (Json.read LeapSecond.octets).bind (decode {}) =
      some (LeapSecond.marker 250000000 (by decide)) := by decide +kernel
  exact ⟨changes_and_markers_readBack.2.1 _ (by decide) (by decide), hread,
    changes_and_markers_readBack.2.2 _ _ hread⟩

end Southbound
