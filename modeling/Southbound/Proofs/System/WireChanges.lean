import Southbound.Proofs.Operation.Changes
import Southbound.Proofs.System.Pushes

/-!
# The changes of flows that a job has put on the wire

The messages that a job hands over on a connection are told from all others there by their
slots (`System.slotsOn`).  So the trail of the connection says which of them are on the wire,
and in which order (`System.changesWritten`).

They are some of those that the job has handed over, in that order
(`System.messages_sublist_deeds`), and for a request on a flow those are the first of the
changes that the request comes to (`System.changesSent_prefix`).
-/

namespace Southbound

/-- The slot of the message that is handed over on a connection in a deed. -/
def Deed.slotOn? (c : ConnectionId) : Deed → Option Slot
  | ⟨.send _, ⟨c', .awaited _ slot⟩⟩ => if c' = c then some slot else none
  | _ => none

theorem Deed.slotOn?_eq_some {c : ConnectionId} {deed : Deed} {slot : Slot} :
    deed.slotOn? c = some slot ↔ ∃ m x, deed = ⟨.send m, ⟨c, .awaited x slot⟩⟩ := by
  constructor
  · intro h
    obtain ⟨q, a⟩ := deed
    cases q with
    | send m =>
        obtain ⟨c', reply⟩ := a
        cases reply with
        | awaited x slot' =>
            obtain ⟨rfl, heq⟩ := Option.ite_none_right_eq_some.mp h
            cases heq
            exact ⟨m, x, rfl⟩
        | failed x cause => cases h
    | _ => cases h
  · rintro ⟨m, x, rfl⟩
    exact if_pos rfl

namespace Connection.Ledger

/-- The messages with some slots among those of a trail. -/
def under (slots : List Slot) (ms : List (Option Slot × Envelope)) : List Message :=
  (ms.filter fun a => a.1.any (slots.contains ·)).map (·.2.message)

variable {slots slots' : List Slot} {ms ms' : List (Option Slot × Envelope)} {m : Message}

theorem mem_under : m ∈ under slots ms ↔ ∃ slot ∈ slots, ∃ x, (some slot, ⟨x, m⟩) ∈ ms := by
  simp only [under, List.mem_map, List.mem_filter, Option.any_eq_true, List.contains_iff_mem]
  constructor
  · rintro ⟨⟨mark, x, m⟩, ⟨hmem, slot, rfl, hslot⟩, rfl⟩
    exact ⟨slot, hslot, x, hmem⟩
  · rintro ⟨slot, hslot, x, hmem⟩
    exact ⟨_, ⟨hmem, slot, rfl, hslot⟩, rfl⟩

theorem under_append : under slots (ms ++ ms') = under slots ms ++ under slots ms' := by
  rw [under, List.filter_append, List.map_append, under, under]

theorem under_mono (h : ms.Sublist ms') : (under slots ms).Sublist (under slots ms') :=
  (h.filter _).map _

theorem under_sublist_map : (under slots ms).Sublist (ms.map (·.2.message)) :=
  List.filter_sublist.map _

theorem under_congr (h : ∀ a ∈ ms, ∀ slot ∈ a.1, slot ∈ slots ↔ slot ∈ slots') :
    under slots ms = under slots' ms := by
  rw [under, under, List.filter_congr fun a ha => ?_]
  rw [Bool.eq_iff_iff, Option.any_eq_true, Option.any_eq_true]
  refine exists_congr fun slot => and_congr_right fun hslot => ?_
  rw [List.contains_iff_mem, List.contains_iff_mem]
  exact h a ha slot hslot

theorem under_eq_nil (h : ∀ a ∈ ms, ∀ slot ∈ a.1, slot ∉ slots) : under slots ms = [] := by
  refine List.eq_nil_iff_forall_not_mem.mpr fun m hm => ?_
  obtain ⟨slot, hslot, x, hmem⟩ := mem_under.mp hm
  exact h _ hmem slot rfl hslot

end Connection.Ledger

namespace System

open Connection.Ledger (under mem_under under_append under_mono under_sublist_map under_congr
  under_eq_nil)

/-- The changes of flows that a job has handed over in a run. -/
def changesSent (s : System) (t : Ticket) (es : List Event) : List FlowMod :=
  changesOf (s.deedsIn t es)

/-- The slots of the messages that a job has handed over on a connection in a run. -/
def slotsOn (s : System) (t : Ticket) (c : ConnectionId) (es : List Event) : List Slot :=
  (s.deedsIn t es).filterMap (Deed.slotOn? c)

/-- The changes of flows that a job has handed over and that were put on the wire of a
connection in a run, in the order in which they were put there. -/
def changesWritten (s : System) (t : Ticket) (c : ConnectionId) (es : List Event) : List FlowMod :=
  (under (s.slotsOn t c es) (s.trailIn c {} es).written).filterMap Message.flowMod?

variable {s : System} {c : ConnectionId} {t : Ticket} {e : Event} {es : List Event} {p : Promise}
  {m : Message} {slot : Slot} {r : Request} {mod : FlowMod}

theorem mem_slotsOn : slot ∈ s.slotsOn t c es ↔
    ∃ m x, (⟨.send m, ⟨c, .awaited x slot⟩⟩ : Deed) ∈ s.deedsIn t es := by
  simp only [slotsOn, List.mem_filterMap, Deed.slotOn?_eq_some]
  constructor
  · rintro ⟨deed, hdeed, m, x, rfl⟩
    exact ⟨m, x, hdeed⟩
  · rintro ⟨m, x, hdeed⟩
    exact ⟨_, hdeed, m, x, rfl⟩

/-- What a job hands over is sent. -/
theorem mem_sentIn_of_mem_deedsIn (h : (⟨.send m, p⟩ : Deed) ∈ s.deedsIn t es) :
    (p, m) ∈ s.sentIn es := by
  obtain ⟨before, after, hsplit⟩ := List.append_of_mem h
  obtain ⟨es₁, e, es₂, rfl, -, hdeed⟩ := exists_of_deedsIn hsplit
  exact mem_sentIn_of_sends? (sends?_of_asked? (asked?_of_deedOf? hdeed))

section Runs

variable {config : Config} {s₀ : System} (hnew : System.new config = .ok s₀)
include hnew

/-- What a job handed over under a slot is the only message there. -/
theorem tracked_of_deed {x : Xid}
    (h : (⟨.send m, ⟨c, .awaited x slot⟩⟩ : Deed) ∈ s₀.deedsIn t es) :
    ∃ conn, (s₀.go es).connections[c]? = some conn ∧ slot < conn.registry.slots ∧
      ∀ envelope, (some slot, envelope) ∈ (s₀.trailIn c {} es).messages → envelope = ⟨x, m⟩ := by
  rcases tracked_go hnew (mem_sentIn_of_mem_deedsIn h) with
    ⟨x', cause, hreply, -⟩ | ⟨x', slot', conn, hreply, hc, hlt, honly⟩
  · cases hreply
  · cases hreply
    exact ⟨conn, hc, hlt, honly⟩

theorem lt_of_mem_slotsOn {conn : Connection} (hc : (s₀.go es).connections[c]? = some conn)
    (h : slot ∈ s₀.slotsOn t c es) : slot < conn.registry.slots := by
  obtain ⟨m, x, hdeed⟩ := mem_slotsOn.mp h
  obtain ⟨conn', hc', hlt, -⟩ := tracked_of_deed hnew hdeed
  cases hc.symm.trans hc'
  exact hlt

/-- Of what joins the queue of a connection in an event, only what a job hands over then is
under the slots of the job. -/
theorem under_joining {conn conn' : Connection} (hc : (s₀.go es).connections[c]? = some conn)
    (hc' : ((s₀.go es).after e).connections[c]? = some conn')
    (hnewer : ∀ a ∈ Connection.joining (Connection.requestOf? conn conn') conn conn',
      ∀ slot ∈ a.1, conn.registry.slots ≤ slot) :
    (under (s₀.slotsOn t c (es ++ [e]))
      (Connection.joining (Connection.requestOf? conn conn') conn conn')).Sublist
        (messagesOf ((s₀.go es).deedOf? t e).toList) := by
  have hold (hsame : s₀.slotsOn t c (es ++ [e]) = s₀.slotsOn t c es) :
      under (s₀.slotsOn t c (es ++ [e]))
        (Connection.joining (Connection.requestOf? conn conn') conn conn') = [] := by
    refine under_eq_nil fun a ha slot hslot hmem => ?_
    rw [hsame] at hmem
    exact absurd (lt_of_mem_slotsOn hnew hc hmem) (Nat.not_lt.mpr (hnewer a ha slot hslot))
  have hslots : s₀.slotsOn t c (es ++ [e]) =
      s₀.slotsOn t c es ++ ((s₀.go es).deedOf? t e).toList.filterMap (Deed.slotOn? c) := by
    rw [slotsOn, deedsIn_concat, List.filterMap_append, slotsOn]
  cases hdeed : (s₀.go es).deedOf? t e with
  | none =>
      rw [hdeed] at hslots
      rw [hold (hslots.trans (List.append_nil _))]
      exact List.nil_sublist _
  | some deed =>
      rw [hdeed] at hslots
      cases hslot : deed.slotOn? c with
      | none =>
          rw [hold (by rw [hslots]; simp [hslot])]
          exact List.nil_sublist _
      | some slot =>
          obtain ⟨m, x, rfl⟩ := Deed.slotOn?_eq_some.mp hslot
          obtain ⟨conn₁, conn₀, x', hconn, -, hqueue, -, hconn'⟩ :=
            sentOver_of_sends? (sends?_of_asked? (asked?_of_deedOf? hdeed))
          cases hc.symm.trans hconn
          cases hc'.symm.trans hconn'
          refine under_sublist_map.trans ?_
          have hsend := (conn₀.joining_send_sublist (s₀.go es).now x' m
            (Connection.requestOf? conn (conn₀.send (s₀.go es).now x' m).2)).map Envelope.message
          rw [List.map_map] at hsend
          rw [Connection.joining, ← hqueue]
          exact hsend

/-- The messages of a job on a connection are some of those that the job has handed over, in
that order. -/
theorem messages_sublist_deeds (es : List Event) :
    (under (s₀.slotsOn t c es) (s₀.trailIn c {} es).messages).Sublist
      (messagesOf (s₀.deedsIn t es)) := by
  induction es using List.reverseRecOn with
  | nil => exact List.nil_sublist _
  | append_singleton es e ih =>
      have hserved := (served_new hnew).go es
      have hexplained := explained_go hnew c es
      rw [trailIn_concat, deedsIn_concat, messagesOf_append]
      cases hc : (s₀.go es).connections[c]? with
      | none =>
          rw [trail_of_none hc, under_eq_nil fun a ha slot hslot _ => ?_]
          · exact List.nil_sublist _
          · obtain ⟨mark, envelope⟩ := a
            cases hslot
            obtain ⟨conn, hconn, -⟩ := opened_go hnew c es slot envelope ha
            cases hc.symm.trans hconn
      | some conn =>
          obtain ⟨conn', hc', hround⟩ := exists_round hserved.plain e hc
          rw [Explained, hc] at hexplained
          obtain ⟨joined, hL⟩ := hexplained
          have hsound := (hround.accounted (hserved.accounted c conn hc)).sound
          rw [trail, hc, hc']
          refine (under_mono (hL.messages_follow hround.transit hround.same.codec _)).trans ?_
          rw [under_append]
          refine List.Sublist.append ?_ (under_joining hnew hc hc' ?_)
          · -- The slots that were opened before are those that the messages had.
            rw [under_congr fun a ha slot hslot => ?_]
            · exact ih
            · obtain ⟨mark, envelope⟩ := a
              cases hslot
              obtain ⟨conn₁, hconn₁, hlt⟩ := opened_go hnew c es slot envelope ha
              cases hc.symm.trans hconn₁
              rw [slotsOn, deedsIn_concat, List.filterMap_append, List.mem_append]
              refine or_iff_left fun hnow => ?_
              obtain ⟨deed, hdeed, hslot⟩ := List.mem_filterMap.mp hnow
              obtain ⟨m, x, rfl⟩ := Deed.slotOn?_eq_some.mp hslot
              have hsends := sends?_of_asked? (asked?_of_deedOf? (Option.mem_toList.mp hdeed))
              obtain ⟨⟨conn₂, hconn₂, rfl⟩, -⟩ := slot_of_sends? hsends rfl
              cases hc.symm.trans hconn₂
              exact Nat.lt_irrefl _ hlt
          · intro a ha slot hslot
            obtain ⟨envelope, -, rfl⟩ := List.mem_map.mp ha
            exact (Connection.slot_of_requestOf? hslot hsound).1

/-- The changes that a job has put on the wire are some of those that it has handed over, in
that order. -/
theorem changesWritten_sublist (t : Ticket) (c : ConnectionId) (es : List Event) :
    (s₀.changesWritten t c es).Sublist (s₀.changesSent t es) :=
  ((under_mono (List.sublist_append_left _ _)).trans
    (messages_sublist_deeds hnew es)).filterMap _

/-- A change of a job is on the wire under the slot that it was handed over with. -/
theorem mem_changesWritten : mod ∈ s₀.changesWritten t c es ↔
    ∃ x slot, (⟨.send (.flowMod mod), ⟨c, .awaited x slot⟩⟩ : Deed) ∈ s₀.deedsIn t es ∧
      (some slot, ⟨x, .flowMod mod⟩) ∈ (s₀.trailIn c {} es).written := by
  rw [changesWritten, List.mem_filterMap]
  constructor
  · rintro ⟨m, hm, hmod⟩
    obtain rfl := Message.flowMod?_eq_some.mp hmod
    obtain ⟨slot, hslot, x, hwritten⟩ := mem_under.mp hm
    obtain ⟨m, x', hdeed⟩ := mem_slotsOn.mp hslot
    obtain ⟨-, -, -, honly⟩ := tracked_of_deed hnew hdeed
    cases honly _ (List.mem_append_left _ hwritten)
    exact ⟨x, slot, hdeed, hwritten⟩
  · rintro ⟨x, slot, hdeed, hwritten⟩
    exact ⟨_, mem_under.mpr ⟨slot, mem_slotsOn.mpr ⟨_, x, hdeed⟩, x, hwritten⟩, rfl⟩

/-- The changes that a request on a flow has handed over are the first of those that it comes
to. -/
theorem changesSent_prefix (hreq : (t, r) ∈ s₀.requestedIn es) (hflow : r.isFlow = true) :
    s₀.changesSent t es <+: r.flowMods := by
  obtain ⟨n, more, o, -, hs, -⟩ := exists_story hnew hreq hflow
  rw [Request.flowMods_eq_changes]
  exact hs.changesOf_prefix

end Runs

end System

end Southbound
