import Southbound.Proofs.Connection.Behind
import Southbound.Proofs.System.AtOnce

/-!
# No addition without the removal before it

A flow that is put in the place of another, and not in place, is added after the other is
removed.  Both changes are handed over at once, and each can be lost for itself: there is no
room for it in the queue, it waits too long, the wire is closed or the connection ends.  Still
the addition is not put on the wire without the removal, so what is put there of the changes of
a request is always the first of them (`System.changesWritten_prefix`).

From when both are handed over, the addition stays behind the removal
(`Connection.Ledger.Behind`), whatever happens in the system (`System.behind_after`).

This needs two things besides.  The removal can be written as a frame, and the transaction id
of neither is given to another request while it waits in the queue (`System.OwnXids`).  Without
either the addition may be put on the wire alone (`System.added_alone`).
-/

namespace Southbound

section Pairs

variable {α : Type} {l : List α} {a b : α}

theorem eq_of_prefix_pair (h : l <+: [a, b]) (hb : b ∈ l) (hne : a ≠ b) : l = [a, b] := by
  rcases List.prefix_cons_iff.mp h with rfl | ⟨l', rfl, h'⟩
  · cases hb
  · rcases List.prefix_cons_iff.mp h' with rfl | ⟨l'', rfl, h''⟩
    · exact absurd (List.mem_singleton.mp hb).symm hne
    · rw [List.prefix_nil.mp h'']

/-- Some of two elements are the first of them, unless only the second is among them. -/
theorem prefix_of_sublist_pair (h : l.Sublist [a, b]) (hfirst : b ∈ l → a ∈ l) : l <+: [a, b] := by
  cases h with
  | cons _ h =>
      rcases List.sublist_singleton.mp h with rfl | rfl
      · exact List.nil_prefix
      · obtain rfl := List.mem_singleton.mp (hfirst (List.mem_singleton_self b))
        exact ⟨[a], rfl⟩
  | cons_cons _ h =>
      rcases List.sublist_singleton.mp h with rfl | rfl
      · exact ⟨[b], rfl⟩
      · exact List.prefix_rfl

end Pairs

namespace System

open Connection.Ledger (Behind Sole)

/-- A run in which a request is done by a job that hands its changes over at once, in which
the requests on a connection are answered only when their messages are on the wire, and in which
none is withdrawn. -/
structure Regular (s : System) (t : Ticket) (r : Request) (c : ConnectionId) (es : List Event) :
    Prop where
  requested : (t, r) ∈ s.requestedIn es
  burst : s.SendsAtOnce t r.flowMods es
  inTurn : s.AnswersInTurn c {} es
  kept : ∀ es' e, es' ++ [e] <+: es → (s.go es').withdraws e = false

/-- What is handed over of some changes on a connection can be written as frames. -/
def Writable (s : System) (t : Ticket) (c : ConnectionId) (mods : List FlowMod) (es : List Event) :
    Prop :=
  ∀ x slot mod conn, (s.go es).connections[c]? = some conn → mod ∈ mods →
    (⟨.send (.flowMod mod), ⟨c, .awaited x slot⟩⟩ : Deed) ∈ s.deedsIn t es →
      ∃ f, conn.codec.write ⟨x, .flowMod mod⟩ = .ok f

/-- A run in which the transaction id of each change that a job has handed over on a connection
is that of no other request and of no other message in the queue, as long as the change waits
in the queue. -/
def OwnXids (s : System) (t : Ticket) (c : ConnectionId) (es : List Event) : Prop :=
  ∀ es', es' <+: es → ∀ conn ∈ (s.go es').connections[c]?, ∀ slot ∈ s.slotsOn t c es',
    ∀ a ∈ (s.trailIn c {} es').waiting, a.1 = some slot → a.2.message.flowMod?.isSome = true →
      (s.trailIn c {} es').Sole conn slot a.2.xid

instance (s : System) (t : Ticket) (c : ConnectionId) (es : List Event) :
    Decidable (s.OwnXids t c es) := decidable_of_iff' _ forall_prefix_iff

variable {s : System} {c : ConnectionId} {t : Ticket} {e : Event} {es es₁ es₂ : List Event}
  {L : Trail} {r : Request} {slot₁ slot₂ : Slot} {e₁ e₂ : Envelope} {conn : Connection}
  {first second : FlowMod} {x₁ x₂ : Xid}

/-- A message stays behind another in every event, if no request is answered before its message
is on the wire, and none is withdrawn. -/
theorem behind_after (hserved : s.Served) (hexplained : s.Explained c L)
    (hc : s.connections[c]? = some conn) (h : L.Behind conn slot₁ e₁ slot₂ e₂)
    (hopened : slot₂ < conn.registry.slots) (hcodec : ∃ f, conn.codec.write e₁ = .ok f)
    (hsole₁ : ∀ e, (some slot₁, e) ∈ L.waiting → L.Sole conn slot₁ e.xid)
    (hsole₂ : ∀ e, (some slot₂, e) ∈ L.waiting → L.Sole conn slot₂ e.xid)
    (hturn : ∀ slot ∈ s.answers? c e, L.Wrote slot) (hkept : s.withdraws e = false) :
    ∃ conn', (s.after e).connections[c]? = some conn' ∧
      (s.trail c L e).Behind conn' slot₁ e₁ slot₂ e₂ := by
  rw [Explained, hc] at hexplained
  obtain ⟨joined, hL⟩ := hexplained
  have haccounted := hserved.accounted c conn hc
  obtain ⟨conn', hc', hturn'⟩ := turn_after hserved.plain e hc
  refine ⟨conn', hc', ?_⟩
  rw [trail, hc, hc']
  cases hturn' with
  | impartial himpartial =>
      obtain ⟨hq, hw⟩ := himpartial.queued
      have haccounted' :=
        himpartial.inv Connection.Accounted (fun _ e _ hc => hc.after e) haccounted
      refine h.queued hq hw (fun a ha hslot => ?_)
        (fun _ _ htwo => himpartial.together haccounted htwo) fun hresult => ?_
      · -- What joins the queue has a new slot.
        obtain ⟨envelope, -, rfl⟩ := List.mem_map.mp ha
        have hnew := (Connection.slot_of_requestOf? hslot haccounted'.sound).1
        exact absurd hopened (Nat.not_lt.mpr hnew)
      · refine (himpartial.inv (fun c => c.Accounted ∧ (c.registry.result? slot₂).isSome = true)
          (fun c e _ hc => ⟨hc.1.after e, ?_⟩) ⟨haccounted, hresult⟩).2
        obtain ⟨calls, hcalls, -⟩ := c.registry_after e
        rw [hcalls]
        exact hc.1.sound.isSome_after hc.2 calls
  | received f =>
      refine h.receive haccounted.sound f fun slot hslot hnot => ?_
      have hanswers : s.answers? c (.receive c f) = some slot := by
        rw [answers?, if_pos rfl, hc]
        exact hslot
      obtain ⟨a, ha, hmark⟩ := List.mem_map.mp (hturn slot hanswers)
      exact hnot a ha hmark
  | wrote held => exact h.writerStep hL haccounted.sound hcodec hsole₁ hsole₂ held
  | withdrew reply hwithdraws =>
      rw [hkept] at hwithdraws
      cases hwithdraws

/-- What comes of a message that a job sends. -/
theorem sending_of_deedOf? {p : Promise} {m : Message} (hserved : s.Served)
    (h : s.deedOf? t e = some ⟨.send m, p⟩) :
    ∃ conn conn', s.connections[p.connection]? = some conn ∧
      (s.after e).connections[p.connection]? = some conn' ∧ (s.after e).now = s.now ∧
      conn.Sending s.now m (p.reply, conn') := by
  obtain ⟨conn, hc, hreply, hc', hnow⟩ := allocated_of_deedOf? h
  refine ⟨conn, _, hc, hc', hnow, ?_⟩
  rw [hreply]
  exact Connection.sending (hserved.accounted _ conn hc).sound s.now m

/-! ## Runs -/

section Runs

variable {config : Config} {s₀ : System} (hnew : System.new config = .ok s₀)
include hnew

/-- A connection keeps its codec. -/
theorem codec_go (hc : (s₀.go es₁).connections[c]? = some conn) (es₂ : List Event) :
    ∃ conn', (s₀.go (es₁ ++ es₂)).connections[c]? = some conn' ∧ conn'.codec = conn.codec := by
  induction es₂ using List.reverseRecOn with
  | nil =>
      rw [List.append_nil]
      exact ⟨conn, hc, rfl⟩
  | append_singleton es₂ e ih =>
      obtain ⟨conn', hc', hsame⟩ := ih
      obtain ⟨conn'', hc'', hround⟩ :=
        exists_round ((served_new hnew).go (es₁ ++ es₂)).plain e hc'
      rw [← List.append_assoc, go_concat]
      exact ⟨conn'', hc'', hround.same.codec.trans hsame⟩

section Behind

variable
  (hdeed₁ : (⟨.send (.flowMod first), ⟨c, .awaited x₁ slot₁⟩⟩ : Deed) ∈ s₀.deedsIn t es₁)
  (hdeed₂ : (⟨.send (.flowMod second), ⟨c, .awaited x₂ slot₂⟩⟩ : Deed) ∈ s₀.deedsIn t es₁)
include hdeed₁ hdeed₂

/-- A change that a job hands over right behind another stays behind it. -/
theorem behind_go (hc : (s₀.go es₁).connections[c]? = some conn)
    (hbehind : (s₀.trailIn c {} es₁).Behind conn slot₁ ⟨x₁, .flowMod first⟩ slot₂
      ⟨x₂, .flowMod second⟩) (hcodec : ∃ f, conn.codec.write ⟨x₁, .flowMod first⟩ = .ok f)
    (hturn : s₀.AnswersInTurn c {} (es₁ ++ es₂))
    (hkept : ∀ es' e, es' ++ [e] <+: es₁ ++ es₂ → (s₀.go es').withdraws e = false)
    (hxids : s₀.OwnXids t c (es₁ ++ es₂)) :
    ∃ conn', (s₀.go (es₁ ++ es₂)).connections[c]? = some conn' ∧
      (s₀.trailIn c {} (es₁ ++ es₂)).Behind conn' slot₁ ⟨x₁, .flowMod first⟩ slot₂
        ⟨x₂, .flowMod second⟩ := by
  induction es₂ using List.reverseRecOn with
  | nil =>
      rw [List.append_nil]
      exact ⟨conn, hc, hbehind⟩
  | append_singleton es₂ e ih =>
      rw [← List.append_assoc] at hturn hkept hxids ⊢
      have hbegins : es₁ ++ es₂ <+: es₁ ++ es₂ ++ [e] := List.prefix_append _ _
      obtain ⟨hturn, he⟩ := answersInTurn_concat.mp hturn
      obtain ⟨conn', hc', hbehind'⟩ := ih hturn
        (fun es' e' hes' => hkept es' e' (hes'.trans hbegins))
        fun es' hes' => hxids es' (hes'.trans hbegins)
      have hserved := (served_new hnew).go (es₁ ++ es₂)
      have hlater {deed : Deed} (hdeed : deed ∈ s₀.deedsIn t es₁) :
          deed ∈ s₀.deedsIn t (es₁ ++ es₂) := by
        rw [deedsIn_append]
        exact List.mem_append_left _ hdeed
      -- What waits under a slot of the job is what the job has handed over.
      have hsole {slot : Slot} {x : Xid} {mod : FlowMod}
          (hdeed : (⟨.send (.flowMod mod), ⟨c, .awaited x slot⟩⟩ : Deed) ∈ s₀.deedsIn t es₁)
          (envelope : Envelope)
          (hwait : (some slot, envelope) ∈ (s₀.trailIn c {} (es₁ ++ es₂)).waiting) :
          (s₀.trailIn c {} (es₁ ++ es₂)).Sole conn' slot envelope.xid := by
        obtain ⟨-, -, -, honly⟩ := tracked_of_deed hnew (hlater hdeed)
        obtain rfl := honly envelope (List.mem_append_right _ (List.mem_append_right _ hwait))
        exact hxids _ hbegins conn' hc' slot (mem_slotsOn.mpr ⟨_, x, hlater hdeed⟩) _ hwait rfl rfl
      obtain ⟨conn₂, hc₂, hopened, -⟩ := tracked_of_deed hnew (hlater hdeed₂)
      cases hc'.symm.trans hc₂
      obtain ⟨conn₂, hc₂, hsame⟩ := codec_go hnew hc es₂
      cases hc'.symm.trans hc₂
      rw [go_concat, trailIn_concat]
      exact behind_after hserved (explained_go hnew c _) hc' hbehind' hopened (hsame ▸ hcodec)
        (hsole hdeed₁) (hsole hdeed₂) he (hkept _ e List.prefix_rfl)

end Behind

/-- When a job has handed over two changes at once, and the second has a slot, the second is
behind the first. -/
theorem behind_of_two_sends {ev₁ ev₂ : Event} {p₁ p₂ : Promise}
    (hfirst : (s₀.go es).deedOf? t ev₁ = some ⟨.send (.flowMod first), p₁⟩)
    (hsecond : (s₀.go (es ++ [ev₁])).deedOf? t ev₂ = some ⟨.send (.flowMod second), p₂⟩)
    (hconnection : p₂.connection = p₁.connection) (hreply : p₂.reply = .awaited x₂ slot₂) :
    ∃ x₁ slot₁ conn, p₁.reply = .awaited x₁ slot₁ ∧
      (s₀.go (es ++ [ev₁] ++ [ev₂])).connections[p₁.connection]? = some conn ∧
      (s₀.trailIn p₁.connection {} (es ++ [ev₁] ++ [ev₂])).Behind conn slot₁
        ⟨x₁, .flowMod first⟩ slot₂ ⟨x₂, .flowMod second⟩ := by
  have hserved := (served_new hnew).go es
  rw [go_concat] at hsecond
  obtain ⟨conn, conn₁, hc, hc₁, hnow, hsends₁⟩ := sending_of_deedOf? hserved hfirst
  obtain ⟨conn', conn₂, hc₁', hc₂, -, hsends₂⟩ := sending_of_deedOf? (hserved.after ev₁) hsecond
  rw [hconnection] at hc₁' hc₂
  cases hc₁.symm.trans hc₁'
  rw [hreply, hnow] at hsends₂
  have hopened : (s₀.trailIn p₁.connection {} es).Opened conn := by
    intro slot envelope hin
    obtain ⟨conn', hc', hlt⟩ := opened_go hnew p₁.connection es slot envelope hin
    cases hc.symm.trans hc'
    exact hlt
  have hdeadline : conn.deadline (s₀.go es).now (.flowMod first) =
      conn.deadline (s₀.go es).now (.flowMod second) := rfl
  obtain ⟨x₁, slot₁, hreply₁, hbehind⟩ := Connection.Ledger.behind_of_sends
    (hserved.accounted _ conn hc).sound hopened hdeadline hsends₁ hsends₂
  rw [trailIn_concat, trailIn_concat, go_concat, go_concat, trail, hc₁, hc₂, trail, hc, hc₁]
  exact ⟨x₁, slot₁, conn₂, hreply₁, rfl, hbehind⟩

/-- The second of two changes of a request is on the wire only if the first is. -/
theorem first_written_of_second (hflow : r.isFlow = true) (hmods : r.flowMods = [first, second])
    (hne : first ≠ second) (h : s₀.Regular t r c es)
    (hcodec : s₀.Writable t c [first] es) (hxids : s₀.OwnXids t c es)
    (hwritten : second ∈ s₀.changesWritten t c es) : first ∈ s₀.changesWritten t c es := by
  obtain ⟨hreq, hburst, hturn, hkept⟩ := h
  have hsent : s₀.changesSent t es = [first, second] := by
    have hmem := (changesWritten_sublist hnew t c es).subset hwritten
    exact eq_of_prefix_pair (hmods ▸ changesSent_prefix hnew hreq hflow) hmem hne
  obtain ⟨x₂, slot₂, hdeed, hon⟩ := (mem_changesWritten hnew).mp hwritten
  obtain ⟨es₁, ev₁, ev₂, es₂, p₁, p₂, rfl, hfirst, hsecond, hconnection, honly⟩ :=
    exists_two_sends hnew hreq hflow hmods hne hsent hburst
  obtain rfl := honly _ hdeed
  obtain ⟨x₁, slot₁, conn, hreply, hc, hbehind⟩ :=
    behind_of_two_sends hnew hfirst hsecond hconnection rfl
  obtain ⟨c', reply⟩ := p₁
  cases hconnection
  cases hreply
  have hrun : es₁ ++ ev₁ :: ev₂ :: es₂ = es₁ ++ [ev₁] ++ [ev₂] ++ es₂ := by simp
  have hdeeds : s₀.deedsIn t (es₁ ++ [ev₁] ++ [ev₂]) = s₀.deedsIn t es₁ ++
      [⟨.send (.flowMod first), ⟨c, .awaited x₁ slot₁⟩⟩] ++
      [⟨.send (.flowMod second), ⟨c, .awaited x₂ slot₂⟩⟩] := by
    rw [deedsIn_concat, deedsIn_concat, hfirst, hsecond]
    rfl
  have hdeed₁ : (⟨.send (.flowMod first), ⟨c, .awaited x₁ slot₁⟩⟩ : Deed) ∈
      s₀.deedsIn t (es₁ ++ [ev₁] ++ [ev₂]) := by
    rw [hdeeds]
    simp
  have hdeed₂ : (⟨.send (.flowMod second), ⟨c, .awaited x₂ slot₂⟩⟩ : Deed) ∈
      s₀.deedsIn t (es₁ ++ [ev₁] ++ [ev₂]) := by
    rw [hdeeds]
    exact List.mem_append_right _ (List.mem_singleton_self _)
  rw [hrun] at hturn hkept hcodec hxids hdeed hon ⊢
  have hdeed₁' : (⟨.send (.flowMod first), ⟨c, .awaited x₁ slot₁⟩⟩ : Deed) ∈
      s₀.deedsIn t (es₁ ++ [ev₁] ++ [ev₂] ++ es₂) := by
    rw [deedsIn_append]
    exact List.mem_append_left _ hdeed₁
  obtain ⟨conn', hc', hsame⟩ := codec_go hnew hc es₂
  obtain ⟨_, -, hbehind'⟩ := behind_go hnew hdeed₁ hdeed₂ hc hbehind
    (hsame ▸ hcodec x₁ slot₁ _ conn' hc' (List.mem_singleton_self _) hdeed₁') hturn hkept hxids
  exact (mem_changesWritten hnew).mpr ⟨x₁, slot₁, hdeed₁', hbehind'.first_written hon⟩

/-- What is put on the wire of the changes of a request on a flow, in a regular run, is the
first of them, in their order.  In particular, a flow that is put in the place of another, and
not in place, is added only if the other was removed before.

It has to be possible to write all these changes but the last, and as long as one waits in the
queue its transaction id must be its own. -/
theorem changesWritten_prefix (hflow : r.isFlow = true) (h : s₀.Regular t r c es)
    (hcodec : s₀.Writable t c r.flowMods.dropLast es) (hxids : s₀.OwnXids t c es) :
    s₀.changesWritten t c es <+: r.flowMods ∧
      ∀ path old updated, r = .updateFlow path old updated →
        .by .add updated.toStrict ∈ s₀.changesWritten t c es →
          s₀.changesWritten t c es =
            [.by .deleteStrict old.toStrict, .by .add updated.toStrict] := by
  have hbegins : s₀.changesWritten t c es <+: r.flowMods := by
    have hsent := changesSent_prefix hnew h.requested hflow
    have hsub := (changesWritten_sublist hnew t c es).trans hsent.sublist
    rcases r.flowMods_cases hflow with ⟨mod, hmods, -⟩ | ⟨path, old, updated, -, hmods⟩
    · rw [hmods] at hsub ⊢
      rcases List.sublist_singleton.mp hsub with hnone | hone
      · exact hnone ▸ List.nil_prefix
      · exact hone ▸ List.prefix_rfl
    · rw [hmods] at hcodec
      have hfirst := first_written_of_second hnew hflow hmods
        (FlowMod.by_deleteStrict_ne_by_add _ _) h hcodec hxids
      rw [hmods] at hsub ⊢
      exact prefix_of_sublist_pair hsub hfirst
  refine ⟨hbegins, fun path old updated hr hadded => ?_⟩
  rcases r.flowMods_cases hflow with ⟨mod, hmods, hmod⟩ | ⟨path', old', updated', hr', hmods⟩
  · have hin := hmods ▸ hbegins.subset hadded
    have hcommand := hmod path old updated hr
    rw [← List.mem_singleton.mp hin] at hcommand
    cases hcommand
  · cases hr.symm.trans hr'
    exact eq_of_prefix_pair (hmods ▸ hbegins) hadded (FlowMod.by_deleteStrict_ne_by_add _ _)

end Runs

/-! ## A flow is put in the place of another -/

namespace Replacing

open Exchange (device path old)

/-- A flow of another priority. -/
def updated : Flow := { table := ⟨0⟩, priority := 7 }

def request : Request := .updateFlow path old updated

/-- Frames that are as long as the transaction id says, but for some ids, and that all answer a
barrier. -/
def codec (refused : List Xid) : Codec :=
  { Codec.confirming with
    write e :=
      if refused.contains e.xid then .error (.encodeFailed "") else Codec.confirming.write e }

/-- The device is attached. -/
def before (refused : List Xid) (wireCapacity : Nat) : List Event :=
  [.openConnection device (codec refused) wireCapacity, .attach 0]

/-- The flow is asked for, and both changes are handed over. -/
def sending : List Event := [.submit request false, .startJob 0, .stepJob 0, .stepJob 0]

/-- Both changes are written. -/
def run : List Event := before [] 64 ++ sending ++ List.replicate 4 (.writer 0)

/-- The removal cannot be written. -/
def unwritable : List Event := before [⟨1⟩] 64 ++ sending ++ List.replicate 3 (.writer 0)

/-- The wire is full when the changes are handed over, and they wait too long.  Then a barrier
is sent under the transaction id of the addition, and the device reads. -/
def reused : List Event :=
  before [] 1 ++ [.send 0 none .barrierRequest, .writer 0, .writer 0, .send 0 none .barrierRequest,
    .writer 0] ++ sending ++ [.tick 10000, .sweep 0, .send 0 (some ⟨4⟩) .barrierRequest, .read 0,
    .writer 0, .writer 0, .writer 0, .read 0, .writer 0]

end Replacing

theorem changesWritten_prefix_of_replacing :
    ∃ s₀, System.new {} = .ok s₀ ∧ s₀.Regular 0 Replacing.request 0 Replacing.run ∧
      .by .add Replacing.updated.toStrict ∈ s₀.changesWritten 0 0 Replacing.run ∧
      s₀.changesWritten 0 0 Replacing.run <+: Replacing.request.flowMods ∧
      s₀.changesWritten 0 0 Replacing.run =
        [.by .deleteStrict Exchange.old.toStrict, .by .add Replacing.updated.toStrict] := by
  have hstart : ∃ s₀, System.new {} = .ok s₀ ∧
      (0, Replacing.request) ∈ s₀.requestedIn Replacing.run ∧
      s₀.SendsAtOnce 0 Replacing.request.flowMods Replacing.run ∧
      s₀.AnswersInTurn 0 {} Replacing.run ∧
      (∀ n : Fin Replacing.run.length,
        (s₀.go (Replacing.run.take n)).withdraws Replacing.run[n] = false) ∧
      ((s₀.go Replacing.run).connections[0]?).map Connection.codec = some (Replacing.codec []) ∧
      s₀.OwnXids 0 0 Replacing.run ∧
      .by .add Replacing.updated.toStrict ∈ s₀.changesWritten 0 0 Replacing.run :=
    ⟨_, rfl, by decide, by decide, by decide, by decide, rfl, by decide, by decide⟩
  obtain ⟨s₀, hnew, hreq, hburst, hturn, hkept, hsame, hxids, hadded⟩ := hstart
  have hregular : s₀.Regular 0 Replacing.request 0 Replacing.run :=
    ⟨hreq, hburst, hturn, forall_prefix_concat_iff.mpr hkept⟩
  have hcodec : s₀.Writable 0 0 Replacing.request.flowMods.dropLast Replacing.run := by
    intro x slot mod conn hc _ _
    rw [hc] at hsame
    rw [Option.some.inj hsame]
    exact ⟨_, rfl⟩
  obtain ⟨hbegins, hpair⟩ := changesWritten_prefix hnew rfl hregular hcodec hxids
  exact ⟨s₀, hnew, hregular, hadded, hbegins, hpair _ _ _ rfl hadded⟩

/-- The addition is put on the wire without the removal where the removal cannot be written, and
where another request is given the transaction id of the addition while it waits in the
queue. -/
theorem added_alone :
    ∃ s₀, System.new {} = .ok s₀ ∧
      (s₀.Regular 0 Replacing.request 0 Replacing.unwritable ∧
        s₀.OwnXids 0 0 Replacing.unwritable ∧
        s₀.changesWritten 0 0 Replacing.unwritable = [.by .add Replacing.updated.toStrict] ∧
        ¬s₀.changesWritten 0 0 Replacing.unwritable <+: Replacing.request.flowMods) ∧
      s₀.Regular 0 Replacing.request 0 Replacing.reused ∧
        s₀.Writable 0 0 Replacing.request.flowMods Replacing.reused ∧
        s₀.changesWritten 0 0 Replacing.reused = [.by .add Replacing.updated.toStrict] ∧
        ¬s₀.changesWritten 0 0 Replacing.reused <+: Replacing.request.flowMods := by
  have hnot : ¬[.by .add Replacing.updated.toStrict] <+: Replacing.request.flowMods := by decide
  have hstart : ∃ s₀, System.new {} = .ok s₀ ∧
      (∀ es ∈ [Replacing.unwritable, Replacing.reused],
        (0, Replacing.request) ∈ s₀.requestedIn es ∧
          s₀.SendsAtOnce 0 Replacing.request.flowMods es ∧ s₀.AnswersInTurn 0 {} es ∧
          (∀ n : Fin es.length, (s₀.go (es.take n)).withdraws es[n] = false) ∧
          s₀.changesWritten 0 0 es = [.by .add Replacing.updated.toStrict]) ∧
      s₀.OwnXids 0 0 Replacing.unwritable ∧
      ((s₀.go Replacing.reused).connections[0]?).map Connection.codec = some (Replacing.codec []) :=
    ⟨_, rfl, by decide, by decide, rfl⟩
  obtain ⟨s₀, hnew, hruns, hxids, hsame⟩ := hstart
  have hregular {es : List Event} (hes : es ∈ [Replacing.unwritable, Replacing.reused]) :
      s₀.Regular 0 Replacing.request 0 es ∧
        s₀.changesWritten 0 0 es = [.by .add Replacing.updated.toStrict] := by
    obtain ⟨hreq, hburst, hturn, hkept, halone⟩ := hruns es hes
    exact ⟨⟨hreq, hburst, hturn, forall_prefix_concat_iff.mpr hkept⟩, halone⟩
  have hcodec : s₀.Writable 0 0 Replacing.request.flowMods Replacing.reused := by
    intro x slot mod conn hc _ _
    rw [hc] at hsame
    rw [Option.some.inj hsame]
    exact ⟨_, rfl⟩
  obtain ⟨hunwritable, halone⟩ := hregular (List.mem_cons_self ..)
  obtain ⟨hreused, halone'⟩ := hregular (List.mem_cons_of_mem _ (List.mem_singleton_self _))
  exact ⟨s₀, hnew, ⟨hunwritable, hxids, halone, halone ▸ hnot⟩, hreused, hcodec, halone',
    halone' ▸ hnot⟩

end System

end Southbound
