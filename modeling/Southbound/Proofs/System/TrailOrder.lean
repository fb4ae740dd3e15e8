import Southbound.Proofs.System.Tracked

/-!
# The order of messages on a trail

Messages that are sent one after another on a connection get slots in that order, and they
join the queue in that order.  So they are put on the wire in that order, those that are put
there at all (`System.wroteBefore_of_sent`).

The slots that are opened after some time are no less than a bound, and those before are
less.  On the trail nothing below the bound comes after something that is not
(`Connection.Ledger.Divided`).
-/

namespace Southbound

namespace Connection.Ledger

/-- On a trail, what was sent under a slot below a bound comes before all that was not. -/
def Divided (L : Trail) (n : Slot) : Prop :=
  L.messages.Pairwise fun a b => ∀ slot ∈ a.1, n ≤ slot → ∀ slot' ∈ b.1, n ≤ slot'

/-- One message was put on the wire before another. -/
def WroteBefore (L : Trail) (p : Promise) (m : Message) (p' : Promise) (m' : Message) : Prop :=
  ∃ x slot x' slot', p.reply = .awaited x slot ∧ p'.reply = .awaited x' slot' ∧
    [(some slot, ⟨x, m⟩), (some slot', ⟨x', m'⟩)].Sublist L.written

/-- Of two elements in a list one comes first, and the relation of the list says which. -/
theorem pair_sublist {α : Type} {R : α → α → Prop} {l : List α} (h : l.Pairwise R) {a b : α}
    (ha : a ∈ l) (hb : b ∈ l) (hne : a ≠ b) (hnot : ¬R b a) : [a, b].Sublist l := by
  induction h with
  | nil => cases ha
  | cons hfirst _ ih =>
      rcases List.mem_cons.mp ha with rfl | ha'
      · have hb' := (List.mem_cons.mp hb).resolve_left hne.symm
        exact (List.singleton_sublist.mpr hb').cons_cons a
      · rcases List.mem_cons.mp hb with rfl | hb'
        · exact absurd (hfirst a ha') hnot
        · exact (ih ha' hb').cons _

theorem Divided.wroteBefore {L : Trail} {n slot slot' : Slot} {p p' : Promise} {m m' : Message}
    {x x' : Xid} (h : L.Divided n) (hp : p.reply = .awaited x slot)
    (hp' : p'.reply = .awaited x' slot') (hlt : slot < n) (hle : n ≤ slot')
    (hw : (some slot, ⟨x, m⟩) ∈ L.written) (hw' : (some slot', ⟨x', m'⟩) ∈ L.written) :
    L.WroteBefore p m p' m' := by
  refine ⟨x, slot, x', slot', hp, hp', ?_⟩
  have hwritten := h.sublist (List.sublist_append_left L.written _)
  refine pair_sublist hwritten hw hw' (fun heq => ?_) fun hsame => ?_
  · cases heq
    exact absurd hle (Nat.not_le.mpr hlt)
  · exact absurd (hsame slot' rfl hle slot rfl) (Nat.not_le.mpr hlt)

/-- A ledger goes on with messages that it had, in their order, and then those that joined. -/
theorem Explains.messages_follow {μ : Type} {L : Connection.Ledger μ} {c c' : Connection}
    {joined : List (μ × Envelope)} (h : L.Explains c joined) (hs : Transit c c')
    (hcodec : c'.codec = c.codec) (mark : Envelope → μ) :
    (L.follow mark c c').messages.Sublist (L.messages ++ joining mark c c') :=
  (Explains.follow ⟨.refl _, h.onWire, h.inHand, h.inQueue⟩ hs hcodec mark).order

end Connection.Ledger

namespace System

open Connection (Ledger)

variable {s : System} {c : ConnectionId} {L : Trail} {n : Slot} {e : Event} {p p' : Promise}
  {m m' : Message} {es es₁ es₂ es₃ : List Event}

/-- What joins a trail later comes after all that is on it. -/
theorem divided_after (hserved : s.Served) (hexplained : s.Explained c L) (h : L.Divided n)
    {conn : Connection} (hc : s.connections[c]? = some conn) (hn : n ≤ conn.registry.slots)
    (e : Event) : (s.trail c L e).Divided n := by
  obtain ⟨conn', hc', hround⟩ := exists_round hserved.plain e hc
  rw [Explained, hc] at hexplained
  obtain ⟨joined, hL⟩ := hexplained
  rw [trail, hc, hc']
  refine List.Pairwise.sublist (hL.messages_follow hround.transit hround.same.codec _) ?_
  have hnew : ∀ a ∈ Connection.joining (Connection.requestOf? conn conn') conn conn',
      ∀ slot ∈ a.1, n ≤ slot := by
    rintro _ ha slot hslot
    obtain ⟨envelope, -, rfl⟩ := List.mem_map.mp ha
    have hsound := (hround.accounted (hserved.accounted c conn hc)).sound
    exact Nat.le_trans hn (Connection.slot_of_requestOf? hslot hsound).1
  refine List.pairwise_append.mpr ⟨h, ?_, fun a _ b hb slot _ _ => hnew b hb⟩
  exact List.pairwise_of_forall_mem_list fun a _ b hb slot _ _ => hnew b hb

/-- A message that is sent under a slot gets the next one of its connection. -/
theorem slot_of_sends? (h : s.sends? e = some (p, m)) {x : Xid} {slot : Slot}
    (hreply : p.reply = .awaited x slot) :
    (∃ conn, s.connections[p.connection]? = some conn ∧ slot = conn.registry.slots) ∧
      ∃ conn', (s.after e).connections[p.connection]? = some conn' ∧
        slot < conn'.registry.slots := by
  obtain ⟨conn, conn₀, x', hc, hslots, -, hsent, hc'⟩ := sentOver_of_sends? h
  rw [hreply] at hsent
  have hopened := conn₀.opened_send s.now x' m
  rcases conn₀.reply_send s.now x' m with hawaited | ⟨cause, hfailed, -⟩
  · rw [hawaited] at hsent hopened
    cases hsent
    exact ⟨⟨conn, hc, hslots⟩, _, hc', hopened⟩
  · rw [hfailed] at hsent
    cases hsent

section Runs

variable {config : Config} {s₀ : System} (hnew : System.new config = .ok s₀)
include hnew

/-- Whatever is on a trail at some time comes before all that joins it later. -/
theorem divided_go {conn : Connection} (hc : (s₀.go es₁).connections[c]? = some conn)
    (es₂ : List Event) :
    (s₀.trailIn c {} (es₁ ++ es₂)).Divided conn.registry.slots ∧
      ∃ conn', (s₀.go (es₁ ++ es₂)).connections[c]? = some conn' ∧
        conn.registry.slots ≤ conn'.registry.slots := by
  induction es₂ using List.reverseRecOn with
  | nil =>
      rw [List.append_nil]
      refine ⟨List.pairwise_of_forall_mem_list fun a ha b _ slot hslot hle => ?_, conn, hc,
        Nat.le_refl _⟩
      obtain ⟨mark, envelope⟩ := a
      cases hslot
      obtain ⟨conn', hc', hlt⟩ := opened_go hnew c es₁ slot envelope ha
      cases hc.symm.trans hc'
      exact absurd hle (Nat.not_le.mpr hlt)
  | append_singleton es₂ e ih =>
      obtain ⟨hdivided, conn', hc', hle⟩ := ih
      have hserved := (served_new hnew).go (es₁ ++ es₂)
      obtain ⟨conn'', hc'', hround⟩ := exists_round hserved.plain e hc'
      rw [← List.append_assoc, go_concat, trailIn_concat]
      exact ⟨divided_after hserved (explained_go hnew c _) hdivided hc' hle e, conn'', hc'',
        Nat.le_trans hle hround.slots_le⟩

/-- Messages that are sent one after another on a connection are put on the wire in that
order. -/
theorem wroteBefore_of_sent {e₁ e₂ : Event} (h : (s₀.go es₁).sends? e₁ = some (p, m))
    (h' : (s₀.go (es₁ ++ e₁ :: es₂)).sends? e₂ = some (p', m'))
    (hconnection : p'.connection = p.connection) (hes : es = es₁ ++ e₁ :: (es₂ ++ e₂ :: es₃))
    (hw : p.WrittenIn (s₀.trailIn p.connection {} es) m)
    (hw' : p'.WrittenIn (s₀.trailIn p.connection {} es) m') :
    (s₀.trailIn p.connection {} es).WroteBefore p m p' m' := by
  obtain ⟨x, slot, hreply, hwritten⟩ := hw
  obtain ⟨x', slot', hreply', hwritten'⟩ := hw'
  obtain ⟨-, conn, hc, hlt⟩ := slot_of_sends? h hreply
  obtain ⟨⟨conn', hc', rfl⟩, -⟩ := slot_of_sends? h' hreply'
  rw [← go_concat] at hc
  have hle : conn.registry.slots ≤ conn'.registry.slots := by
    obtain ⟨-, conn'', hc'', hle⟩ := divided_go hnew hc es₂
    rw [hconnection, ← List.singleton_append, ← List.append_assoc] at hc'
    cases hc'.symm.trans hc''
    exact hle
  subst hes
  obtain ⟨hdivided, -⟩ := divided_go hnew hc (es₂ ++ e₂ :: es₃)
  rw [List.append_assoc, List.singleton_append] at hdivided
  exact hdivided.wroteBefore hreply hreply' hlt hle hwritten hwritten'

end Runs

end System

end Southbound
