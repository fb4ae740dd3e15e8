import Southbound.Proofs.Connection.Tasks
import Southbound.Proofs.Transaction.Sweep

/-!
# No request is left alone

A connection can go down in three ways: it is disconnected, its writer finds the wire
closed, or nobody holds it any more.  However this comes together with messages that are
sent, withdrawn and answered, a request that waits has a deadline, and a sweeper that
will look at it (`Connection.Held.none_stranded`).

The invariant is `Held.Attended`.  A sweeper ends only if no request waits, and none is
sent after that: the connection accepts no messages, or nobody is left to send one.
-/

namespace Southbound.Connection

/-! ## Sweeps -/

section Sweeps

variable {c : Connection} {p : Pending} {now : Instant}

/-- A request that has waited long enough is settled by the next sweep. -/
theorem Accounted.result?_sweep (h : c.Accounted) (hp : p ∈ c.registry.pending)
    (hsweeper : c.sweeper ≠ .stopped) (hdue : p.isDue now = true) :
    (c.after (.sweep now)).registry.result? p.slot = some (.error (.timeout p.xid)) := by
  have hsettled : (c.registry.sweep now).result? p.slot = some (.error (.timeout p.xid)) :=
    (h.sound.result?_sweep hp).trans (if_pos hdue)
  show (c.sweep now).registry.result? p.slot = _
  rw [sweep]
  split
  · contradiction
  · exact hsettled
  · exact hsettled

/-- The first of the moments that are an interval apart, at or after another one. -/
theorem le_first_multiple {first t interval : Nat} (hinterval : 0 < interval) (ht : first ≤ t) :
    t ≤ first + (t - first + (interval - 1)) / interval * interval ∧
      first + (t - first + (interval - 1)) / interval * interval < t + interval := by
  have hle := Nat.div_mul_le_self (t - first + (interval - 1)) interval
  have hlt := Nat.lt_div_mul_add (a := t - first + (interval - 1)) hinterval
  omega

/-- A connection that sweeps at all is due to sweep again and again, an interval apart at
most. -/
theorem sweepsAt_sweepFrom (c : Connection) {t : Instant} (hinterval : 0 < c.sweepInterval)
    (ht : c.opened ≤ t) :
    t ≤ c.sweepFrom t ∧ c.sweepFrom t < t + c.sweepInterval ∧
      c.sweepsAt (c.sweepFrom t) = true := by
  obtain ⟨hle, hlt⟩ := le_first_multiple hinterval ht
  -- A sweep is the first one at or after itself.
  have hagain (n : Nat) :
      c.sweepFrom (c.opened + n * c.sweepInterval) = c.opened + n * c.sweepInterval := by
    rw [sweepFrom, Nat.add_sub_cancel_left, Nat.mul_comm n, Nat.mul_add_div hinterval,
      Nat.div_eq_of_lt (Nat.sub_lt hinterval Nat.one_pos), Nat.add_zero, Nat.mul_comm]
  have hself : c.sweepFrom (c.sweepFrom t) = c.sweepFrom t := hagain _
  have hopened : c.opened ≤ c.sweepFrom t := Nat.le_add_right ..
  exact ⟨hle, hlt, by simp [sweepsAt, hself, hopened]⟩

theorem sweepInterval_open {device : DeviceId} {codec : Codec} {wireCapacity : Nat}
    {config : Config} (hopen : open? device codec wireCapacity config now = some c) :
    c.sweepInterval = config.deadlines.sweep.toNat ∧ c.opened = now := by
  rw [eq_of_open hopen]
  exact ⟨rfl, rfl⟩

/-- Settings that make sense have time between two sweeps. -/
theorem sweep_pos {config : Config} (h : config.validate = .ok ()) :
    0 < config.deadlines.sweep.toNat := by
  refine Nat.pos_of_ne_zero fun hzero => ?_
  have hsweep : config.deadlines.sweep = 0 := UInt64.toNat_inj.mp hzero
  simp only [Config.validate, hsweep, if_true] at h
  split at h
  · cases h
  · split at h <;> cases h

end Sweeps

namespace Held

/-! ## The invariant -/

/-- A connection whose requests all have a deadline, and a sweeper as long as there are
any. -/
structure Attended (h : Held) : Prop where
  accounted : h.connection.Accounted
  deadlines : ∀ p ∈ h.connection.registry.pending, p.deadline.isSome = true
  closing : h.connection.closing = true → h.connection.connected = false
  orphaned : h.connection.sweeper = .orphaned → h.isHeld = false
  /-- When the sweeper has ended, no request waits and none can be sent. -/
  stopped : h.connection.sweeper = .stopped →
    h.connection.registry.pending = [] ∧ (h.connection.connected = false ∨ h.isHeld = false)

namespace Attended

variable {h : Held} {u : Use}

theorem of_open {device : DeviceId} {codec : Codec} {wireCapacity : Nat} {config : Config}
    {now : Instant} {c : Connection}
    (hopen : open? device codec wireCapacity config now = some c) : Attended ⟨c, 1⟩ := by
  have haccounted := accounted_open hopen
  obtain rfl := eq_of_open hopen
  exact ⟨haccounted, List.forall_mem_nil _, nofun, nofun, nofun⟩

/-- If none can be sent, none comes to wait. -/
theorem pending_after (hpending : h.connection.registry.pending = [])
    (hclosed : h.connection.connected = false ∨ h.isHeld = false) :
    (h.after u).connection.registry.pending = [] := by
  refine List.eq_nil_iff_forall_not_mem.mpr fun q hq => ?_
  rcases mem_pending_after hq with ⟨p, hp, -⟩ | ⟨hup, hheld, -⟩
  · rw [hpending] at hp
    cases hp
  · cases hclosed with
    | inl hdown =>
        rw [hdown] at hup
        cases hup
    | inr hnobody =>
        rw [hnobody] at hheld
        cases hheld

theorem accounted_after (h' : Attended h) (u : Use) : (h.after u).connection.Accounted :=
  inv_after Accounted (fun _ e hc => hc.after e) (fun _ => accounted_allocate) h'.accounted u

theorem deadlines_after (h' : Attended h) (u : Use) :
    ∀ p ∈ (h.after u).connection.registry.pending, p.deadline.isSome = true := by
  intro q hq
  rcases mem_pending_after hq with ⟨p, hp, hbecomes⟩ | ⟨-, -, hdeadline, -⟩
  · rw [hbecomes.deadline]
    exact h'.deadlines p hp
  · exact hdeadline

/-- Nobody comes to send on a connection that accepts no messages or that nobody
holds. -/
theorem closed_after
    (hclosed : h.connection.connected = false ∨ h.isHeld = false) (u : Use) :
    (h.after u).connection.connected = false ∨ (h.after u).isHeld = false := by
  refine hclosed.imp (fun hdown => ?_) (fun hnobody => isHeld_after_of_false hnobody u)
  exact inv_after (·.connected = false) (fun _ e hc => connected_after_of_false hc e)
    (fun _ hc => hc) hdown u

/-- What leaves the writer and the sweeper as they are keeps the connection attended. -/
theorem of_sameTasks (h' : Attended h) (hsame : SameTasks h.connection (h.after u).connection) :
    Attended (h.after u) where
  accounted := h'.accounted_after u
  deadlines := h'.deadlines_after u
  closing := by
    rw [hsame.closing, hsame.connected]
    exact h'.closing
  orphaned := by
    rw [hsame.sweeper]
    exact fun ho => isHeld_after_of_false (h'.orphaned ho) u
  stopped := by
    rw [hsame.sweeper]
    intro hs
    obtain ⟨hpending, hclosed⟩ := h'.stopped hs
    exact ⟨pending_after hpending hclosed, closed_after hclosed u⟩

/-- The sweeper as an event leaves it: only if nobody holds the connection it sweeps on
its own, and it ends only if no request waits and none can be sent. -/
theorem sweeper_of_event (h' : Attended h) {e : Event} (hevent : h.event? u = some e) :
    ((h.after u).connection.sweeper = .orphaned → (h.after u).isHeld = false) ∧
      ((h.after u).connection.sweeper = .stopped →
        (h.after u).connection.registry.pending = [] ∧
          ((h.after u).connection.connected = false ∨ (h.after u).isHeld = false)) := by
  have he := connection_after_of_event hevent
  cases h.connection.sweeper_after e with
  | same hsame =>
      rw [he, hsame, ← he]
      refine ⟨fun ho => isHeld_after_of_false (h'.orphaned ho) u, fun hs => ?_⟩
      obtain ⟨hpending, hclosed⟩ := h'.stopped hs
      exact ⟨pending_after hpending hclosed, closed_after hclosed u⟩
  | told hclosing hs =>
      have hdown := h'.closing hclosing
      have hpending := h'.accounted.lost hdown
      refine ⟨fun ho => ?_, fun _ => ?_⟩
      · rw [he, hs] at ho
        cases ho
      · exact ⟨pending_after hpending (.inl hdown), closed_after (.inl hdown) u⟩
  | orphaned hsweeper ho =>
      refine ⟨fun _ => ?_, fun hs => ?_⟩
      · cases u with
        | sweeper =>
            have hnobody : h.isHeld = false := by simpa [event?, hsweeper] using hevent
            exact isHeld_after_of_false hnobody _
        | _ => simp [event?, hsweeper] at hevent
      · rw [he, ho] at hs
        cases hs
  | finished horphaned hs hpending =>
      refine ⟨fun ho => ?_, fun _ => ?_⟩
      · rw [he, hs] at ho
        cases ho
      · rw [he]
        exact ⟨hpending, .inr (isHeld_after_of_false (h'.orphaned horphaned) u)⟩

/-- Whatever is done with a connection keeps it attended. -/
theorem after (h' : Attended h) (u : Use) : Attended (h.after u) := by
  rcases h.connection_after u with hsame | ⟨-, he⟩ | ⟨e, hevent, he⟩
  · exact h'.of_sameTasks (hsame ▸ .refl _)
  · exact h'.of_sameTasks (he ▸ ⟨rfl, rfl, rfl, rfl⟩)
  · obtain ⟨horphaned, hstopped⟩ := h'.sweeper_of_event hevent
    refine ⟨h'.accounted_after u, h'.deadlines_after u, fun hclosing => ?_, horphaned, hstopped⟩
    cases h.connection.closing_after e with
    | inl hsame =>
        rw [he, hsame] at hclosing
        rw [he]
        exact connected_after_of_false (h'.closing hclosing) e
    | inr htold => rw [he, htold.2]

theorem go (h' : Attended h) (us : List Use) : Attended (h.go us) :=
  inv_go Attended (fun _ u h' => h'.after u) h' us

end Attended

/-! ## Runs -/

/-- A connection is due to sweep again and again if settings make sense. -/
theorem sweepsAt_go {device : DeviceId} {codec : Codec} {wireCapacity : Nat} {config : Config}
    {now : Instant} {c : Connection}
    (hopen : open? device codec wireCapacity config now = some c) (us : List Use)
    (hvalid : config.validate = .ok ()) {t : Instant} (ht : now ≤ t) :
    ∃ t', t ≤ t' ∧ t' < t + config.deadlines.sweep.toNat ∧
      ((⟨c, 1⟩ : Held).go us).connection.sweepsAt t' = true := by
  obtain ⟨hinterval, hopened⟩ := sweepInterval_open hopen
  have hsame := same_go (h := ⟨c, 1⟩) us
  have hlength : ((⟨c, 1⟩ : Held).go us).connection.sweepInterval =
      config.deadlines.sweep.toNat := by
    rw [sweepInterval, hsame.deadlines]
    exact hinterval
  have hpos := hlength ▸ sweep_pos hvalid
  have hstart : ((⟨c, 1⟩ : Held).go us).connection.opened ≤ t := by
    rw [hsame.opened]
    exact hopened ▸ ht
  obtain ⟨hle, hlt, hat⟩ := sweepsAt_sweepFrom _ hpos hstart
  exact ⟨_, hle, hlength ▸ hlt, hat⟩

/-- Whatever is done with a connection, every request that waits has a deadline, and
there are none when the connection accepts no messages or its sweeper has ended.  So a
sweeper is left to look at each request that waits.  It settles the request whenever it
sweeps at or after the deadline, and if settings make sense it is due to do so then. -/
theorem none_stranded {device : DeviceId} {codec : Codec} {wireCapacity : Nat} {config : Config}
    {now : Instant} {c : Connection}
    (hopen : open? device codec wireCapacity config now = some c) {us : List Use} {h : Held}
    (hrun : (⟨c, 1⟩ : Held).go us = h) :
    (∀ p ∈ h.connection.registry.pending, p.deadline.isSome = true) ∧
    (h.connection.connected = false → h.connection.registry.pending = []) ∧
    (h.connection.sweeper = .stopped → h.connection.registry.pending = []) ∧
    (∀ p ∈ h.connection.registry.pending, ∀ deadline, p.deadline = some deadline →
      h.connection.sweeper ≠ .stopped ∧
      ∀ t, deadline ≤ t →
        (h.after (.sweep t)).connection.registry.result? p.slot =
          some (.error (.timeout p.xid))) ∧
    (config.validate = .ok () → ∀ t, now ≤ t →
      ∃ t', t ≤ t' ∧ t' < t + config.deadlines.sweep.toNat ∧ h.connection.sweepsAt t' = true) := by
  subst hrun
  have hattended := (Attended.of_open hopen).go us
  refine ⟨hattended.deadlines, hattended.accounted.lost, fun hs => (hattended.stopped hs).1,
    fun p hp deadline hdeadline => ?_, fun hvalid t ht => sweepsAt_go hopen us hvalid ht⟩
  have hsweeper : ((⟨c, 1⟩ : Held).go us).connection.sweeper ≠ .stopped := by
    intro hs
    rw [(hattended.stopped hs).1] at hp
    cases hp
  refine ⟨hsweeper, fun t ht => ?_⟩
  rw [connection_after_of_event rfl]
  have hdue : p.isDue t = true := by simp [Pending.isDue, hdeadline, ht]
  exact hattended.accounted.result?_sweep hp hsweeper hdue

/-- Nobody holds a connection any more, and its writer has ended.  The request that it
was sent times out. -/
theorem none_stranded_of_release :
    ∃ c, open? ⟨"openflow:1"⟩ .json 64 {} 0 = some c ∧
      ∀ h, (⟨c, 1⟩ : Held).go [.send 0 ⟨1⟩ .barrierRequest, .release, .sweeper, .writer] = h →
        h.connection.registry.pendingCount = 1 ∧
        (h.after (.sweep 30000)).connection.registry.result? 0 = some (.error (.timeout ⟨1⟩)) := by
  refine ⟨_, rfl, fun h hrun => ?_⟩
  have hopen : open? ⟨"openflow:1"⟩ .json 64 {} 0 = some _ := rfl
  obtain ⟨-, -, -, hsettled, -⟩ := none_stranded hopen hrun
  subst hrun
  refine ⟨rfl, ?_⟩
  exact (hsettled ⟨⟨1⟩, 0, some 30000, false⟩ (List.mem_singleton.mpr rfl) 30000 rfl).2 30000
    (Nat.le_refl _)

end Held

end Southbound.Connection
