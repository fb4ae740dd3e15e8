import Southbound.Proofs.Connection.Inbound
import Southbound.Proofs.Connection.Sending

/-!
# Requests that time out

A request times out in a sweep and not otherwise, and a sweep settles what has waited long
enough and nothing else.  So no request times out before its time: the sweep is at or after
the moment when its message was sent and as long after it as such a reply is waited for.  This
does not depend on who holds the connection then (`Connection.Held.times_out_when_due`).

What is known of the request is kept for its slot and not for its transaction id, which may
have another request by then (`TransactionRegistry.WaitsUntil`).
-/

namespace Southbound

/-- A codec that refuses no message as timed out. -/
def Codec.Untimed (codec : Codec) : Prop :=
  ∀ e x, codec.write e ≠ .error (.timeout x)

theorem Codec.untimed_json : Codec.json.Untimed := by
  intro e x h
  simp only [Codec.json, reduceCtorEq] at h

/-! ## Registries -/

namespace TransactionRegistry

variable {r : TransactionRegistry} {slot : Slot} {x : Xid} {deadline : Instant}

/-- A request that waits in a slot has this transaction id, and waits until this moment. -/
def WaitsUntil (r : TransactionRegistry) (slot : Slot) (x : Xid) (deadline : Instant) : Prop :=
  ∀ p ∈ r.pending, p.slot = slot → p.xid = x ∧ p.deadline = some deadline

theorem WaitsUntil.perform (h : r.WaitsUntil slot x deadline) (hslot : slot < r.slots)
    (call : Call) : (r.perform call).2.WaitsUntil slot x deadline := by
  intro q hq hqslot
  rcases mem_pending_perform hq with ⟨p, hp, hbecomes⟩ | hcall
  · obtain ⟨hx, hdeadline⟩ := h p hp (hbecomes.slot.symm.trans hqslot)
    exact ⟨hbecomes.xid.trans hx, hbecomes.deadline.trans hdeadline⟩
  · rw [hcall, TransactionRegistry.perform, register] at hq
    split at hq
    · exact h q hq hqslot
    · cases List.mem_cons.mp hq with
      | inl hnew =>
          -- The slot of a new request comes after all that were opened.
          have hnext : q.slot = r.slots := by rw [hnew]
          exact absurd (hqslot.symm.trans hnext) (Nat.ne_of_lt hslot)
      | inr hold => exact h q hold hqslot

theorem slots_le_perform (r : TransactionRegistry) (call : Call) :
    r.slots ≤ (r.perform call).2.slots := by
  rw [slots_perform]
  exact Nat.le_add_right ..

theorem WaitsUntil.after (h : r.WaitsUntil slot x deadline) (hslot : slot < r.slots)
    (calls : List Call) : (r.after calls).WaitsUntil slot x deadline := by
  induction calls generalizing r with
  | nil => exact h
  | cons call calls ih =>
      exact ih (h.perform hslot call) (Nat.lt_of_lt_of_le hslot (r.slots_le_perform call))

end TransactionRegistry

/-- A result stays whatever is called. -/
theorem Reply.result?_after {r : TransactionRegistry} (hsound : r.Sound) {reply : Reply}
    {o : Outcome Message} (h : reply.result? r = some o) (calls : List TransactionRegistry.Call) :
    reply.result? (r.after calls) = some o := by
  cases reply with
  | awaited x slot => exact hsound.result?_after h calls
  | failed x cause => exact h

namespace Connection

/-! ## Events -/

section Events

variable {c : Connection} {slot : Slot} {x : Xid} {e : Event}

/-- A message that is refused has not timed out. -/
theorem untimed_of_whyRefused? {cause : Failure} (h : c.whyRefused? x = some cause) (y : Xid) :
    cause ≠ .timeout y := by
  rintro rfl
  rcases c.whyRefused?_cases x with
    ⟨-, hwhy⟩ | ⟨-, ⟨-, hwhy⟩ | ⟨-, ⟨-, hwhy⟩ | ⟨-, hwhy⟩⟩⟩ <;> cases h.symm.trans hwhy

theorem registry_sweep (c : Connection) (now : Instant) :
    (c.after (.sweep now)).registry = c.registry.sweep now ∨
      (c.after (.sweep now)).registry = c.registry := by
  simp only [Connection.after, sweep]
  split
  · exact .inr rfl
  · exact .inl rfl
  · exact .inl rfl

/-- A request that times out in an event does so in a sweep, under its own transaction id, and
it has waited long enough. -/
theorem due_of_timedOut (hsound : c.registry.Sound) (hcodec : c.codec.Untimed)
    (hslot : slot < c.registry.slots) (hnone : c.registry.result? slot = none)
    (hresult : (c.after e).registry.result? slot = some (.error (.timeout x))) :
    ∃ now, e = .sweep now ∧
      ∃ p ∈ c.registry.pending, p.slot = slot ∧ p.xid = x ∧ p.isDue now = true := by
  obtain ⟨calls, hcalls, -⟩ := registry_after c e
  have hsound' : (c.after e).registry.Sound := hcalls ▸ hsound.after calls
  have hmem := hsound'.result?_eq_some_iff.mp hresult
  rcases yields_after c e _ hmem with hold | hyields
  · cases hnone.symm.trans (hsound.result?_eq_some_iff.mpr hold)
  · generalize ho : (Except.error (.timeout x) : Outcome Message) = o at hyields
    cases hyields with
    | withdrawn reply => cases ho
    | @answered f envelope hread =>
        rcases replyOf_cases envelope.message with ⟨rejection, -, hreply⟩ | ⟨-, hreply⟩
        · cases ho.trans hreply
        · cases ho.trans hreply
    | full now y m => cases ho
    | stopped now y m => cases ho
    | unwritten hwrite =>
        cases ho
        exact absurd hwrite (hcodec _ _)
    | disconnected => cases ho
    | lost held => cases ho
    | overdue now y =>
        obtain ⟨p, hp, rfl⟩ := hsound.exists_pending hslot hnone
        refine ⟨now, rfl, p, hp, rfl, ?_⟩
        cases c.registry_sweep now with
        | inr hsame =>
            rw [hsame, hnone] at hresult
            cases hresult
        | inl hsweep =>
            rw [hsweep, hsound.result?_sweep hp] at hresult
            split at hresult
            · next hdue =>
                cases hresult
                exact ⟨rfl, hdue⟩
            · cases hresult

end Events

namespace Held

variable {h : Held} {u : Use} {config : Config}

/-! ## Runs -/

/-- Whatever is done with a connection, its registry changes by calls only. -/
theorem registry_after (h : Held) (u : Use) :
    ∃ calls, (h.after u).connection.registry = h.connection.registry.after calls := by
  rcases h.connection_after u with hsame | ⟨-, he⟩ | ⟨e, -, he⟩
  · exact ⟨[], by rw [hsame]; rfl⟩
  · exact ⟨[.allocate], by rw [he]; rfl⟩
  · obtain ⟨calls, hcalls, -⟩ := Connection.registry_after h.connection e
    exact ⟨calls, by rw [he, hcalls]⟩

theorem registry_go (h : Held) (us : List Use) :
    ∃ calls, (h.go us).connection.registry = h.connection.registry.after calls := by
  induction us generalizing h with
  | nil => exact ⟨[], rfl⟩
  | cons u us ih =>
      obtain ⟨first, hfirst⟩ := h.registry_after u
      obtain ⟨later, hlater⟩ := ih (h.after u)
      refine ⟨first ++ later, ?_⟩
      rw [go_cons, hlater, hfirst, TransactionRegistry.after_append]

/-- A sweep of some uses in which the request of a reply times out, when it has waited until a
moment. -/
structure TimesOut (h : Held) (reply : Reply) (deadline : Instant) (before : List Use)
    (now : Instant) : Prop where
  due : deadline ≤ now
  waited : reply.result? (h.go before).connection.registry = none
  timedOut : reply.result? ((h.go before).after (.sweep now)).connection.registry =
    some (.error (.timeout reply.xid))

/-- A request that times out in a use does so in a sweep, at or after its deadline. -/
theorem timesOut_after {slot : Slot} {x y : Xid} {deadline : Instant}
    (hsound : h.connection.registry.Sound) (hcodec : h.connection.codec.Untimed)
    (hwaits : h.connection.registry.WaitsUntil slot x deadline)
    (hslot : slot < h.connection.registry.slots)
    (hnone : h.connection.registry.result? slot = none)
    (hresult : (h.after u).connection.registry.result? slot = some (.error (.timeout y))) :
    y = x ∧ ∃ now, u = .sweep now ∧ h.TimesOut (.awaited x slot) deadline [] now := by
  rcases h.connection_after u with hsame | ⟨-, he⟩ | ⟨e, hevent, he⟩
  · rw [hsame, hnone] at hresult
    cases hresult
  · have hsame : h.connection.allocate.2.registry.settled = h.connection.registry.settled :=
      TransactionRegistry.settled_allocate _
    rw [he, TransactionRegistry.result?, hsame, ← TransactionRegistry.result?, hnone] at hresult
    cases hresult
  · have hafter := hresult
    rw [he] at hresult
    obtain ⟨now, rfl, p, hp, hpslot, hpxid, hdue⟩ :=
      due_of_timedOut hsound hcodec hslot hnone hresult
    obtain ⟨hx, hdeadline⟩ := hwaits p hp hpslot
    obtain rfl : u = .sweep now := by
      cases u with
      | sweep t =>
          cases hevent
          rfl
      | _ => simp [event?] at hevent
    obtain rfl : y = x := hpxid.symm.trans hx
    refine ⟨rfl, now, rfl, ?_, hnone, hafter⟩
    simpa [Pending.isDue, hdeadline] using hdue

/-- A request that has timed out after some uses did so in one of them. -/
theorem exists_timesOut {slot : Slot} {x y : Xid} {deadline : Instant} {us : List Use}
    (hsound : h.connection.registry.Sound) (hcodec : h.connection.codec.Untimed)
    (hwaits : h.connection.registry.WaitsUntil slot x deadline)
    (hslot : slot < h.connection.registry.slots)
    (hnone : h.connection.registry.result? slot = none)
    (hresult : (h.go us).connection.registry.result? slot = some (.error (.timeout y))) :
    y = x ∧ ∃ before now later, us = before ++ .sweep now :: later ∧
      h.TimesOut (.awaited x slot) deadline before now := by
  induction us generalizing h with
  | nil => cases hnone.symm.trans hresult
  | cons u us ih =>
      obtain ⟨calls, hcalls⟩ := h.registry_after u
      have hsound' : (h.after u).connection.registry.Sound := hcalls ▸ hsound.after calls
      cases hnow : (h.after u).connection.registry.result? slot with
      | some o =>
          -- The result stays, so it is the one that is there in the end.
          obtain ⟨rest, hrest⟩ := (h.after u).registry_go us
          rw [go_cons, hrest, hsound'.result?_after hnow] at hresult
          cases hresult
          obtain ⟨hy, now, hu, htimesOut⟩ :=
            timesOut_after hsound hcodec hwaits hslot hnone hnow
          exact ⟨hy, [], now, us, by rw [hu]; rfl, htimesOut⟩
      | none =>
          have hcodec' : (h.after u).connection.codec = h.connection.codec :=
            (same_go (h := h) [u]).codec
          have hslot' : slot < (h.after u).connection.registry.slots := by
            rw [hcalls, TransactionRegistry.slots_after]
            exact Nat.lt_of_lt_of_le hslot (Nat.le_add_right ..)
          obtain ⟨hy, before, now, later, hus, hdue, hwaited, htimedOut⟩ :=
            ih hsound' (hcodec' ▸ hcodec) (hcalls ▸ hwaits.after hslot calls) hslot' hnow hresult
          exact ⟨hy, u :: before, now, later, by rw [hus]; rfl, hdue, hwaited, htimedOut⟩

/-- The request of a message that was sent times out in a sweep, at or after its deadline. -/
theorem Ready.timesOut (hr : Ready config h) (hheld : h.isHeld = true)
    (hcodec : h.connection.codec.Untimed) {t : Instant} {x y : Xid} {m : Message}
    {us : List Use}
    (hresult : (h.connection.send t x m).1.result? (h.go (.send t x m :: us)).connection.registry =
      some (.error (.timeout y))) :
    y = x ∧ ∃ before now later, us = before ++ .sweep now :: later ∧
      (h.after (.send t x m)).TimesOut (h.connection.send t x m).1
        (t + config.deadlines.waitFor m) before now := by
  have hafter : (h.after (.send t x m)).connection = (h.connection.send t x m).2 :=
    connection_after_send hheld t x m
  have hready := hr.after (.send t x m)
  obtain ⟨hqueues, hrefuses⟩ := hr.send hheld t x m
  cases hwhy : h.connection.whyRefused? x with
  | some cause =>
      -- The result is known from the start, and it is another one.
      obtain ⟨hknown, -⟩ := hrefuses cause hwhy
      obtain ⟨calls, hcalls⟩ := (h.after (.send t x m)).registry_go us
      rw [← hafter] at hknown
      rw [go_cons, hcalls, Reply.result?_after hready.sound hknown] at hresult
      cases hresult
      exact absurd rfl (untimed_of_whyRefused? hwhy y)
  | none =>
      obtain ⟨hreply, hunsettled, hregistered⟩ := hqueues hwhy
      rw [hreply] at hresult hunsettled ⊢
      rw [← hafter] at hunsettled hregistered
      have hslots : (h.after (.send t x m)).connection.registry.slots =
          h.connection.registry.slots + 1 := by rw [hregistered]
      refine exists_timesOut hready.sound ?_ ?_ ?_ hunsettled hresult
      · have hsame : (h.after (.send t x m)).connection.codec = h.connection.codec :=
          (same_go (h := h) [.send t x m]).codec
        exact hsame ▸ hcodec
      · intro p hp hslot
        rw [hregistered] at hp
        cases List.mem_cons.mp hp with
        | inl hnew => exact hnew ▸ ⟨rfl, rfl⟩
        | inr hold =>
            -- The slots of the other requests were opened before.
            have hopened : p.slot < h.connection.registry.slots :=
              List.mem_range.mp (hr.sound.slots.mem_iff.mp
                (List.mem_append_left _ (List.mem_map_of_mem hold)))
            exact absurd hslot (Nat.ne_of_lt hopened)
      · rw [hslots]
        exact Nat.lt_succ_self _

/-- A sweep settles the requests whose deadline is at or before its time, each under its own
transaction id, and leaves the others as they are.  In every run of a connection the request
of a message times out in a sweep, no earlier than the reply to such a message is waited
for, whoever holds the connection then. -/
theorem times_out_when_due :
    (∀ (r : TransactionRegistry) (now : Instant), r.Sound → r.Swept now (r.sweep now)) ∧
    ∀ {device codec wireCapacity config start c},
      open? device codec wireCapacity config start = some c → codec.Untimed →
      ∀ us t x m later h, (⟨c, 1⟩ : Held).go us = h → h.isHeld = true → ∀ y,
        (h.connection.send t x m).1.result? (h.go (.send t x m :: later)).connection.registry =
          some (.error (.timeout y)) →
        y = x ∧ ∃ before now rest, later = before ++ .sweep now :: rest ∧
          (h.after (.send t x m)).TimesOut (h.connection.send t x m).1
            (t + config.deadlines.waitFor m) before now := by
  refine ⟨fun r now hsound => hsound.swept now, ?_⟩
  intro device codec wireCapacity config start c hopen hcodec us t x m later h hrun hheld y hresult
  have hready : Ready config h := by
    subst hrun
    exact inv_go (Ready config) (fun _ u hr => hr.after u) (.of_open hopen) us
  have hsame : h.connection.codec = codec := by
    subst hrun
    rw [(same_go us).codec, eq_of_open hopen]
  exact hready.timesOut hheld (hsame ▸ hcodec) hresult

/-! ## A request that nobody is left to hold -/

namespace Orphaned

/-- Three requests: one that has waited long enough at this very moment, one that has not yet,
and one that never has. -/
def registry : TransactionRegistry where
  device := ⟨"openflow:1"⟩
  pending := [⟨⟨3⟩, 2, none, true⟩, ⟨⟨2⟩, 1, some 11, false⟩, ⟨⟨1⟩, 0, some 10, true⟩]
  slots := 3

theorem sound_registry : registry.Sound := ⟨by decide, by decide⟩

/-- A connection as it is opened. -/
def fresh : Connection where
  registry := { device := ⟨"openflow:1"⟩ }
  capacity := 1024
  wire := { capacity := 64 }

/-- Whoever has sent a message lets go of the connection, which sweeps before the deadline of
the message and after it. -/
def later : List Use := [.release, .sweeper, .writer, .sweep 30000, .sweep 30250]

end Orphaned

theorem times_out_when_due_of_release :
    Orphaned.registry.Sound ∧
      (Orphaned.registry.sweep 10).result? 0 = some (.error (.timeout ⟨1⟩)) ∧
      (Orphaned.registry.sweep 10).pending =
        [⟨⟨3⟩, 2, none, true⟩, ⟨⟨2⟩, 1, some 11, false⟩] ∧
      open? ⟨"openflow:1"⟩ .json 64 {} 0 = some Orphaned.fresh ∧ Codec.json.Untimed ∧
      (Orphaned.fresh.send 100 ⟨1⟩ .barrierRequest).1.result?
        ((⟨Orphaned.fresh, 1⟩ : Held).go
          (.send 100 ⟨1⟩ .barrierRequest :: Orphaned.later)).connection.registry =
        some (.error (.timeout ⟨1⟩)) ∧
      ∃ before now rest, Orphaned.later = before ++ .sweep now :: rest ∧
        ((⟨Orphaned.fresh, 1⟩ : Held).after (.send 100 ⟨1⟩ .barrierRequest)).TimesOut
          (Orphaned.fresh.send 100 ⟨1⟩ .barrierRequest).1 30100 before now := by
  have hopen : open? ⟨"openflow:1"⟩ .json 64 {} 0 = some Orphaned.fresh := rfl
  obtain ⟨hsweep, hrun⟩ := times_out_when_due
  have hswept := hsweep Orphaned.registry 10 Orphaned.sound_registry
  have hresult : (Orphaned.fresh.send 100 ⟨1⟩ .barrierRequest).1.result?
      ((⟨Orphaned.fresh, 1⟩ : Held).go
        (.send 100 ⟨1⟩ .barrierRequest :: Orphaned.later)).connection.registry =
      some (.error (.timeout ⟨1⟩)) := rfl
  have hlast : ⟨⟨1⟩, 0, some 10, true⟩ ∈ Orphaned.registry.pending := .tail _ (.tail _ (.head _))
  refine ⟨Orphaned.sound_registry, hswept.timedOut _ hlast rfl, hswept.waiting, hopen,
    Codec.untimed_json, hresult, ?_⟩
  exact (hrun hopen Codec.untimed_json [] 100 ⟨1⟩ .barrierRequest Orphaned.later _ rfl rfl _
    hresult).2

end Held

end Connection

end Southbound
