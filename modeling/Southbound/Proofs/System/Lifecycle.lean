import Southbound.Proofs.System.Closing

/-!
# Devices come and go

What an event does to the devices that are attached (`System.lifecycle_after`): one is
attached, one is detached, or all stay as they are.  When a device is detached, or
attached over another connection, the connection that it had is closed.

So the connection of a device stays so or is closed (`System.attached_or_closed`), and a
device is attached over no connection that it was not attached over before, unless that is
just attached (`System.attached_before`).  A pipeline that refuses requests goes on to do so
(`System.shuttingDown_after`).
-/

namespace Southbound.System

variable {s s' : System} {c : ConnectionId} {d : DeviceId} {e : Event} {t : Ticket}

/-! ## Detaching -/

/-- A device that is detached had a connection, which is ended. -/
theorem detach?_eq (h : s.detach? d = some (t, s')) :
    ∃ c, s.pipeline.attached.get? d = some c ∧ t = s.pipeline.tickets ∧
      s' = { s with
        pipeline := s.pipeline.detached d
        connections := s.connections.modify c Connection.disconnect } := by
  rw [detach?] at h
  obtain ⟨c, hc, he⟩ := Option.map_eq_some_iff.mp h
  cases he
  exact ⟨c, hc, rfl, rfl⟩

/-- Of some devices, the first that is attached is detached, or none is attached. -/
theorem detachNext_split (s : System) (ds : List DeviceId) :
    (s.detachNext ds = (.over (.ok .done), s) ∧ ∀ d ∈ ds, s.pipeline.attached.get? d = none) ∨
      ∃ pre d rest t s', ds = pre ++ d :: rest ∧ (∀ d' ∈ pre, s.pipeline.attached.get? d' = none) ∧
        s.detach? d = some (t, s') ∧ s.detachNext ds = (.shutdown t rest, s') := by
  induction ds with
  | nil => exact .inl ⟨rfl, List.forall_mem_nil _⟩
  | cons d ds ih =>
      rw [detachNext]
      cases hd : s.detach? d with
      | some r => exact .inr ⟨[], d, ds, r.1, r.2, rfl, List.forall_mem_nil _, hd, rfl⟩
      | none =>
          have hnone : s.pipeline.attached.get? d = none := by simpa [detach?] using hd
          rcases ih with ⟨he, hall⟩ | ⟨pre, d', rest, t, s', rfl, hpre, hd', he⟩
          · exact .inl ⟨he, List.forall_mem_cons.mpr ⟨hnone, hall⟩⟩
          · exact .inr ⟨d :: pre, d', rest, t, s', rfl, List.forall_mem_cons.mpr ⟨hnone, hpre⟩,
              hd', he⟩

/-! ## Events -/

/-- Whether an event may attach or detach a device, or make the pipeline refuse
requests. -/
def Event.administers : Event → Bool
  | attach _ => true
  | detach _ => true
  | shutdown => true
  | stepErrand _ => true
  | _ => false

/-- All other events leave the devices as they are. -/
theorem attached_after_of_not_administers (hplain : s.Plain) (he : e.administers = false) :
    (s.after e).pipeline.attached = s.pipeline.attached ∧
      (s.after e).pipeline.shuttingDown = s.pipeline.shuttingDown := by
  have hsame {p : Pipeline} (hp : p = s.pipeline) :
      p.attached = s.pipeline.attached ∧ p.shuttingDown = s.pipeline.shuttingDown := by
    rw [hp]
    exact ⟨rfl, rfl⟩
  cases e with
  | openConnection d codec wireCapacity =>
      simp only [after]
      split <;> exact ⟨rfl, rfl⟩
  | send c x m =>
      simp only [after, beginSend?]
      cases hsend : s.send c x m with
      | none => exact ⟨rfl, rfl⟩
      | some r => exact hsame (send_transported hsend).pipeline
  | barrier c =>
      exact hsame
        (beginProgram_transported c (Operation.follows_barrier transport_patient) hplain).1
  | compose c ns barrierAfter =>
      simp only [after, beginBatch?]
      cases hps : s.takePromises? ns with
      | none => exact ⟨rfl, rfl⟩
      | some r =>
          obtain ⟨hr, hrplain⟩ := takePromises?_cases hps
          have hpipeline : r.2.pipeline = s.pipeline := by rw [hr]
          refine hsame (Eq.trans ?_ hpipeline)
          cases barrierAfter with
          | none =>
              exact (beginProgram_transported c
                (Operation.follows_settleBatch transport_patient r.1 none) (hrplain hplain)).1
          | some b =>
              exact (beginProgram_transported c
                (Operation.follows_composeWithBarrier transport_patient r.1 b) (hrplain hplain)).1
  | cancel n =>
      simp only [after, cancel?]
      cases s.errand? n with
      | none => exact ⟨rfl, rfl⟩
      | some e =>
          cases e with
          | reply p =>
              simp only [Option.map_some, Option.getD_some, withdraw]
              split <;> exact ⟨rfl, rfl⟩
          | _ => exact ⟨rfl, rfl⟩
  | submit r quiet =>
      simp only [after, submit]
      split
      · exact ⟨rfl, rfl⟩
      · next hsubmit =>
          obtain ⟨c, -, -, -, hp⟩ := submit_ok hsubmit
          rw [hp]
          exact ⟨rfl, rfl⟩
  | noteStale flow =>
      simp only [after, noteStale]
      split <;> exact ⟨rfl, rfl⟩
  | stepJob l =>
      have hstep := jobStep_stepJob s l
      show (s.stepJob l).pipeline.attached = _ ∧ (s.stepJob l).pipeline.shuttingDown = _
      generalize s.stepJob l = s' at hstep ⊢
      cases hstep with
      | answer _ _ hperform =>
          have heff := perform_effects hperform
          exact ⟨heff.attached, heff.shuttingDown⟩
      | _ => exact ⟨rfl, rfl⟩
  | attach c => cases he
  | detach d => cases he
  | shutdown => cases he
  | stepErrand n => cases he
  | _ => exact ⟨rfl, rfl⟩

/-- An errand that goes on leaves the pipeline as it is, or it attaches a connection, or a
device was detached and the next one is. -/
theorem stepErrand_cases (hplain : s.Plain) (n : ErrandId) :
    (s.stepErrand n).pipeline = s.pipeline ∨
      (∃ c, s.errand? n = some (.attach c)) ∨
      ∃ t rest, s.errand? n = some (.shutdown t rest) ∧ (s.jobResult? t).isSome ∧
        s.stepErrand n = (s.detachNext rest).2.setErrand n (s.detachNext rest).1 := by
  rw [stepErrand]
  cases hn : s.errand? n with
  | none => exact .inl rfl
  | some errand =>
      rw [Option.bind_some]
      cases errand with
      | «over» result => exact .inl rfl
      | reply p => exact .inl rfl
      | attach c => exact .inr (.inl ⟨c, rfl⟩)
      | job t quiet =>
          simp only [advanceErrand?]
          cases s.jobResult? t <;> exact .inl rfl
      | detach t =>
          simp only [advanceErrand?]
          cases s.jobResult? t <;> exact .inl rfl
      | shutdown t rest =>
          simp only [advanceErrand?]
          cases ht : s.jobResult? t with
          | none => exact .inl rfl
          | some result => exact .inr (.inr ⟨t, rest, rfl, by rw [ht]; rfl, rfl⟩)
      | program c rest =>
          simp only [advanceErrand?]
          split
          · next hsome =>
              split at hsome
              · cases hsome
                exact .inl (stepProgram_transported (hplain.errand? hn)).1.pipeline
              · cases hsome
          · exact .inl rfl

/-- All that an event can do to the devices that are attached. -/
inductive Lifecycle (s : System) (e : Event) (s' : System) : Prop where
  | kept : s'.pipeline.attached = s.pipeline.attached → Lifecycle s e s'
  /-- A device is attached, and the connection that it had is closed. -/
  | attached (c : ConnectionId) (d : DeviceId) :
      s.attaching? e = some c → s.deviceOf? c = some d →
      s'.pipeline.attached = s.pipeline.attached.set d c →
      (∀ c', s.pipeline.attached.get? d = some c' → s'.Closed c') → Lifecycle s e s'
  | detached (d : DeviceId) (c : ConnectionId) :
      s.pipeline.attached.get? d = some c →
      s'.pipeline.attached = s.pipeline.attached.erase d → s'.Closed c → Lifecycle s e s'

/-- A connection that is disconnected is closed. -/
theorem closed_of_modify (hc : (s.deviceOf? c).isSome)
    (hs' : s'.connections = s.connections.modify c Connection.disconnect) : s'.Closed c := by
  obtain ⟨conn, hconn⟩ := Option.isSome_iff_exists.mp (Option.isSome_map.symm.trans hc)
  refine ⟨conn.disconnect, ?_, conn.connected_disconnect⟩
  rw [hs', List.getElem?_modify_eq, hconn]
  rfl

/-- A device is detached. -/
theorem lifecycle_detach? (hwired : s.Wired) {b : Bool} {s₁ : System}
    (h : detach? { s with pipeline.shuttingDown := b } d = some (t, s₁))
    (hp : s'.pipeline = s₁.pipeline) (hc : s'.connections = s₁.connections) :
    Lifecycle s e s' := by
  obtain ⟨c, hattached, -, he⟩ := detach?_eq h
  have hdevice : (s.deviceOf? c).isSome := by
    rw [hwired.attached d c hattached]
    rfl
  exact .detached d c hattached (by rw [hp, he]; rfl) (closed_of_modify hdevice (by rw [hc, he]))

/-- A connection takes its place. -/
theorem lifecycle_insert (hwired : s.Wired) (he : s.attaching? e = some c)
    (hp : s'.pipeline = (s.insert c).pipeline)
    (hc : s'.connections = (s.insert c).connections) : Lifecycle s e s' := by
  cases hd : s.deviceOf? c with
  | none => exact .kept (by rw [hp, insert_of_none hd])
  | some d =>
      rw [insert_eq hd] at hp hc
      refine .attached c d he hd (by rw [hp]) fun c' hc' => ?_
      have hdevice : (s.deviceOf? c').isSome := by
        rw [hwired.attached d c' hc']
        rfl
      exact closed_of_modify hdevice (by rw [hc, hc'])

theorem lifecycle_after (hplain : s.Plain) (hwired : s.Wired) (e : Event) :
    Lifecycle s e (s.after e) := by
  cases he : e.administers with
  | false => exact .kept (attached_after_of_not_administers hplain he).1
  | true =>
      cases e with
      | attach c =>
          rw [after_attach]
          split
          · exact .kept rfl
          · next hruns => exact lifecycle_insert hwired (if_neg hruns) rfl rfl
      | detach d =>
          simp only [after, beginDetach]
          split
          · next t s' hd => exact lifecycle_detach? hwired hd rfl rfl
          · exact .kept rfl
      | shutdown =>
          simp only [after, beginShutdown]
          split
          · exact .kept rfl
          · rcases detachNext_split { s with pipeline.shuttingDown := true } s.pipeline.devices with
              ⟨hd, -⟩ | ⟨-, d, rest, t, s', -, -, hd, hnext⟩
            · rw [hd]
              exact .kept rfl
            · rw [hnext]
              exact lifecycle_detach? hwired hd rfl rfl
      | stepErrand n =>
          show Lifecycle s _ (s.stepErrand n)
          rcases stepErrand_cases hplain n with hp | ⟨c, hn⟩ | ⟨t, rest, -, -, hnext⟩
          · exact .kept (congrArg Pipeline.attached hp)
          · rw [stepErrand_attach hn]
            exact lifecycle_insert hwired (by rw [attaching?, hn]) rfl rfl
          · rw [hnext]
            rcases s.detachNext_split rest with ⟨hd, -⟩ | ⟨-, d, rest', t', s', -, -, hd, hd'⟩
            · rw [hd]
              exact .kept rfl
            · rw [hd']
              exact lifecycle_detach? hwired hd rfl rfl
      | _ => cases he

/-- The connection of a device stays so or is closed. -/
theorem attached_or_closed (hplain : s.Plain) (hwired : s.Wired) (e : Event)
    (hc : s.pipeline.attached.get? d = some c) :
    (s.after e).pipeline.attached.get? d = some c ∨ (s.after e).Closed c := by
  cases lifecycle_after hplain hwired e with
  | kept hsame => exact .inl (by rw [hsame, hc])
  | attached c' d' _ _ hset hclosed =>
      by_cases hd : d = d'
      · subst hd
        exact .inr (hclosed c hc)
      · exact .inl (by rw [hset, Table.get?_set_of_ne hd, hc])
  | detached d' c' hc' herase hclosed =>
      by_cases hd : d = d'
      · subst hd
        cases hc.symm.trans hc'
        exact .inr hclosed
      · exact .inl (by rw [herase, Table.get?_erase_of_ne hd, hc])

/-- A device that is attached over a connection was so before, or was just attached over it. -/
theorem attached_before (hplain : s.Plain) (hwired : s.Wired)
    (h : (s.after e).pipeline.attached.get? d = some c) :
    s.pipeline.attached.get? d = some c ∨ s.attaching? e = some c := by
  cases lifecycle_after hplain hwired e with
  | kept hsame => exact .inl (hsame ▸ h)
  | attached c' d' hattaching _ hset _ =>
      rw [hset] at h
      by_cases hd : d = d'
      · subst hd
        rw [Table.get?_set_self] at h
        exact .inr (hattaching.trans h)
      · exact .inl (by rwa [Table.get?_set_of_ne hd] at h)
  | detached d' c' _ herase _ =>
      rw [herase] at h
      by_cases hd : d = d'
      · rw [hd, Table.get?_erase_self] at h
        cases h
      · exact .inl (by rwa [Table.get?_erase_of_ne hd] at h)

/-! ## Refusing requests -/

/-- A device that is attached was so before others were detached, and requests are accepted
or refused as before. -/
theorem detachNext_keeps (s : System) (ds : List DeviceId) :
    (s.detachNext ds).2.pipeline.shuttingDown = s.pipeline.shuttingDown ∧
      ∀ d, ((s.detachNext ds).2.pipeline.attached.get? d).isSome →
        (s.pipeline.attached.get? d).isSome := by
  rcases s.detachNext_split ds with ⟨hd, -⟩ | ⟨-, d, rest, t, s', -, -, hd, hnext⟩
  · rw [hd]
    exact ⟨rfl, fun _ => id⟩
  · obtain ⟨c, -, -, rfl⟩ := detach?_eq hd
    rw [hnext]
    refine ⟨rfl, fun d' hd' => ?_⟩
    replace hd' : ((s.pipeline.attached.erase d).get? d').isSome := hd'
    by_cases hne : d' = d
    · rw [hne, Table.get?_erase_self] at hd'
      cases hd'
    · rw [Table.get?_erase_of_ne hne] at hd'
      exact hd'

theorem shuttingDown_insert (s : System) (c : ConnectionId) :
    (s.insert c).pipeline.shuttingDown = s.pipeline.shuttingDown := by
  rcases s.insert_cases c with ⟨-, hsame⟩ | ⟨d, -, hp, -⟩
  · rw [hsame]
  · rw [hp]

/-- Only a shutdown makes the pipeline refuse requests. -/
theorem shuttingDown_after_of_ne (hplain : s.Plain) (he : e ≠ .shutdown) :
    (s.after e).pipeline.shuttingDown = s.pipeline.shuttingDown := by
  cases hadm : e.administers with
  | false => exact (attached_after_of_not_administers hplain hadm).2
  | true =>
      cases e with
      | attach c =>
          rw [after_attach]
          split
          · rfl
          · exact s.shuttingDown_insert c
      | detach d =>
          simp only [after, beginDetach]
          split
          · next hd =>
              obtain ⟨c, -, -, rfl⟩ := detach?_eq hd
              rfl
          · rfl
      | shutdown => exact absurd rfl he
      | stepErrand n =>
          show (s.stepErrand n).pipeline.shuttingDown = _
          rcases stepErrand_cases hplain n with hp | ⟨c, hn⟩ | ⟨t, rest, -, -, hnext⟩
          · rw [hp]
          · rw [stepErrand_attach hn]
            exact s.shuttingDown_insert c
          · rw [hnext]
            exact (s.detachNext_keeps rest).1
      | _ => cases hadm

end Southbound.System
