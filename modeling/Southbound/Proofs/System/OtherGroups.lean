import Southbound.Proofs.System.GroupFirst

/-!
# Flows with several groups

A flow depends on the first of the groups that it hands packets to, and nothing is
done about the others.  If there are others, there is a run in which the flow is handed
over without one of them (`exists_handsOver_without`): nothing but its first group is
configured, that is added, and the flow follows.

So all groups of a flow are there whenever it is installed exactly if it hands packets
to no group but the first (`installed_with_groups_iff`).
-/

namespace Southbound.System

/-- Whenever a flow is handed over to be installed, all its groups are known to be on
the device, in every run. -/
def InstalledWithGroups (f : Flow) : Prop :=
  ∀ config s₀, System.new config = .ok s₀ → ∀ es, s₀.Unbroken [] es →
    ∀ d m, (s₀.go es).HandsOver d m → m.installed? = some f →
      ∀ g ∈ f.appliedGroups, (s₀.go es).pipeline.groups.contains d g = true

/-! ## One device and one job -/

namespace Scene

/-- The device. -/
def device : DeviceId := ⟨"openflow:1"⟩

/-- A connection to the device as it was opened. -/
def opened : Connection where
  registry := { device }
  codec := .single .ack
  capacity := ({} : Config).device.capacity.toNat

/-- Where the flow is configured. -/
def path (f : Flow) : FlowPath := ⟨device, f.table, ⟨"f"⟩⟩

/-- What the job of the flow does. -/
def program (f : Flow) : Program (Outcome Result) :=
  (Functor.map Result.flow (Operation.addFlow {} (path f) f)).run

/-- A store with one group. -/
def store (g : GroupId) : Store := Store.putGroup { groups := .empty } device { id := g }

/-- A system in which a flow is to be added, with what remains of the job. -/
def state (st : Store) (conn : Connection) (groups : GroupPresence)
    (rest : Program (Outcome Result)) : System where
  pipeline := {
    flows := { policy := ({} : Config).keys }
    attached := Table.set {} device 0
    lanes := ⟨[{ device, generation := 0, running := some ⟨0, .operate 0 rest⟩ }]⟩
    groups
    tickets := 1 }
  connections := [conn]
  store := st
  errands := [(0, .over (.ok .done)), (1, .job 0 false)]
  begun := 2

/-- The flow is asked for, and its job starts. -/
def start (g : GroupId) (f : Flow) : List Event :=
  [.putGroup device { id := g }, .openConnection device (.single .ack) 64, .attach 0,
    .submit (.addFlow (path f) f) false, .startJob 0]

/-- The group is added, and the device takes it. -/
def push : List Event :=
  [.stepJob 0, .stepJob 0, .stepJob 0, .receive 0 [], .stepJob 0, .stepJob 0]

variable {st st' : Store} {conn conn' : Connection} {groups groups' : GroupPresence} {e : Effect}

theorem submit_addFlow {p : Pipeline} (f : Flow) (hdown : p.shuttingDown = false)
    (hdevice : p.attached.get? device = some 0) :
    p.submit (.addFlow (path f) f) =
      (.ok p.tickets, (p.enqueue device (Request.work p.policy 0 (.addFlow (path f) f))).2) := by
  have hcheck : (Request.addFlow (path f) f).check = .ok () := by
    simp [Request.check, checkTableId, path, Except.mapError]
  have hchannel : p.channel (Request.addFlow (path f) f).device = .ok 0 := by
    simp only [Pipeline.channel, hdown, Request.device, path, hdevice]
    rfl
  rw [Pipeline.submit, hcheck]
  simp only [hchannel]
  rfl

/-- The job of the flow has started. -/
theorem go_start (g : GroupId) (f : Flow) {s₀ : System} (h : System.new {} = .ok s₀) :
    s₀.go (start g f) =
      state (store g) opened {} (program f) := by
  cases h
  rw [start, go_cons, go_cons, go_cons, go_cons]
  simp only [after, submit]
  rw [submit_addFlow f rfl rfl]
  rfl

/-- The job goes on by an effect. -/
theorem after_stepJob {a : e.Answer} {K : e.Answer → Program (Outcome Result)}
    (h : (state st conn groups (.step e K)).perform device 0 e =
      .answer a (state st' conn' groups' (.step e K))) :
    (state st conn groups (.step e K)).after (.stepJob 0) = state st' conn' groups' (K a) := by
  have hl : (state st conn groups (.step e K)).pipeline.lanes.get? 0 =
      some { device, generation := 0, running := some ⟨0, .operate 0 (.step e K)⟩ } := rfl
  rw [after, stepJob, hl]
  simp only [stepProgram, h]
  rfl

/-- The program that adds a flow whose group is configured, as far as the flow. -/
theorem program_pushes {f : Flow} {g : GroupId} (hf : f.groupDependency = some g) :
    ∃ K₁, program f = .step (.hasGroup g) K₁ ∧
      ∃ K₂, K₁ false = .step (.readGroup g) K₂ ∧ ∀ group,
      ∃ K₃, K₂ (.ok (some group)) = .step (.send (.groupMod ⟨.add, group⟩)) K₃ ∧ ∀ p,
      ∃ K₄, K₃ p = .step (.await p) K₄ ∧ ∀ m,
      ∃ K₅, K₄ (.ok m) = .step (.recordGroup group.id) K₅ ∧
      ∃ K₆, K₅ () = .step (.send (.flowMod (.add f))) K₆ := by
  rw [program, Operation.addFlow, Operation.ensureGroup]
  rw [hf]
  exact ⟨_, rfl, _, rfl, fun group => ⟨_, rfl, fun p => ⟨_, rfl, fun m => ⟨_, rfl, _, rfl⟩⟩⟩⟩

theorem readGroup?_store (g : GroupId) :
    (store g).readGroup? device g = some (.ok (some { id := g })) := by
  simp [store, Store.readGroup?, Store.putGroup, Store.group?]

/-- The group of the flow is added, and the flow is what is sent next. -/
theorem go_push {f : Flow} {g : GroupId} (hf : f.groupDependency = some g) :
    ∃ conn K, (state (store g) opened {} (program f)).go push =
      state (store g) conn (GroupPresence.store {} device g).2
        (.step (.send (.flowMod (.add f))) K) := by
  obtain ⟨K₁, hK₁, K₂, hK₂, h⟩ := program_pushes hf
  obtain ⟨K₃, hK₃, h⟩ := h { id := g }
  obtain ⟨K₄, hK₄, h⟩ := h ⟨0, .awaited ⟨1⟩ 0⟩
  obtain ⟨K₅, hK₅, K₆, hK₆⟩ := h .ack
  have hread := readGroup?_store g
  generalize store g = st at hread ⊢
  let sent := opened.after (.send 0 none (.groupMod ⟨.add, { id := g }⟩))
  have h₁ : (state st opened {} (.step (.hasGroup g) K₁)).after (.stepJob 0) =
      state st opened {} (K₁ false) := after_stepJob rfl
  have h₂ : (state st opened {} (.step (.readGroup g) K₂)).after (.stepJob 0) =
      state st opened {} (K₂ (.ok (some { id := g }))) := by
    refine after_stepJob ?_
    simp only [perform]
    rw [show (state st opened {} (.step (.readGroup g) K₂)).store = st from rfl, hread]
  have h₃ : (state st opened {} (.step (.send (.groupMod ⟨.add, { id := g }⟩)) K₃)).after
      (.stepJob 0) = state st sent {} (K₃ ⟨0, .awaited ⟨1⟩ 0⟩) := after_stepJob rfl
  have h₄ : (state st sent {} (K₃ ⟨0, .awaited ⟨1⟩ 0⟩)).after (.receive 0 []) =
      state st (sent.receive []) {} (K₃ ⟨0, .awaited ⟨1⟩ 0⟩) := rfl
  have h₅ : (state st (sent.receive []) {} (.step (.await ⟨0, .awaited ⟨1⟩ 0⟩) K₄)).after
      (.stepJob 0) = state st (sent.receive []) {} (K₄ (.ok .ack)) := after_stepJob rfl
  have h₆ : (state st (sent.receive []) {} (.step (.recordGroup g) K₅)).after (.stepJob 0) =
      state st (sent.receive []) (GroupPresence.store {} device g).2 (K₅ ()) := after_stepJob rfl
  refine ⟨sent.receive [], K₆, ?_⟩
  rw [hK₁, push, go_cons, h₁, hK₂, go_cons, h₂, hK₃, go_cons, h₃, go_cons, h₄, hK₄, go_cons, h₅,
    hK₅, go_cons, h₆, hK₆, go_nil]

end Scene

/-! ## All groups of a flow -/

/-- A flow is handed over when its first group is there, and no other. -/
theorem exists_handsOver_without {f : Flow} {g g' : GroupId} (hf : f.groupDependency = some g)
    (hne : g' ≠ g) :
    ∃ s₀ es d, System.new {} = .ok s₀ ∧ s₀.Unbroken [] es ∧
      (s₀.go es).HandsOver d (.flowMod (.add f)) ∧
      (s₀.go es).pipeline.groups.contains d g' = false := by
  obtain ⟨s₀, hs₀⟩ : ∃ s₀, System.new {} = .ok s₀ := ⟨_, rfl⟩
  obtain ⟨conn, K, hgo⟩ := Scene.go_push hf
  have hend : s₀.go (Scene.start g f ++ Scene.push) = Scene.state (Scene.store g) conn
      (GroupPresence.store {} Scene.device g).2 (.step (.send (.flowMod (.add f))) K) := by
    rw [go_append, Scene.go_start g f hs₀, hgo]
  refine ⟨s₀, Scene.start g f ++ Scene.push, Scene.device, hs₀, ?_, ?_, ?_⟩
  · refine unbroken_of_lane 0 ?_ (by simp)
    simp [Scene.start, Scene.push, Event.lane?]
  · rw [hend]
    exact ⟨0, _, 0, 0, K, rfl, rfl, rfl⟩
  · rw [hend]
    show [g].contains g' = false
    simpa using hne

/-- All groups of a flow are there whenever it is installed, in every run, exactly if it
hands packets to no group but the one that it depends on. -/
theorem installed_with_groups_iff (f : Flow) :
    InstalledWithGroups f ↔ ∀ g ∈ f.appliedGroups, f.groupDependency = some g := by
  constructor
  · intro h g' hg'
    obtain ⟨g, hf⟩ : ∃ g, f.groupDependency = some g := by
      rw [Flow.groupDependency]
      cases hgs : f.appliedGroups with
      | nil =>
          rw [hgs] at hg'
          cases hg'
      | cons g gs => exact ⟨g, rfl⟩
    by_contra hne
    have hne' : g' ≠ g := fun he => hne (he ▸ hf)
    obtain ⟨s₀, es, d, hnew, hes, hhands, habsent⟩ := exists_handsOver_without hf hne'
    have hthere := h {} s₀ hnew es hes d _ hhands rfl g' hg'
    rw [habsent] at hthere
    cases hthere
  · intro h config s₀ hnew es hes d m hm hf g hg
    obtain ⟨busy, hguarded⟩ := (guarded_new hnew).go (plain_new hnew) es hes
    exact hguarded.dependency_present hm hf (h g hg)

/-- A flow that hands packets to two groups. -/
def Scene.forking : Flow where
  table := ⟨0⟩
  instructions := [.applyActions [.group ⟨7⟩, .group ⟨8⟩]]

/-- A flow that hands packets to two groups may be installed without the second. -/
theorem not_installed_with_second_group : ¬ InstalledWithGroups Scene.forking := by
  intro h
  have hne : (⟨8⟩ : GroupId) ≠ ⟨7⟩ := by decide
  obtain ⟨s₀, es, d, hnew, hes, hhands, habsent⟩ :=
    exists_handsOver_without (f := Scene.forking) rfl hne
  have hthere := h {} s₀ hnew es hes d _ hhands rfl ⟨8⟩ (by decide)
  rw [habsent] at hthere
  cases hthere

end Southbound.System
