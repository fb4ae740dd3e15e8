import Mathlib.Data.List.Basic
import Southbound.Proofs.Registry.Calls
import Southbound.Proofs.Registry.FlowRegistry

/-!
# Ids that are given out

A flow that is seen without an id is given one, if nothing is known of it.
`FlowRegistry.mints` lists what was given out in the course of calls.

The text of an id can be read back (`alienFlowId_inj`): its numbers have digits only, so
the last star of the text stands between them.  And as long as a device is not cleared,
what it is given carries one number after the other (`FlowRegistry.given_of_kept`).  So
no id is given out twice before the count has gone round
(`FlowRegistry.alien_ids_are_not_reused`).
-/

namespace Southbound

/-! ## The texts of ids -/

theorem toDigits_injective : Function.Injective (Nat.toDigits 10) := by
  intro n n' h
  have hread := congrArg (fun ds => Nat.ofDigitChars 10 ds 0) h
  simpa using hread

theorem star_notMem_toDigits (n : Nat) : '*' ∉ Nat.toDigits 10 n := by
  intro h
  exact absurd (Nat.isDigit_of_mem_toDigits (by decide) (by decide) h) (by decide)

theorem toList_alienFlowId (t : TableId) (n : Nat) :
    (alienFlowId t n).text.toList =
      "#UF$TABLE*".toList ++ (Nat.toDigits 10 t.val.toNat ++ '*' :: Nat.toDigits 10 n) := by
  simp [alienFlowId, TableId.display]

/-- The id of a flow tells its table and its number. -/
theorem alienFlowId_inj {t t' : TableId} {n n' : Nat} :
    alienFlowId t n = alienFlowId t' n' ↔ t = t' ∧ n = n' := by
  constructor
  · intro h
    have hlist := congrArg (fun id : FlowId => id.text.toList) h
    simp only [toList_alienFlowId, List.append_cancel_left_eq] at hlist
    obtain ⟨htable, -, hnumber⟩ := (List.append_cons_inj_of_notMem
      (star_notMem_toDigits t.val.toNat) (star_notMem_toDigits n)).mp hlist
    refine ⟨?_, toDigits_injective hnumber⟩
    exact congrArg TableId.mk (UInt8.toNat_inj.mp (toDigits_injective htable))
  · rintro ⟨rfl, rfl⟩
    rfl

namespace FlowRegistry

/-! ## What is given out -/

/-- A flow that was seen on a device without an id, and what it was given. -/
structure Mint where
  device : DeviceId
  flow : Flow
  given : FlowDescriptor
deriving DecidableEq, Repr

/-- What a call gives out. -/
def mint? (r : FlowRegistry) : Call → Option Mint
  | .observe d f =>
    if r.retrieve d f = none ∧ f.id = none then some ⟨d, f, (r.observe d f).1⟩ else none
  | _ => none

/-- What calls give out, in order. -/
def mints : FlowRegistry → List Call → List Mint
  | _, [] => []
  | r, c :: calls => (r.mint? c).toList ++ mints (r.perform c).2 calls

/-- What calls give out for one device. -/
def mintsOf (d : DeviceId) (r : FlowRegistry) (calls : List Call) : List Mint :=
  (r.mints calls).filter (·.device = d)

theorem mints_append (r : FlowRegistry) (calls calls' : List Call) :
    r.mints (calls ++ calls') = r.mints calls ++ (Calls.after perform r calls).mints calls' := by
  induction calls generalizing r with
  | nil => rfl
  | cons c calls ih =>
      rw [List.cons_append, mints, mints, ih, List.append_assoc]
      rfl

variable {r : FlowRegistry} {d d' : DeviceId} {f f' : Flow}

/-- An id is given out to a flow without one of which nothing is known. -/
theorem mint?_eq_some {c : Call} {m : Mint} (h : r.mint? c = some m) :
    ∃ d f, m = ⟨d, f, r.alien d f⟩ := by
  cases c with
  | observe d f =>
      rw [mint?] at h
      split at h
      · next hnew =>
          obtain ⟨hknown, hid⟩ := hnew
          rw [(observe_alien hknown hid).1] at h
          exact ⟨d, f, (Option.some.inj h).symm⟩
      · cases h
  | _ => cases h

/-! ## The count of a device -/

theorem minted_store (r : FlowRegistry) (d d' : DeviceId) (f : Flow) (x : FlowDescriptor) :
    ((r.store d' f x).device d).minted = (r.device d).minted := by
  by_cases h : d = d'
  · subst h
    rw [device_store_self]
  · rw [device_store_of_ne h]

theorem minted_remove (r : FlowRegistry) (d d' : DeviceId) (f : Flow) :
    ((r.remove d' f).2.device d).minted = (r.device d).minted := by
  by_cases h : d = d'
  · subst h
    rw [device_remove_self]
  · rw [device_remove_of_ne h]

/-- A call that does not clear a device gives out nothing for it and leaves its count, or
gives out one id and counts it. -/
theorem mint_or_same {c : Call} (hc : c ≠ .clearDevice d) :
    ((r.mint? c).toList.filter (·.device = d) = [] ∧
        ((r.perform c).2.device d).minted = (r.device d).minted) ∨
      ∃ f, (r.mint? c).toList.filter (·.device = d) = [⟨d, f, r.alien d f⟩] ∧
        ((r.perform c).2.device d).minted = (r.device d).minted + 1 := by
  cases c with
  | store d' f x => exact .inl ⟨rfl, minted_store r d d' f x⟩
  | retrieve d' f => exact .inl ⟨rfl, rfl⟩
  | remove d' f => exact .inl ⟨rfl, minted_remove r d d' f⟩
  | count d' => exact .inl ⟨rfl, rfl⟩
  | clearDevice d' =>
      have hd : d ≠ d' := fun h => hc (congrArg Call.clearDevice h.symm)
      exact .inl ⟨rfl, congrArg DeviceFlows.minted (device_clearDevice_of_ne hd r)⟩
  | observe d' f =>
      rw [mint?, perform]
      cases hknown : r.retrieve d' f with
      | some x =>
          rw [observe_known hknown]
          exact .inl ⟨rfl, rfl⟩
      | none =>
          cases hid : f.id with
          | some id =>
              rw [observe_named hknown hid]
              exact .inl ⟨rfl, minted_store r d d' f _⟩
          | none =>
              obtain ⟨hgiven, hdevice⟩ := observe_alien hknown hid
              rw [if_pos ⟨rfl, rfl⟩, hgiven]
              by_cases hd : d' = d
              · subst hd
                refine .inr ⟨f, ?_, ?_⟩
                · simp
                · rw [hdevice]
              · refine .inl ⟨?_, ?_⟩
                · simp [hd]
                · rw [device_observe_of_ne (Ne.symm hd)]

/-- As long as a device is not cleared, what it is given carries one number after the
other. -/
theorem given_of_kept {calls : List Call} (hkept : .clearDevice d ∉ calls) :
    (mintsOf d r calls).map (·.given) = (mintsOf d r calls).mapIdx fun i m =>
      ⟨m.flow.table, alienFlowId m.flow.table ((r.device d).minted + UInt64.ofNat i).toNat⟩ := by
  induction calls generalizing r with
  | nil => rfl
  | cons c calls ih =>
      obtain ⟨hc, hcalls⟩ := not_or.mp (mt List.mem_cons.mpr hkept)
      have hrest := ih (r := (r.perform c).2) hcalls
      rw [mintsOf, mints, List.filter_append]
      rw [mintsOf] at hrest
      rcases mint_or_same (r := r) (Ne.symm hc) with ⟨hnone, hsame⟩ | ⟨f, hone, hnext⟩
      · rw [hnone, List.nil_append, hrest, hsame]
      · rw [hone, List.singleton_append, List.map_cons, List.mapIdx_cons, hrest, hnext]
        congr 1
        · simp [alien]
        · -- The count has moved on by one, and the numbers of the rest start from there.
          congr 1
          funext i m
          rw [UInt64.ofNat_add, UInt64.add_assoc, UInt64.add_comm 1]
          rfl

theorem given_getElem {calls : List Call} (hkept : .clearDevice d ∉ calls) {i : Nat}
    (hi : i < (mintsOf d r calls).length) :
    (mintsOf d r calls)[i].given.flow = alienFlowId (mintsOf d r calls)[i].flow.table
      ((r.device d).minted + UInt64.ofNat i).toNat := by
  have hat := congrArg (fun l => l[i]?) (given_of_kept (r := r) hkept)
  simp only [List.getElem?_map, List.getElem?_mapIdx, List.getElem?_eq_getElem hi,
    Option.map_some, Option.some.injEq] at hat
  exact congrArg FlowDescriptor.flow hat

/-- Numbers that the count can tell apart are different. -/
theorem number_injective {n : UInt64} {i j : Nat} (hi : i < UInt64.size) (hj : j < UInt64.size)
    (h : (n + UInt64.ofNat i).toNat = (n + UInt64.ofNat j).toNat) : i = j := by
  have hword : UInt64.ofNat i = UInt64.ofNat j :=
    UInt64.add_right_inj n |>.mp (UInt64.toNat_inj.mp h)
  rw [← UInt64.toNat_inj, UInt64.toNat_ofNat_of_lt' hi, UInt64.toNat_ofNat_of_lt' hj] at hword
  exact hword

/-- Fewer ids than the count can tell apart have different texts. -/
theorem nodup_of_kept {calls : List Call} (hkept : .clearDevice d ∉ calls)
    (hfew : (mintsOf d r calls).length < UInt64.size) :
    ((mintsOf d r calls).map (·.given.flow.text)).Nodup := by
  rw [List.Nodup, List.pairwise_iff_getElem]
  intro i j hi hj hij heq
  rw [List.length_map] at hi hj
  rw [List.getElem_map, List.getElem_map, given_getElem hkept hi, given_getElem hkept hj] at heq
  have hid := (alienFlowId_inj.mp (congrArg FlowId.mk heq)).2
  exact absurd (number_injective (Nat.lt_trans hi hfew) (Nat.lt_trans hj hfew) hid) (Nat.ne_of_lt hij)

/-! ## What is given out and what is kept -/

/-- What was given out carries the table of its flow, and its text tells of no other. -/
structure Mint.TellsTable (m : Mint) : Prop where
  table : m.given.table = m.flow.table
  text : ∃ n, m.given.flow = alienFlowId m.flow.table n
  only : ∀ t n, m.given.flow = alienFlowId t n → t = m.flow.table

theorem tellsTable_of_mem_mints {calls : List Call} {m : Mint} (h : m ∈ r.mints calls) :
    m.TellsTable := by
  induction calls generalizing r with
  | nil => cases h
  | cons c calls ih =>
      rw [mints, List.mem_append, Option.mem_toList] at h
      rcases h with h | h
      · obtain ⟨d, f, rfl⟩ := mint?_eq_some h
        refine ⟨rfl, ⟨_, rfl⟩, ?_⟩
        intro t n hid
        exact (alienFlowId_inj.mp hid).1.symm
      · exact ih h

theorem retrieve_store (h : r.key f' = r.key f) (d : DeviceId) (x : FlowDescriptor) :
    (r.store d f x).retrieve d f' = some x := by
  rw [retrieve, device_store_self, show (r.store d f x).key f' = r.key f from h]
  exact Table.get?_set_self ..

/-- What is seen is recorded. -/
theorem retrieve_observe (r : FlowRegistry) (d : DeviceId) (f : Flow) :
    (r.observe d f).2.retrieve d f = some (r.observe d f).1 := by
  cases hknown : r.retrieve d f with
  | some x => rw [observe_known hknown, hknown]
  | none =>
      cases hid : f.id with
      | some id => rw [observe_named hknown hid, retrieve_store rfl]
      | none =>
          obtain ⟨hgiven, hdevice⟩ := observe_alien hknown hid
          have hkey : (r.observe d f).2.key f = r.key f := by rw [key, policy_observe, key]
          rw [retrieve, hdevice, hgiven, device_store_self, hkey]
          exact Table.get?_set_self ..

theorem observe_idem (r : FlowRegistry) (d : DeviceId) (f : Flow) :
    (r.observe d f).2.observe d f = r.observe d f :=
  observe_known (retrieve_observe r d f)

/-- Ids that are given out for a device are not used again before the device is cleared.
What is recorded of a flow is kept when the flow is seen, and a flow that has an id is
recorded under it and counts for nothing. -/
theorem alien_ids_are_not_reused (policy : FlowKeyPolicy) (d : DeviceId)
    (before during : List Call)
    (hfew : (mints { policy } (before ++ during)).length < UInt64.size)
    (hkept : .clearDevice d ∉ during) :
    let r := Calls.after perform { policy } before
    ((mintsOf d r during).map (·.given.flow.text)).Nodup ∧
      (∀ m ∈ mints r during, m.TellsTable) ∧
      (∀ d f x, r.retrieve d f = some x → r.observe d f = (x, r)) ∧
      (∀ d f, (r.observe d f).2.observe d f = r.observe d f) ∧
      (∀ d f f' x, f'.key policy = f.key policy →
        (r.store d f x).observe d f' = (x, r.store d f x)) ∧
      (∀ d f id, f.id = some id → r.retrieve d f = none →
        r.observe d f = (⟨f.table, id⟩, r.store d f ⟨f.table, id⟩) ∧
        ∀ d', ((r.observe d f).2.device d').minted = (r.device d').minted) := by
  intro r
  refine ⟨?_, ?_, ?_, ?_, ?_, ?_⟩
  · refine nodup_of_kept hkept (Nat.lt_of_le_of_lt ?_ hfew)
    rw [mints_append, List.length_append]
    exact Nat.le_trans (List.length_filter_le ..) (Nat.le_add_left ..)
  · intro m hm
    exact tellsTable_of_mem_mints hm
  · intro d f x hknown
    exact observe_known hknown
  · exact observe_idem r
  · intro d f f' x hkey
    have hpolicy : r.policy = policy := policy_after { policy } before
    have hsame : r.key f' = r.key f := by rw [key, key, hpolicy, hkey]
    exact observe_known (retrieve_store hsame d x)
  · intro d f id hid hknown
    rw [observe_named hknown hid]
    exact ⟨rfl, fun d' => minted_store r d' d f _⟩

/-- A flow that is forgotten and seen again is given another id, and so is one in another
table. -/
theorem alien_ids_are_not_reused_of_remove :
    let d : DeviceId := ⟨"openflow:1"⟩
    let f : Flow := { table := ⟨4⟩ }
    let f' : Flow := { table := ⟨44⟩, priority := 7 }
    let calls : List Call := [.observe d f, .remove d f, .observe d f, .observe d f']
    (mintsOf d {} calls).map (·.given.flow.text) =
        ["#UF$TABLE*4*0", "#UF$TABLE*4*1", "#UF$TABLE*44*2"] ∧
      ((mintsOf d {} calls).map (·.given.flow.text)).Nodup := by
  intro d f f' calls
  refine ⟨by decide, ?_⟩
  exact (alien_ids_are_not_reused {} d [] calls (by decide) (by decide)).1

end FlowRegistry

end Southbound
