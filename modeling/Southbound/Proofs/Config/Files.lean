import Southbound.Proofs.Config.Loading

/-!
# Settings are kept in files

Settings that make sense and whose numbers fit in a document are loaded from a file as they
were saved, whatever text the words of a rejection are (`Config.save_then_load`).  Where a
number does not fit, nothing is saved and what stands at the place stays.

The document of settings is one of plain values, so it is read as it is displayed
(`Toml.read_display`), and it gives every setting its value (`Config.setting?_tableOf`).
-/

namespace Southbound

/-- A place where a file can be written. -/
def FilePlace.Writable : FilePlace → Prop
  | .vacant | .file _ => True
  | .directory | .belowFile => False

namespace Config

/-- The numbers among settings. -/
def numbers (c : Config) : List UInt64 :=
  [c.deadlines.request, c.deadlines.barrier, c.deadlines.sweep, c.device.capacity]

variable {c : Config}

theorem fitsToml_iff : c.fitsToml = true ↔ ∀ n ∈ c.numbers, n.toNat < Nat.pow 2 63 := by
  simp [fitsToml, numbers]

/-! ## The document of settings -/

theorem isKey_groups : ∀ name ∈ Setting.groups, Toml.IsKey name := by
  decide

theorem isKey_siblings (k : Setting) : ∀ name ∈ k.siblings, Toml.IsKey name := by
  cases k <;> decide

theorem nodup_siblings (k : Setting) : k.siblings.Nodup := by
  cases k <;> decide

/-- Every table of the document holds the settings beside some setting. -/
theorem exists_siblings {s : String × List (String × Toml.Scalar)} (hs : s ∈ c.sections) :
    ∃ k : Setting, s.2.map Prod.fst = k.siblings := by
  simp only [sections, List.mem_cons, List.not_mem_nil, or_false] at hs
  rcases hs with rfl | rfl | rfl
  · exact ⟨.requestTimeout, rfl⟩
  · exact ⟨.existsSignal, rfl⟩
  · exact ⟨.includeFlags, rfl⟩

theorem writable_value (h : ∀ n ∈ c.numbers, n.toNat < Nat.pow 2 63) (k : Setting) :
    (c.value k).Writable := by
  have hword {n : UInt64} (hn : n ∈ c.numbers) : (Toml.Scalar.integer n.toNat).Writable := by
    have hlt := h n hn
    exact ⟨by omega, Int.ofNat_lt.mpr hlt⟩
  cases k
  case requestTimeout | barrierTimeout | sweepInterval | capacity => exact hword (by simp [numbers])
  case existsSignal | existsTextFallback | staleMarking | includeFlags => trivial

/-- Every value in the document is that of some setting. -/
theorem exists_value {s : String × List (String × Toml.Scalar)} (hs : s ∈ c.sections)
    {e : String × Toml.Scalar} (he : e ∈ s.2) : ∃ k, e.2 = c.value k := by
  simp only [sections, List.mem_cons, List.not_mem_nil, or_false] at hs
  rcases hs with rfl | rfl | rfl <;> simp only [List.mem_cons, List.not_mem_nil, or_false] at he
  · rcases he with rfl | rfl | rfl
    exacts [⟨.requestTimeout, rfl⟩, ⟨.barrierTimeout, rfl⟩, ⟨.sweepInterval, rfl⟩]
  · rcases he with rfl | rfl | rfl | rfl
    exacts [⟨.existsSignal, rfl⟩, ⟨.existsTextFallback, rfl⟩, ⟨.capacity, rfl⟩,
      ⟨.staleMarking, rfl⟩]
  · obtain rfl := he
    exact ⟨.includeFlags, rfl⟩

theorem displayable_sections (h : ∀ n ∈ c.numbers, n.toNat < Nat.pow 2 63) :
    Toml.Displayable c.sections where
  names s hs := isKey_groups s.1 (List.mem_map_of_mem (f := Prod.fst) hs)
  keys s hs e he := by
    obtain ⟨k, hk⟩ := exists_siblings hs
    exact isKey_siblings k e.1 (hk ▸ List.mem_map_of_mem he)
  names_nodup := by
    have hgroups : Setting.groups.Nodup := by decide
    exact hgroups
  keys_nodup s hs := by
    obtain ⟨k, hk⟩ := exists_siblings hs
    exact hk ▸ nodup_siblings k
  values s hs e he := by
    obtain ⟨k, hk⟩ := exists_value hs he
    exact hk ▸ writable_value h k

/-- The document gives every setting its value. -/
theorem setting?_tableOf (c : Config) (k : Setting) :
    (Toml.tableOf c.sections).setting? k = some (.scalar (c.value k)) := by
  cases k <;> rfl

theorem ofToml_tableOf (c : Config) : Config.ofToml (Toml.tableOf c.sections) = some c := by
  refine ofToml_eq_some_iff.mpr ⟨⟨rfl, fun k table htable => ?_, fun k v hv => ?_⟩, fun k => ?_⟩
  · cases k <;> cases htable <;> rfl
  · rw [setting?_tableOf] at hv
    cases hv
    exact ⟨_, rfl, c.accepts_value k⟩
  · rw [Toml.stated?, setting?_tableOf]
    rfl

/-- The file that is saved holds the settings. -/
theorem ofPlace_display (h : ∀ n ∈ c.numbers, n.toNat < Nat.pow 2 63) :
    Config.ofPlace (.file (Toml.display c.sections).toByteArray.data.toList) = .ok c :=
  ofPlace_eq_ok_iff.mpr
    ⟨_, .file (Toml.read_display (displayable_sections h)), c.ofToml_tableOf⟩

/-! ## Saving and loading -/

theorem save_writable (h : ∀ n ∈ c.numbers, n.toNat < Nat.pow 2 63) {place : FilePlace}
    (hplace : place.Writable) :
    c.save place = (.ok (), .file (Toml.display c.sections).toByteArray.data.toList) := by
  have htoml : c.toToml? = some (Toml.display c.sections) := if_pos (fitsToml_iff.mpr h)
  cases place with
  | vacant => simp only [save, htoml]
  | file octets => simp only [save, htoml]
  | directory => exact hplace.elim
  | belowFile => exact hplace.elim

theorem save_of_large {n : UInt64} (hn : n ∈ c.numbers) (hlarge : Nat.pow 2 63 ≤ n.toNat)
    (place : FilePlace) : ∃ reason, c.save place = (.error (.configSaveFailed reason), place) := by
  have hfits : c.fitsToml ≠ true := fun h => Nat.not_lt.mpr hlarge (fitsToml_iff.mp h n hn)
  have htoml : c.toToml? = none := if_neg hfits
  cases place <;> simp [save, htoml]

/-- Settings that make sense and fit in a document are loaded as they were saved; settings
with a larger number are not saved, and what stands at the place stays. -/
theorem save_then_load (c : Config) (place : FilePlace) :
    (c.validate = .ok () → (∀ n ∈ c.numbers, n.toNat < Nat.pow 2 63) → place.Writable →
      ∀ env : Environment, (∀ v, env v = none) →
        ∃ octets, c.save place = (.ok (), .file octets) ∧
          Config.load (.file octets) env = .ok c) ∧
      ((∃ n ∈ c.numbers, Nat.pow 2 63 ≤ n.toNat) →
        ∃ reason, c.save place = (.error (.configSaveFailed reason), place)) := by
  constructor
  · intro hvalid hfits hplace env hunset
    have hsame : c = c.override env := (override_unset c hunset).symm
    exact ⟨_, save_writable hfits hplace,
      load_eq_ok_iff.mpr ⟨c, ofPlace_display hfits, hsame, hvalid⟩⟩
  · rintro ⟨n, hn, hlarge⟩
    exact save_of_large hn hlarge place

/-- Words of a rejection with quotes of both kinds in a row, a line feed, a backslash and a
character that is not printed. -/
theorem save_then_load_quoted :
    let c : Config := { device := { signal := "\n'''\"\"\"\\\x00GROUP" } }
    ∃ octets, c.save .vacant = (.ok (), .file octets) ∧
      Config.load (.file octets) (fun _ => none) = .ok c :=
  (save_then_load { device := { signal := "\n'''\"\"\"\\\x00GROUP" } } .vacant).1
    rfl (fitsToml_iff.mp rfl) trivial _ fun _ => rfl

end Config

end Southbound
