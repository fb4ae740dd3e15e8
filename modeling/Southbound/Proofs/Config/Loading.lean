import Southbound.Proofs.Config.Environment
import Southbound.Proofs.Toml.Documents

/-!
# Which settings are loaded

`Config.load_settings` says which settings are loaded from a place under an environment, and
when.  A place without a file holds the empty document, and a file holds the document that
its text writes (`FilePlace.Holds`).  Each setting takes what the environment sets it to, or
what the document gives it, or its default (`Config.Merges`), whatever the other settings
are, and the result is checked as a whole after that.
-/

namespace Southbound

/-- A place holds a document. -/
inductive FilePlace.Holds : FilePlace → Toml → Prop where
  | vacant : Holds .vacant (.table [])
  | belowFile : Holds .belowFile (.table [])
  | file {s : String} {t : Toml} :
    Toml.read s = some t → Holds (.file s.toByteArray.data.toList) t

namespace Config

/-- A setting has the value that the environment sets it to; if the environment does not set
it, the one that the document gives it; and if the document does not either, its default. -/
structure Merges (c : Config) (env : Environment) (t : Toml) (k : Setting) : Prop where
  overridden : ∀ x, env.Sets k x → c.value k = x
  kept : (∀ x, ¬env.Sets k x) → c.value k = (t.stated? k).getD (Config.value {} k)

section Merging

variable {c : Config} {env : Environment} {t : Toml} {k : Setting}

theorem merges_iff :
    c.Merges env t k ↔
      c.value k = (env.setting? k).getD ((t.stated? k).getD (Config.value {} k)) := by
  have hsets (x : Toml.Scalar) : env.setting? k = some x ↔ env.Sets k x :=
    Environment.setting?_eq_some_iff
  cases hk : env.setting? k with
  | none =>
    have hunset (x : Toml.Scalar) : ¬env.Sets k x := fun h => nomatch hk.symm.trans ((hsets x).mpr h)
    exact ⟨fun h => h.kept hunset, fun h => ⟨fun x hx => absurd hx (hunset x), fun _ => h⟩⟩
  | some x =>
    have hset : env.Sets k x := (hsets x).mp hk
    constructor
    · intro h
      exact h.overridden x hset
    · rintro h
      refine ⟨fun y hy => ?_, fun hunset => absurd hset (hunset x)⟩
      obtain rfl := Option.some.inj (hk.symm.trans ((hsets y).mpr hy))
      exact h

/-- Settings of a document that are overridden are merged, and nothing else is. -/
theorem merges_iff_override {c₀ : Config}
    (h : ∀ k, c₀.value k = (t.stated? k).getD (Config.value {} k)) :
    (∀ k, c.Merges env t k) ↔ c = c₀.override env := by
  constructor
  · intro hc
    refine Config.eq_of_value fun k => ?_
    rw [merges_iff.mp (hc k), value_override, h k]
  · rintro rfl k
    rw [merges_iff, value_override, h k]

end Merging

/-! ## Settings of a document -/

theorem accepts_value (c : Config) (k : Setting) : k.Accepts (c.value k) := by
  cases k <;> exact ⟨_, rfl⟩

/-- Values of the right kinds are those of settings. -/
theorem exists_value_eq {f : Setting → Toml.Scalar} (h : ∀ k : Setting, k.Accepts (f k)) :
    ∃ c : Config, ∀ k, c.value k = f k := by
  obtain ⟨request, hrequest⟩ := h .requestTimeout
  obtain ⟨barrier, hbarrier⟩ := h .barrierTimeout
  obtain ⟨sweep, hsweep⟩ := h .sweepInterval
  obtain ⟨signal, hsignal⟩ := h .existsSignal
  obtain ⟨textFallback, htext⟩ := h .existsTextFallback
  obtain ⟨capacity, hcapacity⟩ := h .capacity
  obtain ⟨staleMarking, hmarking⟩ := h .staleMarking
  obtain ⟨flags, hflags⟩ := h .includeFlags
  refine ⟨⟨⟨request, barrier, sweep⟩, ⟨signal, textFallback, capacity, staleMarking⟩, ⟨flags⟩⟩,
    fun k => ?_⟩
  cases k
  case requestTimeout => exact hrequest.symm
  case barrierTimeout => exact hbarrier.symm
  case sweepInterval => exact hsweep.symm
  case existsSignal => exact hsignal.symm
  case existsTextFallback => exact htext.symm
  case capacity => exact hcapacity.symm
  case staleMarking => exact hmarking.symm
  case includeFlags => exact hflags.symm

/-- A document of settings holds some. -/
theorem exists_ofToml {t : Toml} (h : t.IsSettings) : ∃ c, Config.ofToml t = some c := by
  have haccepts (k : Setting) : k.Accepts ((t.stated? k).getD (Config.value {} k)) := by
    cases hk : t.setting? k with
    | none =>
      rw [Toml.stated?, hk]
      exact accepts_value {} k
    | some v =>
      obtain ⟨x, rfl, hx⟩ := h.kinds k v hk
      rw [Toml.stated?, hk]
      exact hx
  obtain ⟨c, hc⟩ := exists_value_eq haccepts
  exact ⟨c, ofToml_eq_some_iff.mpr ⟨h, hc⟩⟩

/-! ## Loading -/

section Load

variable {c : Config} {place : FilePlace} {env : Environment}

theorem ofPlace_eq_ok_iff :
    Config.ofPlace place = .ok c ↔ ∃ t, place.Holds t ∧ Config.ofToml t = some c := by
  have hempty : Config.ofToml (.table []) = some {} := rfl
  cases place with
  | vacant =>
    constructor
    · rintro ⟨⟩
      exact ⟨_, .vacant, hempty⟩
    · rintro ⟨_, ⟨⟩, h⟩
      exact congrArg Except.ok (Option.some.inj (hempty.symm.trans h))
  | belowFile =>
    constructor
    · rintro ⟨⟩
      exact ⟨_, .belowFile, hempty⟩
    · rintro ⟨_, ⟨⟩, h⟩
      exact congrArg Except.ok (Option.some.inj (hempty.symm.trans h))
  | directory => exact iff_of_false nofun fun ⟨_, h, _⟩ => nomatch h
  | file octets =>
    constructor
    · intro h
      rw [ofPlace, ofFile] at h
      split at h
      next => cases h
      next s hs =>
        split at h
        next => cases h
        next c' hread =>
          cases h
          obtain rfl := fromUTF8?_eq_some_iff.mp hs
          obtain ⟨t, ht, hc⟩ := Option.bind_eq_some_iff.mp hread
          exact ⟨t, .file ht, hc⟩
    · rintro ⟨t, hholds, hc⟩
      cases hholds with
      | file ht =>
        have hread := Option.bind_eq_some_iff.mpr ⟨t, ht, hc⟩
        rw [ofPlace, ofFile, fromUTF8?_eq_some_iff.mpr rfl]
        dsimp only
        rw [hread]

theorem load_eq_ok_iff :
    Config.load place env = .ok c ↔
      ∃ c₀, Config.ofPlace place = .ok c₀ ∧ c = c₀.override env ∧ c.validate = .ok () := by
  rw [load]
  cases hplace : Config.ofPlace place with
  | error f => exact iff_of_false nofun fun ⟨_, h, _⟩ => nomatch h
  | ok c₀ =>
    show ((c₀.override env).validate >>= fun _ => pure (c₀.override env)) = .ok c ↔ _
    constructor
    · intro h
      cases hvalid : (c₀.override env).validate with
      | error f =>
        rw [hvalid] at h
        cases h
      | ok u =>
        rw [hvalid] at h
        cases h
        exact ⟨c₀, rfl, rfl, hvalid⟩
    · rintro ⟨_, ⟨⟩, rfl, hvalid⟩
      rw [hvalid]
      rfl

theorem validate_default : Config.validate {} = .ok () := rfl

/-- Settings are loaded if the place holds a document of settings and the merged settings
make sense, and then these are the merged settings; there are merged settings for every
document of settings.  Where nothing is loaded, the defaults can stand in. -/
theorem load_settings (place : FilePlace) (env : Environment) :
    (∀ c, Config.load place env = .ok c ↔
      ∃ t, place.Holds t ∧ t.IsSettings ∧ (∀ k, c.Merges env t k) ∧ c.validate = .ok ()) ∧
    (∀ t : Toml, t.IsSettings → ∃ c : Config, ∀ k, c.Merges env t k) ∧
    (∀ c, Config.load place env = .ok c → Config.loadOrDefault place env = c) ∧
    ((∀ c, Config.load place env ≠ .ok c) → Config.loadOrDefault place env = {}) ∧
    (Config.loadOrDefault place env).validate = .ok () := by
  refine ⟨fun c => ⟨fun h => ?_, ?_⟩, fun t ht => ?_, fun c h => ?_, fun h => ?_, ?_⟩
  · obtain ⟨c₀, hplace, hc, hvalid⟩ := load_eq_ok_iff.mp h
    obtain ⟨t, hholds, ht⟩ := ofPlace_eq_ok_iff.mp hplace
    obtain ⟨hsettings, hvalues⟩ := ofToml_eq_some_iff.mp ht
    exact ⟨t, hholds, hsettings, (merges_iff_override hvalues).mpr hc, hvalid⟩
  · rintro ⟨t, hholds, hsettings, hmerges, hvalid⟩
    obtain ⟨c₀, ht⟩ := exists_ofToml hsettings
    have hc := (merges_iff_override (ofToml_eq_some_iff.mp ht).2).mp hmerges
    exact load_eq_ok_iff.mpr ⟨c₀, ofPlace_eq_ok_iff.mpr ⟨t, hholds, ht⟩, hc, hvalid⟩
  · obtain ⟨c₀, ht⟩ := exists_ofToml ht
    exact ⟨c₀.override env, (merges_iff_override (ofToml_eq_some_iff.mp ht).2).mpr rfl⟩
  · rw [loadOrDefault, h]
  · cases hload : Config.load place env with
    | ok c => exact absurd hload (h c)
    | error f => rw [loadOrDefault, hload]
  · cases hload : Config.load place env with
    | ok c =>
      rw [loadOrDefault, hload]
      obtain ⟨-, -, -, hvalid⟩ := load_eq_ok_iff.mp hload
      exact hvalid
    | error f =>
      rw [loadOrDefault, hload]
      exact validate_default

end Load

/-- A document of two settings, of which one makes no sense. -/
def twoTimes : List (String × List (String × Toml.Scalar)) :=
  [("transaction", [("barrier_timeout_ms", .integer 0), ("sweep_interval_ms", .integer 7)])]

/-- An environment that sets two settings and fails to set a third. -/
def threeVariables : Environment
  | .barrierTimeout => some "+9".toByteArray.data.toList
  | .sweepInterval => some "-9".toByteArray.data.toList
  | .staleMarking => some "oFF".toByteArray.data.toList
  | _ => none

/-- What makes no sense is overridden before it is checked; the rest comes from the file and
from the defaults. -/
theorem load_settings_of_mixture :
    Config.load (.file (Toml.display twoTimes).toByteArray.data.toList) threeVariables =
      .ok { deadlines := { barrier := 9, sweep := 7 }, device := { staleMarking := false } } := by
  have hread : Toml.read (Toml.display twoTimes) = some (Toml.tableOf twoTimes) := by
    refine Toml.read_display ⟨by decide, by decide, by decide, by decide, ?_⟩
    rintro s (_ | ⟨_, ⟨⟩⟩) e (_ | ⟨_, _ | ⟨_, ⟨⟩⟩⟩) <;> exact ⟨by decide, by decide⟩
  have hplus : threeVariables.text? .barrierTimeout = some "+9" :=
    Environment.text?_eq_some_iff.mpr rfl
  have hminus : threeVariables.text? .sweepInterval = some "-9" :=
    Environment.text?_eq_some_iff.mpr rfl
  have hoff : threeVariables.text? .staleMarking = some "oFF" :=
    Environment.text?_eq_some_iff.mpr rfl
  refine ((load_settings _ _).1 _).mpr
    ⟨_, .file hread, ⟨rfl, ?_, ?_⟩, fun k => merges_iff.mpr ?_, rfl⟩
  · intro k table htable
    cases k <;> cases htable <;> rfl
  · intro k v hv
    cases k <;> cases hv
    · exact ⟨_, rfl, 0, rfl⟩
    · exact ⟨_, rfl, 7, rfl⟩
  · cases k
    case barrierTimeout =>
      simp only [Environment.setting?, Environment.word?, hplus]
      rfl
    case sweepInterval =>
      simp only [Environment.setting?, Environment.word?, hminus]
      rfl
    case staleMarking =>
      simp only [Environment.setting?, Environment.switch?, hoff]
      rfl
    all_goals rfl
end Config

end Southbound
