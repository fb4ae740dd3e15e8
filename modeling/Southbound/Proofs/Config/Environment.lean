import Mathlib.Data.List.Forall2
import Southbound.Proofs.Config.Settings

/-!
# Settings from the environment, one by one

What the variables of an environment say is stated here without their readers: a text
writes a number in decimal digits (`WritesWord`) or a switch in a word whose letters may be
of either case (`WritesSwitch`), and an environment sets a setting to a value if its
variable is set to a text that writes the value (`Environment.Sets`).

`Config.value_override` says that each overridden setting depends on its own variable
alone, and `Environment.setting?_eq_some_iff` that it takes what the environment sets it to.
-/

namespace Southbound

/-! ## Texts -/

/-- Octets are those of at most one text. -/
theorem fromUTF8?_eq_some_iff {octets : List UInt8} {s : String} :
    String.fromUTF8? ⟨octets.toArray⟩ = some s ↔ octets = s.toByteArray.data.toList := by
  constructor
  · intro h
    rw [String.fromUTF8?] at h
    split at h
    next =>
      cases h
      rfl
    next => cases h
  · rintro rfl
    exact dif_pos s.isValidUTF8

/-- A text writes a number: in decimal digits, perhaps after a plus sign. -/
def WritesWord (s : String) (n : UInt64) : Prop :=
  ∃ sign ds, s.toList = sign ++ ds ∧ (sign = [] ∨ sign = ['+']) ∧ ds ≠ [] ∧
    (∀ c ∈ ds, c.isDigit = true) ∧ Nat.ofDigitChars 10 ds 0 = n.toNat

/-- The words for a switch. -/
def switchWords : Bool → List String
  | true => ["1", "true", "yes", "on"]
  | false => ["0", "false", "no", "off"]

/-- A text writes a switch: it is one of its words, whatever the cases of the letters. -/
def WritesSwitch (s : String) (b : Bool) : Prop :=
  ∃ word ∈ switchWords b,
    List.Forall₂ (fun c x => c = x ∨ c = Char.toUpper x) s.toList word.toList

theorem wordOfText_eq_some_iff {s : String} {n : UInt64} :
    wordOfText s = some n ↔ WritesWord s n := by
  have hdigits (ds : List Char) :
      (if ds ≠ [] ∧ ds.all Char.isDigit then
        (if Nat.ofDigitChars 10 ds 0 < UInt64.size then
          some (UInt64.ofNat (Nat.ofDigitChars 10 ds 0)) else none) else none) = some n ↔
      ds ≠ [] ∧ (∀ c ∈ ds, c.isDigit = true) ∧ Nat.ofDigitChars 10 ds 0 = n.toNat := by
    constructor
    · intro h
      split at h
      next hds =>
        split at h
        next hlt =>
          cases h
          exact ⟨hds.1, List.all_eq_true.mp hds.2, (UInt64.toNat_ofNat_of_lt' hlt).symm⟩
        next => cases h
      next => cases h
    · rintro ⟨hne, hall, hn⟩
      rw [if_pos ⟨hne, List.all_eq_true.mpr hall⟩, hn, if_pos n.toNat_lt_size, UInt64.ofNat_toNat]
  unfold wordOfText
  dsimp only
  split
  next ds hs =>
    refine (hdigits ds).trans ⟨fun h => ⟨['+'], ds, hs, .inr rfl, h⟩, ?_⟩
    rintro ⟨_, ds', hs', rfl | rfl, hne, hall, hn⟩
    · -- the sign would be the first digit
      obtain rfl : '+' :: ds = ds' := hs.symm.trans hs'
      exact absurd (hall '+' (List.mem_cons_self ..)) (by decide)
    · obtain rfl : ds = ds' := (List.cons_eq_cons.mp (hs.symm.trans hs')).2
      exact ⟨hne, hall, hn⟩
  next hplus =>
    refine (hdigits s.toList).trans ⟨fun h => ⟨[], s.toList, rfl, .inl rfl, h⟩, ?_⟩
    rintro ⟨_, ds, hs, rfl | rfl, hne, hall, hn⟩
    · rw [hs, List.nil_append]
      exact ⟨hne, hall, hn⟩
    · exact absurd hs (hplus ds)

/-- In lower case a character is `x`, which is no letter of upper case, if it is `x` itself or
`x` in upper case. -/
theorem toLower_eq_iff {c x : Char} (hx : x.isUpper = false) :
    c.toLower = x ↔ c = x ∨ c = x.toUpper := by
  have hupper : ¬(65 ≤ x.val ∧ x.val ≤ 90) := of_decide_eq_false hx
  have hlower : c.toLower.val = if 65 ≤ c.val ∧ c.val ≤ 90 then c.val + 32 else c.val :=
    apply_dite Char.val (65 ≤ c.val ∧ c.val ≤ 90) _ _
  -- the sum wraps around, so this is 32 less
  have hraise : x.toUpper.val =
      if 97 ≤ x.val ∧ x.val ≤ 122 then x.val + 4294967264 else x.val :=
    apply_dite Char.val (97 ≤ x.val ∧ x.val ≤ 122) _ _
  rw [Char.ext_iff, Char.ext_iff, Char.ext_iff, hlower, hraise]
  simp only [UInt32.le_iff_toNat_le, seval] at hupper ⊢
  split <;> split <;>
    · simp only [← UInt32.toNat_inj, UInt32.toNat_add, seval]
      omega

theorem isUpper_switchWords (b : Bool) :
    ∀ word ∈ switchWords b, ∀ x ∈ word.toList, x.isUpper = false := by
  have hall : ∀ word ∈ switchWords b, word.toList.all (fun x => !x.isUpper) = true := by
    cases b <;> decide
  intro word hword x hx
  simpa using List.all_eq_true.mp (hall word hword) x hx

theorem map_toLower_eq_iff {cs xs : List Char} (hxs : ∀ x ∈ xs, x.isUpper = false) :
    cs.map Char.toLower = xs ↔ List.Forall₂ (fun c x => c = x ∨ c = Char.toUpper x) cs xs := by
  induction cs generalizing xs with
  | nil => cases xs <;> simp
  | cons c cs ih =>
    cases xs with
    | nil => simp
    | cons x xs =>
      rw [List.forall_mem_cons] at hxs
      rw [List.map_cons, List.cons_eq_cons, List.forall₂_cons, toLower_eq_iff hxs.1, ih hxs.2]

theorem writesSwitch_iff {s : String} {b : Bool} :
    WritesSwitch s b ↔ String.ofList (s.toList.map Char.toLower) ∈ switchWords b := by
  constructor
  · rintro ⟨word, hword, h⟩
    rw [(map_toLower_eq_iff (isUpper_switchWords b word hword)).mpr h, String.ofList_toList]
    exact hword
  · intro h
    refine ⟨_, h, (map_toLower_eq_iff (isUpper_switchWords b _ h)).mp ?_⟩
    rw [String.toList_ofList]

theorem switchOfText_eq_some_iff {s : String} {b : Bool} :
    switchOfText s = some b ↔ WritesSwitch s b := by
  have hdisjoint : ∀ word ∈ switchWords true, word ∉ switchWords false := by decide
  rw [writesSwitch_iff]
  unfold switchOfText
  dsimp only
  split
  next htrue =>
    have hfalse := hdisjoint _ htrue
    cases b
    · exact iff_of_false (by simp) hfalse
    · exact iff_of_true rfl htrue
  next htrue =>
    split
    next hfalse =>
      cases b
      · exact iff_of_true rfl hfalse
      · exact iff_of_false (by simp) htrue
    next hfalse =>
      cases b
      · exact iff_of_false nofun hfalse
      · exact iff_of_false nofun htrue

/-! ## Variables -/

/-- The variable that overrides a setting, if there is one. -/
def Setting.variable? : Setting → Option Variable
  | .requestTimeout => some .requestTimeout
  | .barrierTimeout => some .barrierTimeout
  | .sweepInterval => some .sweepInterval
  | .existsSignal => some .existsSignal
  | .existsTextFallback => some .existsTextFallback
  | .capacity => none
  | .staleMarking => some .staleMarking
  | .includeFlags => some .includeFlags

/-- A text writes a value of a setting: any text is one of the words of a rejection. -/
def Setting.Writes : Setting → String → Toml.Scalar → Prop
  | .requestTimeout, s, x | .barrierTimeout, s, x | .sweepInterval, s, x | .capacity, s, x =>
    ∃ n : UInt64, WritesWord s n ∧ x = .integer n.toNat
  | .existsSignal, s, x => x = .text s
  | .existsTextFallback, s, x | .staleMarking, s, x | .includeFlags, s, x =>
    ∃ b, WritesSwitch s b ∧ x = .bool b

namespace Environment

/-- An environment sets a setting to a value: its variable is set to a text that writes the
value. -/
def Sets (env : Environment) (k : Setting) (x : Toml.Scalar) : Prop :=
  match k.variable? with
  | some v => ∃ s : String, env v = some s.toByteArray.data.toList ∧ k.Writes s x
  | none => False

/-- What an environment sets a setting to, if anything. -/
def setting? (env : Environment) : Setting → Option Toml.Scalar
  | .requestTimeout => (env.word? .requestTimeout).map fun n => .integer n.toNat
  | .barrierTimeout => (env.word? .barrierTimeout).map fun n => .integer n.toNat
  | .sweepInterval => (env.word? .sweepInterval).map fun n => .integer n.toNat
  | .existsSignal => (env.text? .existsSignal).map .text
  | .existsTextFallback => (env.switch? .existsTextFallback).map .bool
  | .capacity => none
  | .staleMarking => (env.switch? .staleMarking).map .bool
  | .includeFlags => (env.switch? .includeFlags).map .bool

variable {env : Environment} {v : Variable} {x : Toml.Scalar}

theorem text?_eq_some_iff {s : String} :
    env.text? v = some s ↔ env v = some s.toByteArray.data.toList := by
  rw [text?, Option.bind_eq_some_iff]
  simp only [fromUTF8?_eq_some_iff]
  constructor
  · rintro ⟨_, h, rfl⟩
    exact h
  · intro h
    exact ⟨_, h, rfl⟩

theorem map_word?_eq_some_iff :
    ((env.word? v).map fun n => .integer n.toNat) = some x ↔
      ∃ s : String, env v = some s.toByteArray.data.toList ∧
        ∃ n : UInt64, WritesWord s n ∧ x = .integer n.toNat := by
  simp only [word?, Option.map_eq_some_iff, Option.bind_eq_some_iff, text?_eq_some_iff,
    wordOfText_eq_some_iff]
  constructor
  · rintro ⟨n, ⟨s, hs, hn⟩, rfl⟩
    exact ⟨s, hs, n, hn, rfl⟩
  · rintro ⟨s, hs, n, hn, rfl⟩
    exact ⟨n, ⟨s, hs, hn⟩, rfl⟩

theorem map_switch?_eq_some_iff :
    (env.switch? v).map .bool = some x ↔
      ∃ s : String, env v = some s.toByteArray.data.toList ∧
        ∃ b, WritesSwitch s b ∧ x = .bool b := by
  simp only [switch?, Option.map_eq_some_iff, Option.bind_eq_some_iff, text?_eq_some_iff,
    switchOfText_eq_some_iff]
  constructor
  · rintro ⟨b, ⟨s, hs, hb⟩, rfl⟩
    exact ⟨s, hs, b, hb, rfl⟩
  · rintro ⟨s, hs, b, hb, rfl⟩
    exact ⟨b, ⟨s, hs, hb⟩, rfl⟩

theorem map_text?_eq_some_iff :
    (env.text? v).map .text = some x ↔
      ∃ s : String, env v = some s.toByteArray.data.toList ∧ x = .text s := by
  simp only [Option.map_eq_some_iff, text?_eq_some_iff]
  constructor
  · rintro ⟨s, hs, rfl⟩
    exact ⟨s, hs, rfl⟩
  · rintro ⟨s, hs, rfl⟩
    exact ⟨s, hs, rfl⟩

/-- The readers of the variables take what the environment sets. -/
theorem setting?_eq_some_iff {k : Setting} : env.setting? k = some x ↔ env.Sets k x := by
  cases k
  case requestTimeout | barrierTimeout | sweepInterval => exact map_word?_eq_some_iff
  case existsSignal => exact map_text?_eq_some_iff
  case existsTextFallback | staleMarking | includeFlags => exact map_switch?_eq_some_iff
  case capacity => exact iff_of_false nofun id

end Environment

/-! ## Settings that are overridden -/

namespace Config

/-- Each setting is overridden by its own variable alone. -/
theorem value_override (c : Config) (env : Environment) (k : Setting) :
    (c.override env).value k = (env.setting? k).getD (c.value k) := by
  cases k
  case requestTimeout | barrierTimeout | sweepInterval =>
    exact (Option.getD_map (fun n : UInt64 => Toml.Scalar.integer n.toNat) _ _).symm
  case existsSignal => exact (Option.getD_map Toml.Scalar.text _ _).symm
  case existsTextFallback | staleMarking | includeFlags =>
    exact (Option.getD_map Toml.Scalar.bool _ _).symm
  case capacity => rfl

/-- Without variables that are set, nothing is overridden. -/
theorem override_unset (c : Config) {env : Environment} (h : ∀ v, env v = none) :
    c.override env = c := by
  simp [override, Environment.word?, Environment.switch?, Environment.text?, h]

end Config

end Southbound
