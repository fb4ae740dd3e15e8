import Mathlib.Data.Option.Basic
import Southbound.Config.File

/-!
# Settings one by one

A `Setting` is one of the eight values of a `Config`, by its table and its name.  All of
them are plain values of documents, so a setting has a value in settings
(`Config.value`) and perhaps in a document (`Toml.setting?`), and settings are the same if
all their values are (`Config.eq_of_value`).

`Config.ofToml_eq_some_iff` says what settings a document holds: each has the value that
the document gives it, or the default if it gives none.  A document that gives a setting a
value of another kind holds no settings at all.
-/

namespace Southbound

/-! ## Settings -/

/-- The settings, one by one. -/
inductive Setting where
  | requestTimeout
  | barrierTimeout
  | sweepInterval
  | existsSignal
  | existsTextFallback
  | capacity
  | staleMarking
  | includeFlags
deriving DecidableEq, Repr

namespace Setting

/-- The tables of settings, in order. -/
def groups : List String := ["transaction", "device", "flow_hash"]

/-- The table of a setting. -/
def group : Setting → String
  | requestTimeout | barrierTimeout | sweepInterval => "transaction"
  | existsSignal | existsTextFallback | capacity | staleMarking => "device"
  | includeFlags => "flow_hash"

def name : Setting → String
  | requestTimeout => "request_timeout_ms"
  | barrierTimeout => "barrier_timeout_ms"
  | sweepInterval => "sweep_interval_ms"
  | existsSignal => "group_exists_signal"
  | existsTextFallback => "group_exists_text_fallback"
  | capacity => "outbound_queue_capacity"
  | staleMarking => "stale_marking"
  | includeFlags => "include_flags"

/-- The names of the settings in the table of a setting, in order. -/
def siblings : Setting → List String
  | requestTimeout | barrierTimeout | sweepInterval =>
    ["request_timeout_ms", "barrier_timeout_ms", "sweep_interval_ms"]
  | existsSignal | existsTextFallback | capacity | staleMarking =>
    ["group_exists_signal", "group_exists_text_fallback", "outbound_queue_capacity",
      "stale_marking"]
  | includeFlags => ["include_flags"]

/-- Whether a plain value is of the kind of a setting: a number of 64 bits, a text or a
switch. -/
def Accepts : Setting → Toml.Scalar → Prop
  | requestTimeout, x | barrierTimeout, x | sweepInterval, x | capacity, x =>
    ∃ n : UInt64, x = .integer n.toNat
  | existsSignal, x => ∃ s, x = .text s
  | existsTextFallback, x | staleMarking, x | includeFlags, x => ∃ b, x = .bool b

end Setting

/-- The value of a setting. -/
def Config.value (c : Config) : Setting → Toml.Scalar
  | .requestTimeout => .integer c.deadlines.request.toNat
  | .barrierTimeout => .integer c.deadlines.barrier.toNat
  | .sweepInterval => .integer c.deadlines.sweep.toNat
  | .existsSignal => .text c.device.signal
  | .existsTextFallback => .bool c.device.textFallback
  | .capacity => .integer c.device.capacity.toNat
  | .staleMarking => .bool c.device.staleMarking
  | .includeFlags => .bool c.keys.includeFlags

theorem word_inj : Function.Injective fun n : UInt64 => Toml.Scalar.integer n.toNat := by
  intro n n' h
  exact UInt64.toNat_inj.mp (Int.natCast_inj.mp (Toml.Scalar.integer.inj h))

theorem Config.eq_of_value {c c' : Config} (h : ∀ k, c.value k = c'.value k) : c = c' := by
  obtain ⟨⟨request, barrier, sweep⟩, ⟨signal, textFallback, capacity, staleMarking⟩, ⟨flags⟩⟩ := c
  obtain ⟨⟨request', barrier', sweep'⟩, ⟨signal', textFallback', capacity', staleMarking'⟩,
    ⟨flags'⟩⟩ := c'
  obtain rfl := word_inj (h .requestTimeout)
  obtain rfl := word_inj (h .barrierTimeout)
  obtain rfl := word_inj (h .sweepInterval)
  obtain rfl := word_inj (h .capacity)
  obtain rfl := Toml.Scalar.text.inj (h .existsSignal)
  obtain rfl := Toml.Scalar.bool.inj (h .existsTextFallback)
  obtain rfl := Toml.Scalar.bool.inj (h .staleMarking)
  obtain rfl := Toml.Scalar.bool.inj (h .includeFlags)
  rfl

/-! ## Settings of documents -/

namespace Toml

/-- What a document gives a setting, if anything. -/
def setting? (t : Toml) (k : Setting) : Option Toml :=
  (settingOf t Setting.groups k.group).bind fun table => settingOf table k.siblings k.name

/-- A plain value that stands somewhere, if anything does. -/
def plain? : Option Toml → Option Scalar
  | some (.scalar x) => some x
  | _ => none

/-- The plain value that a document gives a setting, if any. -/
def stated? (t : Toml) (k : Setting) : Option Scalar := plain? (t.setting? k)

/-- A document of settings: it is a table of tables, as far as they are there, and gives
each setting a value of its kind or none. -/
structure IsSettings (t : Toml) : Prop where
  isTable : hasSettings t = true
  tables : ∀ k : Setting, ∀ table ∈ settingOf t Setting.groups k.group, hasSettings table = true
  kinds : ∀ k v, t.setting? k = some v → ∃ x, v = .scalar x ∧ k.Accepts x

end Toml

/-! ## Reading -/

section Reading

variable {α : Type}

/-- A reader of plain values of one kind. -/
structure Reads (read : Toml → Option α) (write : α → Toml.Scalar) : Prop where
  read_iff : ∀ v x, read v = some x ↔ v = .scalar (write x)
  inj : Function.Injective write

theorem reads_word : Reads wordSetting fun n : UInt64 => .integer n.toNat := by
  refine ⟨fun v n => ⟨fun h => ?_, ?_⟩, word_inj⟩
  · unfold wordSetting at h
    split at h
    next m =>
      split at h
      next hm =>
        cases h
        have hword : (UInt64.ofNat m.toNat).toNat = m.toNat :=
          UInt64.toNat_ofNat_of_lt' ((Int.toNat_lt hm.1).mpr hm.2)
        rw [hword, Int.toNat_of_nonneg hm.1]
      next => cases h
    next => cases h
  · rintro rfl
    have hsize : (n.toNat : Int) < (UInt64.size : Nat) := Int.ofNat_lt.mpr n.toNat_lt_size
    rw [wordSetting, if_pos ⟨Int.natCast_nonneg _, hsize⟩, Int.toNat_natCast, UInt64.ofNat_toNat]

theorem reads_switch : Reads switchSetting .bool := by
  refine ⟨fun v b => ⟨fun h => ?_, ?_⟩, fun _ _ => Toml.Scalar.bool.inj⟩
  · unfold switchSetting at h
    split at h
    next b' =>
      cases h
      rfl
    next => cases h
  · rintro rfl
    rfl

theorem reads_text : Reads textSetting .text := by
  refine ⟨fun v s => ⟨fun h => ?_, ?_⟩, fun _ _ => Toml.Scalar.text.inj⟩
  · unfold textSetting at h
    split at h
    next s' =>
      cases h
      rfl
    next => cases h
  · rintro rfl
    rfl

/-- What is read of a setting is what stands there, if it is of its kind, or its default. -/
theorem settingOr_eq_some_iff {read : Toml → Option α} {write : α → Toml.Scalar}
    (h : Reads read write) {absent x : α} {v? : Option Toml} :
    settingOr read absent v? = some x ↔
      (∀ v ∈ v?, ∃ y, v = .scalar y ∧ ∃ z, y = write z) ∧
        write x = (Toml.plain? v?).getD (write absent) := by
  cases v? with
  | none =>
    rw [settingOr, Option.some.injEq]
    constructor
    · rintro rfl
      exact ⟨nofun, rfl⟩
    · rintro ⟨-, hx⟩
      exact (h.inj hx).symm
  | some v =>
    rw [settingOr, h.read_iff v x]
    constructor
    · rintro rfl
      refine ⟨?_, rfl⟩
      rintro _ ⟨⟩
      exact ⟨_, rfl, x, rfl⟩
    · rintro ⟨hkind, hx⟩
      obtain ⟨_, rfl, y, rfl⟩ := hkind v rfl
      exact congrArg Toml.scalar hx.symm

end Reading

/-! ## Tables -/

namespace Config

/-- Settings take what stands at the place of a setting, or its default if nothing does. -/
def Takes (c : Config) (k : Setting) (v? : Option Toml) : Prop :=
  (∀ v ∈ v?, ∃ x, v = .scalar x ∧ k.Accepts x) ∧
    c.value k = (Toml.plain? v?).getD (Config.value {} k)

section Tables

variable {c : Config} {table? : Option Toml}

/-- What stands under a setting in its table, if the table is there. -/
def under (table? : Option Toml) (k : Setting) : Option Toml :=
  table?.bind fun table => settingOf table k.siblings k.name

theorem takes_none {k : Setting} : c.Takes k none ↔ c.value k = Config.value {} k :=
  ⟨fun h => h.2, fun h => ⟨nofun, h⟩⟩

theorem settingOr_deadlines :
    settingOr Deadlines.ofToml {} table? = some c.deadlines ↔
      (∀ table ∈ table?, hasSettings table = true) ∧
        c.Takes .requestTimeout (under table? .requestTimeout) ∧
        c.Takes .barrierTimeout (under table? .barrierTimeout) ∧
        c.Takes .sweepInterval (under table? .sweepInterval) := by
  obtain ⟨⟨request, barrier, sweep⟩, device, keys⟩ := c
  cases table? with
  | none =>
    simp only [under, Option.bind_none, takes_none]
    constructor
    · rintro ⟨⟩
      exact ⟨nofun, rfl, rfl, rfl⟩
    · rintro ⟨-, hrequest, hbarrier, hsweep⟩
      obtain rfl := word_inj hrequest
      obtain rfl := word_inj hbarrier
      obtain rfl := word_inj hsweep
      rfl
  | some table =>
    simp only [settingOr.eq_2, Deadlines.ofToml, Option.bind_eq_bind, Option.bind_eq_some_iff,
      settingOr_eq_some_iff reads_word, Option.guard_eq_some', Option.pure_def]
    constructor
    · rintro ⟨-, htable, request, hrequest, barrier, hbarrier, sweep, hsweep, ⟨⟩⟩
      refine ⟨?_, hrequest, hbarrier, hsweep⟩
      rintro _ ⟨⟩
      exact htable
    · rintro ⟨htable, hrequest, hbarrier, hsweep⟩
      exact ⟨(), htable table rfl, _, hrequest, _, hbarrier, _, hsweep, rfl⟩

theorem settingOr_devices :
    settingOr DeviceSettings.ofToml {} table? = some c.device ↔
      (∀ table ∈ table?, hasSettings table = true) ∧
        c.Takes .existsSignal (under table? .existsSignal) ∧
        c.Takes .existsTextFallback (under table? .existsTextFallback) ∧
        c.Takes .capacity (under table? .capacity) ∧
        c.Takes .staleMarking (under table? .staleMarking) := by
  obtain ⟨deadlines, ⟨signal, textFallback, capacity, staleMarking⟩, keys⟩ := c
  cases table? with
  | none =>
    simp only [under, Option.bind_none, takes_none]
    constructor
    · rintro ⟨⟩
      exact ⟨nofun, rfl, rfl, rfl, rfl⟩
    · rintro ⟨-, hsignal, htext, hcapacity, hmarking⟩
      obtain rfl := Toml.Scalar.text.inj hsignal
      obtain rfl := Toml.Scalar.bool.inj htext
      obtain rfl := word_inj hcapacity
      obtain rfl := Toml.Scalar.bool.inj hmarking
      rfl
  | some table =>
    simp only [settingOr.eq_2, DeviceSettings.ofToml, Option.bind_eq_bind,
      Option.bind_eq_some_iff, settingOr_eq_some_iff reads_word,
      settingOr_eq_some_iff reads_switch, settingOr_eq_some_iff reads_text,
      Option.guard_eq_some', Option.pure_def]
    constructor
    · rintro ⟨-, htable, signal, hsignal, textFallback, htext, capacity, hcapacity,
        staleMarking, hmarking, ⟨⟩⟩
      refine ⟨?_, hsignal, htext, hcapacity, hmarking⟩
      rintro _ ⟨⟩
      exact htable
    · rintro ⟨htable, hsignal, htext, hcapacity, hmarking⟩
      exact ⟨(), htable table rfl, _, hsignal, _, htext, _, hcapacity, _, hmarking, rfl⟩

theorem settingOr_keys :
    settingOr FlowKeyPolicy.ofToml {} table? = some c.keys ↔
      (∀ table ∈ table?, hasSettings table = true) ∧
        c.Takes .includeFlags (under table? .includeFlags) := by
  obtain ⟨deadlines, device, ⟨flags⟩⟩ := c
  cases table? with
  | none =>
    simp only [under, Option.bind_none, takes_none]
    constructor
    · rintro ⟨⟩
      exact ⟨nofun, rfl⟩
    · rintro ⟨-, hflags⟩
      obtain rfl := Toml.Scalar.bool.inj hflags
      rfl
  | some table =>
    simp only [settingOr.eq_2, FlowKeyPolicy.ofToml, Option.bind_eq_bind,
      Option.bind_eq_some_iff, settingOr_eq_some_iff reads_switch,
      Option.guard_eq_some', Option.pure_def]
    constructor
    · rintro ⟨-, htable, flags, hflags, ⟨⟩⟩
      refine ⟨?_, hflags⟩
      rintro _ ⟨⟩
      exact htable
    · rintro ⟨htable, hflags⟩
      exact ⟨(), htable table rfl, _, hflags, rfl⟩

end Tables

/-! ## The settings of a document -/

section Documents

variable {t : Toml} {c : Config}

/-- The settings of a document are those of its tables. -/
theorem ofToml_eq_some_iff_groups :
    Config.ofToml t = some c ↔
      hasSettings t = true ∧
        settingOr Deadlines.ofToml {} (settingOf t Setting.groups "transaction") =
          some c.deadlines ∧
        settingOr DeviceSettings.ofToml {} (settingOf t Setting.groups "device") =
          some c.device ∧
        settingOr FlowKeyPolicy.ofToml {} (settingOf t Setting.groups "flow_hash") =
          some c.keys := by
  obtain ⟨deadlines, device, keys⟩ := c
  simp only [Config.ofToml, Option.bind_eq_bind, Option.bind_eq_some_iff,
    Option.guard_eq_some', Option.pure_def]
  constructor
  · rintro ⟨-, htable, deadlines, hdeadlines, device, hdevice, keys, hkeys, ⟨⟩⟩
    exact ⟨htable, hdeadlines, hdevice, hkeys⟩
  · rintro ⟨htable, hdeadlines, hdevice, hkeys⟩
    exact ⟨(), htable, _, hdeadlines, _, hdevice, _, hkeys, rfl⟩

theorem ofToml_eq_some_iff_takes :
    Config.ofToml t = some c ↔
      hasSettings t = true ∧
        (∀ k : Setting, ∀ table ∈ settingOf t Setting.groups k.group,
          hasSettings table = true) ∧
        ∀ k, c.Takes k (t.setting? k) := by
  rw [ofToml_eq_some_iff_groups, settingOr_deadlines, settingOr_devices, settingOr_keys]
  constructor
  · rintro ⟨htable, ⟨htransaction, hrequest, hbarrier, hsweep⟩,
      ⟨hdevice, hsignal, htext, hcapacity, hmarking⟩, hkeys, hflags⟩
    refine ⟨htable, fun k => ?_, fun k => ?_⟩
    · cases k
      case requestTimeout | barrierTimeout | sweepInterval => exact htransaction
      case existsSignal | existsTextFallback | capacity | staleMarking => exact hdevice
      case includeFlags => exact hkeys
    · cases k
      case requestTimeout => exact hrequest
      case barrierTimeout => exact hbarrier
      case sweepInterval => exact hsweep
      case existsSignal => exact hsignal
      case existsTextFallback => exact htext
      case capacity => exact hcapacity
      case staleMarking => exact hmarking
      case includeFlags => exact hflags
  · rintro ⟨htable, htables, htakes⟩
    exact ⟨htable,
      ⟨htables .requestTimeout, htakes .requestTimeout, htakes .barrierTimeout,
        htakes .sweepInterval⟩,
      ⟨htables .existsSignal, htakes .existsSignal, htakes .existsTextFallback,
        htakes .capacity, htakes .staleMarking⟩,
      htables .includeFlags, htakes .includeFlags⟩

/-- The settings that a document holds: each has the value that the document gives it, or
its default. -/
theorem ofToml_eq_some_iff :
    Config.ofToml t = some c ↔
      t.IsSettings ∧ ∀ k, c.value k = (t.stated? k).getD (Config.value {} k) := by
  rw [ofToml_eq_some_iff_takes]
  constructor
  · rintro ⟨htable, htables, htakes⟩
    exact ⟨⟨htable, htables, fun k => (htakes k).1⟩, fun k => (htakes k).2⟩
  · rintro ⟨⟨htable, htables, hkinds⟩, hvalues⟩
    exact ⟨htable, htables, fun k => ⟨hkinds k, hvalues k⟩⟩

end Documents

end Config

end Southbound
