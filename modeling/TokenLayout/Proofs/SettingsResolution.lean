import Mathlib.Algebra.Group.Nat.Defs
import TokenLayout.Cli.Session

/-! # Where the settings of a check come from

A layout property has up to three values: one from the command line, a configured one and a default.
`InForce` says which of them counts, and `Resolution` in which order the ways to fail are tried, both
without a word on how tables are searched or changed. Since every table and every choice of overrides
has a resolution, it is enough to show that a resolution is what the settings come out as; that there
is only one follows.

An override is a change of the table, made before it is read. It shows in the value of its own
property and in nothing else that the settings depend on.
-/

namespace TokenLayout

theorem Table.find?_keys_set {α : Type} (table : Table α) (key : String) (value : α)
    {wanted : String → Bool} (passed : wanted key = false) :
    (table.set key value).keys.find? wanted = table.keys.find? wanted := by
  induction table with
  | nil => simp [set, keys, passed]
  | cons entry rest ih =>
      obtain ⟨first, old⟩ := entry
      unfold set
      split
      · rename_i same
        subst same
        simp [keys, passed]
      · unfold keys at ih ⊢
        rw [List.map_cons, List.map_cons, List.find?_cons, List.find?_cons, ih]

namespace Config

/-- Is there a property of this name? -/
def IsDeclared (name : String) : Prop :=
  name = includeGenerated ∨ name = maximumLineLength

instance (name : String) : Decidable (IsDeclared name) :=
  inferInstanceAs (Decidable (_ ∨ _))

/-- The first property of a configuration that there is not. -/
def undeclared? (config : Config) : Option String :=
  config.layout.keys.find? fun name => (declared.get? name).isNone

theorem isNone_declared_iff {name : String} :
    (declared.get? name).isNone = true ↔ ¬ IsDeclared name := by
  unfold IsDeclared declared Table.get?
  rw [List.lookup_cons, List.lookup_cons]
  cases generated : name == includeGenerated with
  | true => simp [eq_of_beq generated]
  | false =>
      have other : name ≠ includeGenerated := ne_of_beq_false generated
      cases maximum : name == maximumLineLength with
      | true => simp [eq_of_beq maximum]
      | false => simp [other, ne_of_beq_false maximum]

theorem undeclared?_eq_none_iff {config : Config} :
    config.undeclared? = none ↔ ∀ name ∈ config.layout.keys, IsDeclared name := by
  unfold undeclared?
  rw [List.find?_eq_none]
  simp only [isNone_declared_iff, Classical.not_not]

theorem of_undeclared?_eq_some {config : Config} {name : String}
    (found : config.undeclared? = some name) :
    name ∈ config.layout.keys ∧ ¬ IsDeclared name := by
  unfold undeclared? at found
  have unknown := List.find?_some found
  exact ⟨List.mem_of_find?_eq_some found, isNone_declared_iff.mp unknown⟩

theorem settings_of_undeclared {config : Config} {name : String}
    (found : config.undeclared? = some name) : config.settings = .error (.unknownProperty name) := by
  unfold undeclared? at found
  unfold settings
  rw [found]
  rfl

/-- The settings of a configuration in which every property is declared. -/
theorem settings_of_declared {config : Config} (all : config.undeclared? = none) :
    config.settings =
      (config.property includeGenerated Toml.bool?).bind fun generated =>
        (config.property maximumLineLength Toml.int?).bind fun maximum =>
          match Settings.make? generated maximum.toNat with
          | some settings => .ok settings
          | none => .error (.nonPositiveLineLength maximum) := by
  unfold undeclared? at all
  unfold settings
  rw [all]
  rfl

theorem property_congr {α : Type} {one two : Config} {name : String} (read : Toml → Option α)
    (same : one.layout.get? name = two.layout.get? name) :
    one.property name read = two.property name read := by
  unfold property
  rw [same]

/-- Settings depend on the first undeclared property and on the values of the declared ones. -/
theorem settings_congr {one two : Config} (names : one.undeclared? = two.undeclared?)
    (generated : one.layout.get? includeGenerated = two.layout.get? includeGenerated)
    (maximum : one.layout.get? maximumLineLength = two.layout.get? maximumLineLength) :
    one.settings = two.settings := by
  cases found : two.undeclared? with
  | some name => rw [settings_of_undeclared found, settings_of_undeclared (names.trans found)]
  | none =>
      rw [settings_of_declared found, settings_of_declared (names.trans found),
        property_congr _ generated, property_congr _ maximum]

theorem undeclared?_withProperty {config : Config} {name : String} {value : Toml}
    (known : IsDeclared name) : (config.withProperty name value).undeclared? = config.undeclared? := by
  apply Table.find?_keys_set
  rw [Bool.eq_false_iff, Ne, isNone_declared_iff, Classical.not_not]
  exact known

end Config

namespace Cli

open Config

/-! ## Which value counts -/

/-- The value of a property that counts, of those from the command line, the configuration and the
declaration. Only the configured one can be of a wrong type. -/
inductive InForce {α : Type} (wrap : α → Toml) (given : Option α) (configured : Option Toml)
    (default : α) : α → Prop where
  | given {value} : given = some value → InForce wrap given configured default value
  | configured {value} : given = none → configured = some (wrap value) →
      InForce wrap given configured default value
  | default : given = none → configured = none → InForce wrap given configured default default

/-- The configured value of a property counts, but is of a wrong type. -/
def IllTyped {α : Type} (wrap : α → Toml) (given : Option α) (configured : Option Toml) : Prop :=
  given = none ∧ ∃ value, configured = some value ∧ ∀ right, value ≠ wrap right

theorem illTyped_or_inForce {α : Type} (wrap : α → Toml) (given : Option α)
    (configured : Option Toml) (default : α) :
    IllTyped wrap given configured ∨ ∃ value, InForce wrap given configured default value := by
  cases given with
  | some value => exact .inr ⟨value, .given rfl⟩
  | none =>
      cases configured with
      | none => exact .inr ⟨default, .default rfl rfl⟩
      | some value =>
          by_cases right : ∃ inner, value = wrap inner
          · obtain ⟨inner, rfl⟩ := right
            exact .inr ⟨inner, .configured rfl rfl⟩
          · exact .inl ⟨rfl, value, rfl, fun inner same => right ⟨inner, same⟩⟩

/-- A way to read a property together with the form that it reads. -/
structure Reads {α : Type} (read : Toml → Option α) (wrap : α → Toml) : Prop where
  wrapped : ∀ value, read (wrap value) = some value
  other : ∀ value, (∀ right, value ≠ wrap right) → read value = none

theorem reads_bool? : Reads Toml.bool? .boolean where
  wrapped _ := rfl
  other value wrong := by
    cases value with
    | boolean flag => exact absurd rfl (wrong flag)
    | _ => rfl

theorem reads_int? : Reads Toml.int? .integer where
  wrapped _ := rfl
  other value wrong := by
    cases value with
    | integer number => exact absurd rfl (wrong number)
    | _ => rfl

section Property

variable {α : Type} {read : Toml → Option α} {wrap : α → Toml} {given : Option α} {default : α}
  {config : Config} {configured : Option Toml} {name : String} (reads : Reads read wrap)
  (stored : config.layout.get? name = (given.map wrap <|> configured))

include reads stored

theorem property_of_inForce (known : declared.get? name = some (wrap default)) {value : α}
    (counts : InForce wrap given configured default value) :
    config.property name read = .ok value := by
  unfold property
  rw [stored, known]
  cases counts with
  | given put => simp [put, reads.wrapped]
  | configured none put => simp [none, put, reads.wrapped]
  | default none absent => simp [none, absent, reads.wrapped]

theorem property_of_illTyped (wrong : IllTyped wrap given configured) :
    config.property name read = .error (.invalidProperty name) := by
  obtain ⟨none, value, put, wrong⟩ := wrong
  unfold property
  simp [stored, none, put, reads.other value wrong]

end Property

/-! ## Overrides in the table -/

/-- The flag for generated code, if it is given. -/
def Overrides.flag (overrides : Overrides) : Option Bool :=
  if overrides.includeGenerated then some true else none

/-- The longest allowed line, if it is given. -/
def Overrides.length (overrides : Overrides) : Option Int :=
  overrides.maximum.map Int.ofNat

/-- What a configuration has become with overrides in it. -/
structure Overridden (config : Config) (overrides : Overrides) (result : Config) : Prop where
  names : result.undeclared? = config.undeclared?
  generated : result.layout.get? includeGenerated =
    (overrides.flag.map .boolean <|> config.layout.get? includeGenerated)
  maximum : result.layout.get? maximumLineLength =
    (overrides.length.map .integer <|> config.layout.get? maximumLineLength)

theorem includeGenerated_ne : includeGenerated ≠ maximumLineLength := by
  decide

theorem overridden_maximum (config : Config) (maximum : Nat) :
    Overridden config ⟨some maximum, false⟩
      (config.withProperty maximumLineLength (.integer maximum)) where
  names := undeclared?_withProperty (.inr rfl)
  generated := Table.get?_set_of_ne _ includeGenerated_ne _
  maximum := Table.get?_set_self _ _ _

theorem Overridden.withFlag {config result : Config} {maximum : Option Nat}
    (done : Overridden config ⟨maximum, false⟩ result) :
    Overridden config ⟨maximum, true⟩ (result.withProperty includeGenerated (.boolean true)) where
  names := (undeclared?_withProperty (.inl rfl)).trans done.names
  generated := Table.get?_set_self _ _ _
  maximum := (Table.get?_set_of_ne _ includeGenerated_ne.symm _).trans done.maximum

theorem applyOverrides_eq_error_iff {config : Config} {overrides : Overrides} {failure : Failure} :
    applyOverrides config overrides = .error failure ↔
      failure = .maximumOutOfRange ∧
        ∃ maximum, overrides.maximum = some maximum ∧ signedWordBound ≤ maximum := by
  unfold applyOverrides
  cases overrides.maximum with
  | none => simp
  | some maximum =>
      by_cases fits : maximum < signedWordBound
      · simp [fits]
      · simp [fits, Nat.le_of_not_lt fits, eq_comm]

theorem applyOverrides_overridden {config result : Config} {overrides : Overrides}
    (applied : applyOverrides config overrides = .ok result) :
    Overridden config overrides result := by
  obtain ⟨maximum, flag⟩ := overrides
  have unflagged : ∃ middle, Overridden config ⟨maximum, false⟩ middle ∧
      result = if flag then middle.withProperty includeGenerated (.boolean true) else middle := by
    unfold applyOverrides at applied
    cases maximum with
    | none => exact ⟨config, ⟨rfl, rfl, rfl⟩, (Except.ok.inj applied).symm⟩
    | some maximum =>
        simp only at applied
        split at applied
        · exact ⟨_, overridden_maximum config maximum, (Except.ok.inj applied).symm⟩
        · cases applied
  obtain ⟨middle, done, rfl⟩ := unflagged
  cases flag with
  | false => exact done
  | true => exact done.withFlag

/-! ## Resolutions -/

/-- What the settings come out as, for the layout properties of a configuration and overrides. -/
inductive Resolution (layout : Table Toml) (overrides : Overrides) :
    Except ConfigError Settings → Prop where
  | undeclared {name} : name ∈ layout.keys → ¬ IsDeclared name →
      Resolution layout overrides (.error (.unknownProperty name))
  | generatedIllTyped : (∀ name ∈ layout.keys, IsDeclared name) →
      IllTyped .boolean overrides.flag (layout.get? includeGenerated) →
      Resolution layout overrides (.error (.invalidProperty includeGenerated))
  | maximumIllTyped {generated} : (∀ name ∈ layout.keys, IsDeclared name) →
      InForce .boolean overrides.flag (layout.get? includeGenerated) false generated →
      IllTyped .integer overrides.length (layout.get? maximumLineLength) →
      Resolution layout overrides (.error (.invalidProperty maximumLineLength))
  | notPositive {generated length} : (∀ name ∈ layout.keys, IsDeclared name) →
      InForce .boolean overrides.flag (layout.get? includeGenerated) false generated →
      InForce .integer overrides.length (layout.get? maximumLineLength) 120 length →
      length ≤ 0 → Resolution layout overrides (.error (.nonPositiveLineLength length))
  | settled {generated length maximum} (positive : 0 < maximum) :
      (∀ name ∈ layout.keys, IsDeclared name) →
      InForce .boolean overrides.flag (layout.get? includeGenerated) false generated →
      InForce .integer overrides.length (layout.get? maximumLineLength) 120 length →
      length = Int.ofNat maximum → Resolution layout overrides (.ok ⟨generated, maximum, positive⟩)

theorem exists_resolution (layout : Table Toml) (overrides : Overrides) :
    ∃ answer, Resolution layout overrides answer := by
  by_cases unknown : ∃ name ∈ layout.keys, ¬ IsDeclared name
  · obtain ⟨name, member, unknown⟩ := unknown
    exact ⟨_, .undeclared member unknown⟩
  have all : ∀ name ∈ layout.keys, IsDeclared name := fun name member =>
    Classical.byContradiction fun undeclared => unknown ⟨name, member, undeclared⟩
  rcases illTyped_or_inForce .boolean overrides.flag (layout.get? includeGenerated) false with
    wrong | ⟨generated, flag⟩
  · exact ⟨_, .generatedIllTyped all wrong⟩
  rcases illTyped_or_inForce .integer overrides.length (layout.get? maximumLineLength) 120 with
    wrong | ⟨length, counts⟩
  · exact ⟨_, .maximumIllTyped all flag wrong⟩
  by_cases positive : 0 < length
  · obtain ⟨maximum, rfl⟩ := Int.eq_ofNat_of_zero_le (Int.le_of_lt positive)
    exact ⟨_, .settled (by omega) all flag counts rfl⟩
  · exact ⟨_, .notPositive all flag counts (Int.not_lt.mp positive)⟩

/-- Is at most one property of the table undeclared? -/
def AtMostOneUndeclared (layout : Table Toml) : Prop :=
  ∀ one ∈ layout.keys, ∀ two ∈ layout.keys, ¬ IsDeclared one → ¬ IsDeclared two → one = two

instance (layout : Table Toml) : Decidable (AtMostOneUndeclared layout) :=
  inferInstanceAs (Decidable (∀ one ∈ layout.keys, ∀ two ∈ layout.keys, _))

theorem settings_of_resolution {config result : Config} {overrides : Overrides}
    {answer : Except ConfigError Settings} (single : AtMostOneUndeclared config.layout)
    (done : Overridden config overrides result)
    (resolution : Resolution config.layout overrides answer) : result.settings = answer := by
  have flagKnown : declared.get? includeGenerated = some (.boolean false) := rfl
  have maximumKnown : declared.get? maximumLineLength = some (.integer 120) := rfl
  cases resolution with
  | undeclared member unknown =>
      cases found : config.undeclared? with
      | none => exact absurd (undeclared?_eq_none_iff.mp found _ member) unknown
      | some first =>
          obtain ⟨member', unknown'⟩ := of_undeclared?_eq_some found
          rw [settings_of_undeclared (done.names.trans found),
            single _ member' _ member unknown' unknown]
  | generatedIllTyped all wrong =>
      rw [settings_of_declared (done.names.trans (undeclared?_eq_none_iff.mpr all)),
        property_of_illTyped reads_bool? done.generated wrong]
      rfl
  | maximumIllTyped all flag wrong =>
      rw [settings_of_declared (done.names.trans (undeclared?_eq_none_iff.mpr all)),
        property_of_inForce reads_bool? done.generated flagKnown flag,
        property_of_illTyped reads_int? done.maximum wrong]
      rfl
  | notPositive all flag counts low =>
      rw [settings_of_declared (done.names.trans (undeclared?_eq_none_iff.mpr all)),
        property_of_inForce reads_bool? done.generated flagKnown flag,
        property_of_inForce reads_int? done.maximum maximumKnown counts]
      simp [Except.bind, Settings.make?, Int.toNat_of_nonpos low]
  | settled positive all flag counts same =>
      subst same
      rw [settings_of_declared (done.names.trans (undeclared?_eq_none_iff.mpr all)),
        property_of_inForce reads_bool? done.generated flagKnown flag,
        property_of_inForce reads_int? done.maximum maximumKnown counts]
      simp [Except.bind, Settings.make?, positive]

theorem settings_eq_iff_resolution {config result : Config} {overrides : Overrides}
    (single : AtMostOneUndeclared config.layout)
    (applied : applyOverrides config overrides = .ok result)
    {answer : Except ConfigError Settings} :
    result.settings = answer ↔ Resolution config.layout overrides answer := by
  have done := applyOverrides_overridden applied
  constructor
  · rintro rfl
    obtain ⟨answer, resolution⟩ := exists_resolution config.layout overrides
    rw [settings_of_resolution single done resolution]
    exact resolution
  · exact settings_of_resolution single done

/-! ## What an override masks -/

/-- The settings for a configuration with overrides. -/
def resolve (config : Config) (overrides : Overrides) :
    Except Failure (Except ConfigError Settings) :=
  (applyOverrides config overrides).map Config.settings

theorem resolve_congr {one two : Config} {overrides : Overrides}
    (names : one.undeclared? = two.undeclared?)
    (generated : (overrides.flag.map .boolean <|> one.layout.get? includeGenerated) =
      (overrides.flag.map .boolean <|> two.layout.get? includeGenerated))
    (maximum : (overrides.length.map .integer <|> one.layout.get? maximumLineLength) =
      (overrides.length.map .integer <|> two.layout.get? maximumLineLength)) :
    resolve one overrides = resolve two overrides := by
  unfold resolve
  cases first : applyOverrides one overrides with
  | error failure =>
      have second : applyOverrides two overrides = .error failure :=
        applyOverrides_eq_error_iff.mpr (applyOverrides_eq_error_iff.mp first)
      rw [second]
  | ok result =>
      cases second : applyOverrides two overrides with
      | error failure =>
          have failed : applyOverrides one overrides = .error failure :=
            applyOverrides_eq_error_iff.mpr (applyOverrides_eq_error_iff.mp second)
          cases first.symm.trans failed
      | ok other =>
          have done := applyOverrides_overridden first
          have done' := applyOverrides_overridden second
          have same : result.settings = other.settings := by
            apply settings_congr
            · rw [done.names, done'.names, names]
            · rw [done.generated, done'.generated, generated]
            · rw [done.maximum, done'.maximum, maximum]
          exact congrArg Except.ok same

theorem resolve_of_resolution {config : Config} {overrides : Overrides}
    (single : AtMostOneUndeclared config.layout)
    (fits : ∀ maximum, overrides.maximum = some maximum → maximum < signedWordBound)
    {answer : Except ConfigError Settings}
    (resolution : Resolution config.layout overrides answer) :
    resolve config overrides = .ok answer := by
  unfold resolve
  cases applied : applyOverrides config overrides with
  | error failure =>
      obtain ⟨-, maximum, given, high⟩ := applyOverrides_eq_error_iff.mp applied
      exact absurd (fits maximum given) (Nat.not_lt.mpr high)
  | ok result =>
      exact congrArg Except.ok ((settings_eq_iff_resolution single applied).mpr resolution)

theorem resolution_of_resolve {config : Config} {overrides : Overrides}
    (single : AtMostOneUndeclared config.layout) {answer : Except ConfigError Settings}
    (resolved : resolve config overrides = .ok answer) :
    (∀ maximum, overrides.maximum = some maximum → maximum < signedWordBound) ∧
      Resolution config.layout overrides answer := by
  unfold resolve at resolved
  cases applied : applyOverrides config overrides with
  | error failure =>
      rw [applied] at resolved
      cases resolved
  | ok result =>
      rw [applied] at resolved
      constructor
      · intro maximum given
        apply Nat.lt_of_not_le
        intro high
        have failed : applyOverrides config overrides = .error .maximumOutOfRange :=
          applyOverrides_eq_error_iff.mpr ⟨rfl, maximum, given, high⟩
        cases applied.symm.trans failed
      · exact (settings_eq_iff_resolution single applied).mp (Except.ok.inj resolved)

section Masking

variable {layout : Table Toml} {maximum : Option Nat} {error : ConfigError}

theorem Resolution.error_withMaximum {flag : Bool} {given : Nat}
    (before : Resolution layout ⟨none, flag⟩ (.error error))
    (typed : error ≠ .invalidProperty maximumLineLength)
    (positive : ∀ length, error ≠ .nonPositiveLineLength length) :
    Resolution layout ⟨some given, flag⟩ (.error error) := by
  cases before with
  | undeclared member unknown => exact .undeclared member unknown
  | generatedIllTyped all wrong => exact .generatedIllTyped all wrong
  | maximumIllTyped => exact absurd rfl typed
  | notPositive => exact absurd rfl (positive _)

theorem Resolution.error_withFlag
    (before : Resolution layout ⟨maximum, false⟩ (.error error))
    (typed : error ≠ .invalidProperty includeGenerated) :
    Resolution layout ⟨maximum, true⟩ (.error error) := by
  cases before with
  | undeclared member unknown => exact .undeclared member unknown
  | generatedIllTyped => exact absurd rfl typed
  | maximumIllTyped all _ wrong => exact .maximumIllTyped all (.given rfl) wrong
  | notPositive all _ counts low => exact .notPositive all (.given rfl) counts low

end Masking

theorem signedWordBound_le_iff {maximum : Nat} :
    signedWordBound ≤ maximum ↔ 2 ^ 63 - 1 < maximum := by
  unfold signedWordBound
  omega

/-- Overrides fail exactly for a maximum that is out of range; otherwise the settings come out as the
resolution of the configured properties. An override hides the configured value of its property,
whatever it is, and no error of another kind. -/
theorem settings_resolution (config : Config) (overrides : Overrides)
    (single : AtMostOneUndeclared config.layout) :
    (∀ failure, applyOverrides config overrides = .error failure ↔
      failure = .maximumOutOfRange ∧
        ∃ maximum, overrides.maximum = some maximum ∧ 2 ^ 63 - 1 < maximum) ∧
    (∀ result, applyOverrides config overrides = .ok result → ∀ answer,
      result.settings = answer ↔ Resolution config.layout overrides answer) ∧
    (∀ maximum, overrides.maximum = some maximum →
      (∀ value, resolve (config.withProperty maximumLineLength value) overrides =
        resolve config overrides) ∧
      ∀ error, maximum ≤ 2 ^ 63 - 1 →
        resolve config { overrides with maximum := none } = .ok (.error error) →
        error ≠ .invalidProperty maximumLineLength →
        (∀ length, error ≠ .nonPositiveLineLength length) →
        resolve config overrides = .ok (.error error)) ∧
    (overrides.includeGenerated = true →
      (∀ value, resolve (config.withProperty includeGenerated value) overrides =
        resolve config overrides) ∧
      ∀ error, resolve config { overrides with includeGenerated := false } = .ok (.error error) →
        error ≠ .invalidProperty includeGenerated →
        resolve config overrides = .ok (.error error)) := by
  refine ⟨fun failure => ?_, fun result applied answer => settings_eq_iff_resolution single applied,
    fun maximum given => ⟨fun value => ?_, fun error fits before typed positive => ?_⟩,
    fun given => ⟨fun value => ?_, fun error before typed => ?_⟩⟩
  · simp only [applyOverrides_eq_error_iff, signedWordBound_le_iff]
  · apply resolve_congr (undeclared?_withProperty (.inr rfl))
    · rw [withProperty, Table.get?_set_of_ne _ includeGenerated_ne]
    · simp [Overrides.length, given]
  · obtain ⟨-, resolution⟩ := resolution_of_resolve single before
    obtain ⟨_, flag⟩ := overrides
    subst given
    refine resolve_of_resolution single ?_ (resolution.error_withMaximum typed positive)
    intro _ same
    rw [← Option.some.inj same, ← Nat.not_le, signedWordBound_le_iff]
    exact Nat.not_lt.mpr fits
  · apply resolve_congr (undeclared?_withProperty (.inl rfl))
    · simp [Overrides.flag, given]
    · rw [withProperty, Table.get?_set_of_ne _ includeGenerated_ne.symm]
  · obtain ⟨fits, resolution⟩ := resolution_of_resolve single before
    obtain ⟨maximum, _⟩ := overrides
    subst given
    refine resolve_of_resolution single ?_ (resolution.error_withFlag typed)
    exact fits

/-- A text for the flag, and no line may have a character. -/
def misconfigured : Config :=
  { Config.default with
    layout := [(includeGenerated, .string "no"), (maximumLineLength, .integer 0)] }

theorem settings_resolution_misconfigured :
    applyOverrides misconfigured ⟨some (2 ^ 63), true⟩ = .error .maximumOutOfRange ∧
      resolve misconfigured ⟨none, false⟩ = .ok (.error (.invalidProperty includeGenerated)) ∧
      resolve misconfigured ⟨some 80, false⟩ = .ok (.error (.invalidProperty includeGenerated)) ∧
      resolve misconfigured ⟨none, true⟩ = .ok (.error (.nonPositiveLineLength 0)) ∧
      ∃ result, applyOverrides misconfigured ⟨some 80, true⟩ = .ok result ∧
        result.settings = .ok ⟨true, 80, by decide⟩ := by
  have single : AtMostOneUndeclared misconfigured.layout := by decide
  obtain ⟨failures, -⟩ := settings_resolution misconfigured ⟨some (2 ^ 63), true⟩ single
  obtain ⟨-, settled, -⟩ := settings_resolution misconfigured ⟨some 80, true⟩ single
  obtain ⟨-, -, masked, -⟩ := settings_resolution misconfigured ⟨some 80, false⟩ single
  have bare : resolve misconfigured ⟨none, false⟩ =
      .ok (.error (.invalidProperty includeGenerated)) := rfl
  refine ⟨(failures _).mpr ⟨rfl, _, rfl, by decide⟩, bare, ?_, rfl, _, rfl,
    (settled _ rfl _).mpr ?_⟩
  · exact (masked 80 rfl).2 _ (by decide) bare (by decide) (fun length => by simp)
  · exact .settled (by decide) (by decide) (.given rfl) (.given rfl) rfl

end Cli

end TokenLayout
