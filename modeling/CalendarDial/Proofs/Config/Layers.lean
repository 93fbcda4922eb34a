import Mathlib.Tactic.FinCases
import CalendarDial.Config.Layers
import CalendarDial.Proofs.Config.Merge

/-!
# Settings read from a value

A value gives settings exactly if each of the four paths leads to something that can be read for its
setting, and each setting is then read from its own path alone.
-/

namespace CalendarDial.Config

/-- What names an engine is the text of its name, for the two names are different. -/
theorem engine?_eq_some_iff (value : Value) (engine : Engine) :
    engine? value = some engine ↔ value = .text engine.name := by
  cases value with
  | text name => cases engine <;> grind [engine?, Engine.name]
  | _ => exact iff_of_false nofun nofun

/-- What names a policy is the text of its name, for the names are different. -/
theorem policy?_eq_some_iff (value : Value) (policy : FailurePolicy) :
    policy? value = some policy ↔ value = .text policy.name := by
  cases value with
  | text name => cases policy <;> grind [policy?, FailurePolicy.name]
  | _ => exact iff_of_false nofun nofun

/-- What is a number is an integer in its range, which starts at zero. -/
theorem nat?_eq_some_iff (greatest : Nat) (value : Value) (n : Nat) :
    nat? greatest value = some n ↔ value = .int n ∧ n ≤ greatest := by
  cases value with
  | int number =>
    rw [nat?, Option.ite_none_right_eq_some, Option.some.injEq, Value.int.injEq]
    omega
  | _ => simp [nat?]

/-- The settings are what the paths lead to, and the numbers among them are in range. -/
structure GivenBy (at? : List String → Option Value) (settings : Settings) : Prop where
  primary : at? ["layout", "primary"] = some (.text settings.layout.primary.name)
  onSolverFailure : at? ["layout", "on_solver_failure"] =
    some (.text settings.layout.onSolverFailure.name)
  maxLevel : at? ["layout", "max_level"] = some (.int settings.layout.maxLevel)
  tickSeconds : at? ["tick_secs"] = some (.int settings.tickSeconds)
  levels : settings.layout.maxLevel ≤ Json.greatest32
  seconds : settings.tickSeconds ≤ Json.greatest64

/-- Three values give layout settings exactly if each of them can be read for its own. No default
comes in, because all three values are given. -/
theorem layoutOf?_eq_some_iff (primary policy level : Value) (settings : LayoutSettings) :
    layoutOf? (some primary) (some policy) (some level) = some settings ↔
      primary = .text settings.primary.name ∧ policy = .text settings.onSolverFailure.name ∧
        level = .int settings.maxLevel ∧ settings.maxLevel ≤ Json.greatest32 := by
  simp only [layoutOf?, orDefault, Option.bind_eq_bind, Option.bind_eq_some_iff, Option.pure_def,
    Option.some.injEq, engine?_eq_some_iff, policy?_eq_some_iff, nat?_eq_some_iff]
  constructor
  · rintro ⟨engine, rfl, onFailure, rfl, maxLevel, ⟨rfl, fits⟩, rfl⟩
    exact ⟨rfl, rfl, rfl, fits⟩
  · rintro ⟨rfl, rfl, rfl, fits⟩
    exact ⟨_, rfl, _, rfl, _, ⟨rfl, fits⟩, rfl⟩

/-- A value in which all paths lead somewhere gives settings exactly if they are what the paths lead
to. The table of layout settings is there, because a path leads through it, so no default is
taken. -/
theorem settings?_eq_some_iff (value : Value) (settings : Settings)
    (tables : value.OpenTo ["layout", "primary"])
    (primary : (value.at? ["layout", "primary"]).isSome = true)
    (policy : (value.at? ["layout", "on_solver_failure"]).isSome = true)
    (level : (value.at? ["layout", "max_level"]).isSome = true)
    (ticks : (value.at? ["tick_secs"]).isSome = true) :
    settings? value = some settings ↔ GivenBy (fun path => value.at? path) settings := by
  obtain ⟨entries, rfl, inner⟩ := tables
  cases found : lookup "layout" entries with
  | none =>
    rw [Value.at?, found] at primary
    cases primary
  | some layout =>
    obtain ⟨inside, rfl, -⟩ := inner layout found
    have within (key : String) : (Value.table entries).at? ["layout", key] = lookup key inside := by
      rw [Value.at?_cons "layout" [key] entries _ found, Value.at?_singleton]
    simp only [within, Value.at?_singleton, Option.isSome_iff_exists] at primary policy level ticks
    obtain ⟨engine, primary⟩ := primary
    obtain ⟨onFailure, policy⟩ := policy
    obtain ⟨maxLevel, level⟩ := level
    obtain ⟨seconds, ticks⟩ := ticks
    simp only [settings?, found, ticks, orDefault, layout?, primary, policy, level,
      Option.bind_eq_bind, Option.bind_eq_some_iff, Option.pure_def, Option.some.injEq,
      layoutOf?_eq_some_iff, nat?_eq_some_iff]
    constructor
    · rintro ⟨layout, ⟨rfl, rfl, rfl, levels⟩, seconds, ⟨rfl, fits⟩, rfl⟩
      exact ⟨(within _).trans primary, (within _).trans policy, (within _).trans level,
        (Value.at?_singleton _ _).trans ticks, levels, fits⟩
    · rintro ⟨primaryGiven, policyGiven, levelGiven, ticksGiven, levels, fits⟩
      rw [within, primary, Option.some.injEq] at primaryGiven
      rw [within, policy, Option.some.injEq] at policyGiven
      rw [within, level, Option.some.injEq] at levelGiven
      rw [Value.at?_singleton, ticks, Option.some.injEq] at ticksGiven
      exact ⟨_, ⟨primaryGiven, policyGiven, levelGiven, levels⟩, _, ⟨ticksGiven, fits⟩, rfl⟩

/-- The paths of all settings. -/
def settingPaths : List (List String) :=
  [["layout", "primary"], ["layout", "on_solver_failure"], ["layout", "max_level"], ["tick_secs"]]

/-- Only what the paths of settings lead to matters, and only where it is no table. A setting is a
number or a text, and so no table. -/
theorem GivenBy.imp {at? other : List String → Option Value} {settings : Settings}
    (given : GivenBy at? settings)
    (same : ∀ path ∈ settingPaths, ∀ value, (∀ entries, value ≠ .table entries) →
      at? path = some value → other path = some value) : GivenBy other settings where
  primary := same _ (by decide) _ nofun given.primary
  onSolverFailure := same _ (by decide) _ nofun given.onSolverFailure
  maxLevel := same _ (by decide) _ nofun given.maxLevel
  tickSeconds := same _ (by decide) _ nofun given.tickSeconds
  levels := given.levels
  seconds := given.seconds

/-- In the defaults there are only tables on the path of a setting, and it leads to a value. There
are four such paths, and each is looked at. -/
theorem defaults_at_settingPaths (path : List String) (setting : path ∈ settingPaths) :
    defaults.OpenTo path ∧ (defaults.at? path).isSome = true := by
  have inLayout (key : String) : defaults.OpenTo ["layout", key] :=
    ⟨_, rfl, fun inner found => ⟨_, (Option.some.inj found).symm, fun _ _ => trivial⟩⟩
  fin_cases setting
  · exact ⟨inLayout _, rfl⟩
  · exact ⟨inLayout _, rfl⟩
  · exact ⟨inLayout _, rfl⟩
  · exact ⟨⟨_, rfl, fun _ _ => trivial⟩, rfl⟩

/-- Layers give settings exactly if these are what the last layers give that give anything on their
paths, the defaults being the first layer. The defaults give something on each path, so the merged
layers do too; and what they lead to there is the last thing given, unless that is a table, which no
setting is. -/
theorem ofLayers?_eq_some_iff (layers : List Value) (settings : Settings)
    (regular : ∀ layer ∈ layers, ∀ path ∈ settingPaths, IsLayer path layer) :
    ofLayers? layers = some settings ↔
      GivenBy (fun path => lastAt? path (defaults :: layers)) settings := by
  have each (path : List String) (setting : path ∈ settingPaths) :
      ∀ layer ∈ layers, IsLayer path layer :=
    fun layer present => regular layer present path setting
  have given (path : List String) (setting : path ∈ settingPaths) :
      ((layers.foldl Value.merge defaults).at? path).isSome = true :=
    have ⟨lower, found⟩ := defaults_at_settingPaths path setting
    isSome_at?_foldl_merge path layers defaults lower (each path setting) found
  have tables := openTo_foldl_merge ["layout", "primary"] layers defaults
    (defaults_at_settingPaths _ (by decide)).1 (each _ (by decide))
  rw [ofLayers?, settings?_eq_some_iff _ settings tables (given _ (by decide)) (given _ (by decide))
    (given _ (by decide)) (given _ (by decide))]
  have same (path : List String) (setting : path ∈ settingPaths) (value : Value)
      (plain : ∀ entries, value ≠ .table entries) :=
    at?_foldl_merge_eq_some_iff path layers defaults value
      (defaults_at_settingPaths path setting).1 (each path setting) plain
  constructor
  · exact fun given => given.imp fun path setting value plain => (same path setting value plain).mp
  · exact fun given => given.imp fun path setting value plain => (same path setting value plain).mpr

end CalendarDial.Config
