import CalendarDial.Config.Sources
import CalendarDial.Proofs.Config.Environment
import CalendarDial.Proofs.Config.Layers
import CalendarDial.Proofs.Toml.Document

/-!
# Each setting for itself

Files and environments denote tables in which no key is repeated. So if they have a table, or
nothing, where the layout settings belong, then every setting is what the last of them says about
it. What they say about other settings makes no difference, nor does what has been overruled.
-/

namespace CalendarDial.Config

/-- Where the layout settings belong there is a table, or nothing. -/
def HasLayoutTable (layer : Value) : Prop :=
  ∀ layout, layer.at? ["layout"] = some layout → ∃ entries, layout = .table entries

/-- It is enough to look at what is there, and so it can be decided. -/
theorem hasLayoutTable_iff (layer : Value) :
    HasLayoutTable layer ↔ (layer.at? ["layout"]).all (· matches .table _) = true := by
  rw [HasLayoutTable]
  cases layer.at? ["layout"] with
  | none => exact iff_of_true nofun rfl
  | some layout =>
    cases layout with
    | table entries =>
      exact iff_of_true (fun _ found => ⟨entries, (Option.some.inj found).symm⟩) rfl
    | _ => simp

instance (layer : Value) : Decidable (HasLayoutTable layer) :=
  decidable_of_iff _ (hasLayoutTable_iff layer).symm

/-- A table without repeated keys that has a table of layout settings, or none, is a layer for each
setting. Three of the paths lead through that table, and the fourth ends at its first key. -/
theorem isLayer_of_hasLayoutTable (layer : Value)
    (table : ∃ entries, layer = .table entries ∧ layer.Distinct) (layout : HasLayoutTable layer)
    (path : List String) (setting : path ∈ settingPaths) : IsLayer path layer := by
  obtain ⟨entries, rfl, distinct⟩ := table
  have inLayout (key : String) : (Value.table entries).OpenTo ["layout", key] := by
    refine ⟨entries, rfl, fun inner found => ?_⟩
    obtain ⟨inside, rfl⟩ := layout inner (by rw [Value.at?_singleton, found])
    exact ⟨inside, rfl, fun _ _ => trivial⟩
  refine ⟨?_, distinct⟩
  fin_cases setting
  · exact inLayout _
  · exact inLayout _
  · exact inLayout _
  · exact ⟨entries, rfl, fun _ _ => trivial⟩

namespace Sources

/-- A file gives a table in which no key is repeated. A file that is missing gives the empty one. -/
theorem table_of_fileLayer? (file : Option ByteArray) (layer : Value)
    (given : fileLayer? file = some layer) :
    ∃ entries, layer = .table entries ∧ layer.Distinct := by
  cases file with
  | none =>
    cases given
    exact ⟨[], rfl, (Value.distinct_table_iff []).mpr .nil⟩
  | some content =>
    obtain ⟨text, -, parsed⟩ := Option.bind_eq_some_iff.mp given
    exact Toml.table_of_parse? text layer parsed

/-- The layers that there are when both files can be read, from the bottom to the top. -/
def layers (sources : Sources) (user named : Value) : List Value :=
  [defaults, user, named, ofEnvironment sources.environment]

/-- Settings are layered each for itself. When both files can be read, and every layer has a table
or nothing where the layout settings belong, there are settings exactly if for each of the four the
last layer that says anything about it says something that can be read for it. Then each setting is
what that layer says. A table in the place of a setting cannot be read for it. -/
theorem each_setting_from_last_layer (sources : Sources) (user named : Value)
    (userRead : fileLayer? sources.userFile = some user)
    (namedRead : fileLayer? sources.namedFile = some named)
    (userTable : HasLayoutTable user) (namedTable : HasLayoutTable named)
    (environmentTable : HasLayoutTable (ofEnvironment sources.environment)) :
    let last := fun path => lastAt? path (sources.layers user named)
    ((∃ settings, sources.settings? = some settings) ↔
      (∃ engine : Engine, last ["layout", "primary"] = some (.text engine.name)) ∧
      (∃ policy : FailurePolicy,
        last ["layout", "on_solver_failure"] = some (.text policy.name)) ∧
      (∃ level : Nat, last ["layout", "max_level"] = some (.int level) ∧
        level ≤ Json.greatest32) ∧
      ∃ seconds : Nat, last ["tick_secs"] = some (.int seconds) ∧ seconds ≤ Json.greatest64) ∧
    ∀ settings, sources.settings? = some settings ↔ GivenBy last settings := by
  intro last
  have regular : ∀ layer ∈ [user, named, ofEnvironment sources.environment],
      ∀ path ∈ settingPaths, IsLayer path layer := by
    simp only [List.forall_mem_cons]
    exact ⟨isLayer_of_hasLayoutTable user (table_of_fileLayer? _ user userRead) userTable,
      isLayer_of_hasLayoutTable named (table_of_fileLayer? _ named namedRead) namedTable,
      isLayer_of_hasLayoutTable _ (table_ofEnvironment sources.environment) environmentTable,
      nofun⟩
  have each (settings : Settings) : sources.settings? = some settings ↔ GivenBy last settings := by
    simp only [settings?, userRead, namedRead, Option.bind_eq_bind, Option.bind_some]
    exact ofLayers?_eq_some_iff _ settings regular
  refine ⟨?_, each⟩
  simp only [each]
  constructor
  · rintro ⟨settings, given⟩
    exact ⟨⟨_, given.primary⟩, ⟨_, given.onSolverFailure⟩, ⟨_, given.maxLevel, given.levels⟩,
      _, given.tickSeconds, given.seconds⟩
  · rintro ⟨⟨engine, primary⟩, ⟨policy, onSolverFailure⟩, ⟨level, maxLevel, levels⟩, ticks,
      tickSeconds, seconds⟩
    exact ⟨⟨⟨engine, policy, level⟩, ticks⟩, primary, onSolverFailure, maxLevel, tickSeconds,
      levels, seconds⟩

/-- The user's file has a level axis that is no number, which the other file replaces, and an engine
that the environment replaces. Its seconds stay, as nothing else says anything about them. -/
theorem each_setting_from_last_layer_of_overruled_text :
    let userFile :=
      "tick_secs = 5\nspare = 1\n[layout]\nprimary = \"greedy\"\nmax_level = \"many\"\n"
    let namedFile := "[layout]\non_solver_failure = \"empty\"\nmax_level = 7\n"
    let sources : Sources := ⟨some userFile.toUTF8, some namedFile.toUTF8,
      [("PATH", "/bin"), ("CALFACE_LAYOUT__PRIMARY", "constraint")]⟩
    ∃ user named, fileLayer? sources.userFile = some user ∧
      fileLayer? sources.namedFile = some named ∧ HasLayoutTable user ∧ HasLayoutTable named ∧
      HasLayoutTable (ofEnvironment sources.environment) ∧
      (∃ level : Nat, lastAt? ["layout", "max_level"] (sources.layers user named) =
        some (.int level) ∧ level ≤ Json.greatest32) ∧
      GivenBy (fun path => lastAt? path (sources.layers user named))
        ⟨⟨.constraint, .empty, 7⟩, 5⟩ := by
  intro userFile namedFile sources
  have userLayer : (fileLayer? sources.userFile).any (HasLayoutTable ·) = true := by decide +kernel
  have namedLayer : (fileLayer? sources.namedFile).any (HasLayoutTable ·) = true := by
    decide +kernel
  obtain ⟨user, userRead, userTable⟩ := (Option.any_eq_true _ _).mp userLayer
  obtain ⟨named, namedRead, namedTable⟩ := (Option.any_eq_true _ _).mp namedLayer
  rw [decide_eq_true_iff] at userTable namedTable
  have environmentTable : HasLayoutTable (ofEnvironment sources.environment) := by decide +kernel
  have settings : sources.settings? = some ⟨⟨.constraint, .empty, 7⟩, 5⟩ := by decide +kernel
  obtain ⟨readable, each⟩ := each_setting_from_last_layer sources user named userRead namedRead
    userTable namedTable environmentTable
  obtain ⟨-, -, level, -⟩ := readable.mp ⟨_, settings⟩
  exact ⟨user, named, userRead, namedRead, userTable, namedTable, environmentTable, level,
    (each _).mp settings⟩

end Sources

end CalendarDial.Config
