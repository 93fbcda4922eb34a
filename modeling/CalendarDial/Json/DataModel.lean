import CalendarDial.Json.Coded
import CalendarDial.Outcome

/-!
# The data model in JSON

How events, layouts, windows, outcomes and settings are written. A leveled event is one flat object
and cannot be given as an array. A violation carries its kind next to its fields. An outcome without
violations leaves the list out, and a setting that is missing has its default.
-/

namespace CalendarDial.Json

open CalendarDial.Json.Tree (ofInt ofNat ofText ofMembers)

instance : Coded RawEvent where
  toTree event := ofMembers [
    ("start_ms", ofInt event.startMs), ("end_ms", ofInt event.endMs),
    ("color", ofNat event.color)]
  ofTree? _ tree := do
    let [some startMs, some endMs, some color] ← tree.fields? ["start_ms", "end_ms", "color"]
      | none
    pure ⟨← startMs.instant?, ← endMs.instant?, ← color.nat? greatest32⟩

instance : Coded ClippedEvent where
  toTree event := ofMembers [
    ("start_ms", ofInt event.startMs), ("end_ms", ofInt event.endMs),
    ("color", ofNat event.color)]
  ofTree? _ tree := do
    let [some startMs, some endMs, some color] ← tree.fields? ["start_ms", "end_ms", "color"]
      | none
    pure ⟨← startMs.instant?, ← endMs.instant?, ← color.nat? greatest32⟩

instance : Coded LeveledEvent where
  toTree leveled := ofMembers [
    ("start_ms", ofInt leveled.event.startMs), ("end_ms", ofInt leveled.event.endMs),
    ("color", ofNat leveled.event.color),
    ("min_level", ofNat leveled.minLevel), ("max_level", ofNat leveled.maxLevel)]
  ofTree? around
    | .object members => do
      let tree := Tree.object members
      if tree.readable around then
        let [some startMs, some endMs, some color, some minLevel, some maxLevel] ←
            tree.fields? ["start_ms", "end_ms", "color", "min_level", "max_level"]
          | none
        let event : ClippedEvent :=
          ⟨← startMs.instant?, ← endMs.instant?, ← color.nat? greatest32⟩
        pure ⟨event, ← minLevel.nat? greatest32, ← maxLevel.nat? greatest32⟩
      else
        none
    | _ => none

instance : Coded Layout where
  toTree layout := ofMembers [
    ("events", Coded.toTree layout.events), ("max_level", ofNat layout.maxLevel)]
  ofTree? around tree := do
    let [some events, some maxLevel] ← tree.fields? ["events", "max_level"]
      | none
    pure ⟨← Coded.ofTree? (around + 1) events, ← maxLevel.nat? greatest32⟩

instance : Coded Window where
  toTree window := ofMembers [
    ("start_ms", ofInt window.startMs), ("end_ms", ofInt window.endMs),
    ("utc_offset_ms", ofInt window.utcOffsetMs)]
  ofTree? _ tree := do
    let [some startMs, some endMs, some utcOffsetMs] ←
        tree.fields? ["start_ms", "end_ms", "utc_offset_ms"]
      | none
    pure ⟨← startMs.instant?, ← endMs.instant?, ← utcOffsetMs.instant?⟩

instance : Coded Engine where
  toTree engine := ofText engine.name
  ofTree? _ tree :=
    tree.choice? [(Engine.constraint.name, .constraint), (Engine.greedy.name, .greedy)]

instance : Coded FailurePolicy where
  toTree policy := ofText policy.name
  ofTree? _ tree :=
    tree.choice? [(FailurePolicy.greedy.name, .greedy), (FailurePolicy.empty.name, .empty)]

/-- A kind of violation: its name, the names of its fields, and how it is made from their values. -/
structure ViolationKind where
  name : String
  fields : List String
  ofFields? : List (Option Tree) → Option Violation

/-- The kinds of violation. Positions are 64-bit numbers, levels 32-bit ones. -/
def violationKinds : List ViolationKind := [
  { name := "inverted_band"
    fields := ["index", "min_level", "max_level"]
    ofFields? := fun
      | [some index, some minLevel, some maxLevel] => do
        pure (.invertedBand (← index.nat? greatest64) (← minLevel.nat? greatest32)
          (← maxLevel.nat? greatest32))
      | _ => none },
  { name := "above_global_max"
    fields := ["index", "max_level", "global_max"]
    ofFields? := fun
      | [some index, some maxLevel, some globalMax] => do
        pure (.aboveGlobalMax (← index.nat? greatest64) (← maxLevel.nat? greatest32)
          (← globalMax.nat? greatest32))
      | _ => none },
  { name := "shared_level"
    fields := ["first", "second"]
    ofFields? := fun
      | [some first, some second] => do
        pure (.sharedLevel (← first.nat? greatest64) (← second.nat? greatest64))
      | _ => none }]

/-- The kind with the given name. -/
def violationKind? (tree : Tree) : Option ViolationKind := do
  let name ← tree.text?
  violationKinds.find? fun kind => kind.name.toList = name

instance : Coded Violation where
  toTree
    | .invertedBand index minLevel maxLevel => ofMembers [
      ("kind", ofText "inverted_band"), ("index", ofNat index),
      ("min_level", ofNat minLevel), ("max_level", ofNat maxLevel)]
    | .aboveGlobalMax index maxLevel globalMax => ofMembers [
      ("kind", ofText "above_global_max"), ("index", ofNat index),
      ("max_level", ofNat maxLevel), ("global_max", ofNat globalMax)]
    | .sharedLevel first second => ofMembers [
      ("kind", ofText "shared_level"), ("first", ofNat first), ("second", ofNat second)]
  ofTree? around tree :=
    if tree.readable around then
      match tree with
      | .object _ => do
        let [some tag] ← tree.fields? ["kind"]
          | none
        let kind ← violationKind? tag
        kind.ofFields? (← tree.fields? kind.fields)
      | .array (tag :: items) => do
        let kind ← violationKind? tag
        kind.ofFields? (← (Tree.array items).fields? kind.fields)
      | _ => none
    else
      none

instance : Coded LayoutOutcome where
  toTree outcome := ofMembers <|
    [("result", Coded.toTree outcome.layout), ("engine", Coded.toTree outcome.engine),
      ("fell_back", .bool outcome.fellBack)] ++
    (if outcome.violations.isEmpty then []
      else [("violations", Coded.toTree outcome.violations)])
  ofTree? around tree := do
    let [some layout, some engine, some fellBack, violations] ←
        tree.fields? ["result", "engine", "fell_back", "violations"]
      | none
    pure ⟨← Coded.ofTree? (around + 1) layout, ← Coded.ofTree? (around + 1) engine,
      ← fellBack.bool?,
      ← match violations with
        | none => pure []
        | some violations => Coded.ofTree? (around + 1) violations⟩

/-- A field that is given, or its default. -/
def orDefault {α : Type} (field : Option Tree) (default : α) (read : Tree → Option α) : Option α :=
  match field with
  | none => some default
  | some tree => read tree

instance : Coded LayoutSettings where
  toTree settings := ofMembers [
    ("primary", Coded.toTree settings.primary),
    ("on_solver_failure", Coded.toTree settings.onSolverFailure),
    ("max_level", ofNat settings.maxLevel)]
  ofTree? around tree := do
    let [primary, onSolverFailure, maxLevel] ←
        tree.fields? ["primary", "on_solver_failure", "max_level"]
      | none
    let defaults : LayoutSettings := {}
    pure {
      primary := ← orDefault primary defaults.primary (Coded.ofTree? (around + 1))
      onSolverFailure :=
        ← orDefault onSolverFailure defaults.onSolverFailure (Coded.ofTree? (around + 1))
      maxLevel := ← orDefault maxLevel defaults.maxLevel (Tree.nat? greatest32) }

instance : Coded Settings where
  toTree settings := ofMembers [
    ("layout", Coded.toTree settings.layout), ("tick_secs", ofNat settings.tickSeconds)]
  ofTree? around tree := do
    let [layout, tickSeconds] ← tree.fields? ["layout", "tick_secs"]
      | none
    let defaults : Settings := {}
    pure {
      layout := ← orDefault layout defaults.layout (Coded.ofTree? (around + 1))
      tickSeconds := ← orDefault tickSeconds defaults.tickSeconds (Tree.nat? greatest64) }

end CalendarDial.Json
