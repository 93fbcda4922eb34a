import CalendarDial.Json.DataModel
import CalendarDial.Proofs.Json.Coded

/-!
# The data model survives as JSON

A number of the data model is an instant of 64 bits, a color or a level of 32 bits, or a position or
a number of seconds of 64 bits. With such numbers every event, layout, window, violation, outcome
and setting is read back from its text as it was, whatever is flattened, tagged or left out on the
way, and nothing else is ever read.
-/

namespace CalendarDial

open Json (greatest32 greatest64)

section InRange

/-- The numbers of a raw event fit into their fields. -/
structure RawEvent.InRange (event : RawEvent) : Prop where
  startMs : Instant.Representable event.startMs
  endMs : Instant.Representable event.endMs
  color : event.color ≤ greatest32

/-- The numbers of a clipped event fit into their fields. -/
def ClippedEvent.InRange (event : ClippedEvent) : Prop := event.toRaw.InRange

/-- The numbers of a leveled event fit into their fields. -/
structure LeveledEvent.InRange (leveled : LeveledEvent) : Prop where
  event : leveled.event.InRange
  minLevel : leveled.minLevel ≤ greatest32
  maxLevel : leveled.maxLevel ≤ greatest32

/-- The numbers of a layout fit into their fields. -/
structure Layout.InRange (layout : Layout) : Prop where
  events : ∀ leveled ∈ layout.events, leveled.InRange
  maxLevel : layout.maxLevel ≤ greatest32

/-- The numbers of a window fit into their fields. -/
structure Window.InRange (window : Window) : Prop where
  startMs : Instant.Representable window.startMs
  endMs : Instant.Representable window.endMs
  utcOffsetMs : Instant.Representable window.utcOffsetMs

/-- The positions of a violation fit into 64 bits and its levels into 32. -/
def Violation.InRange : Violation → Prop
  | invertedBand index minLevel maxLevel =>
    index ≤ greatest64 ∧ minLevel ≤ greatest32 ∧ maxLevel ≤ greatest32
  | aboveGlobalMax index maxLevel globalMax =>
    index ≤ greatest64 ∧ maxLevel ≤ greatest32 ∧ globalMax ≤ greatest32
  | sharedLevel first second => first ≤ greatest64 ∧ second ≤ greatest64

/-- The numbers of an outcome fit into their fields. -/
structure LayoutOutcome.InRange (outcome : LayoutOutcome) : Prop where
  layout : outcome.layout.InRange
  violations : ∀ violation ∈ outcome.violations, violation.InRange

/-- The end of the axis fits into its field. -/
def LayoutSettings.InRange (settings : LayoutSettings) : Prop := settings.maxLevel ≤ greatest32

/-- The numbers of the settings fit into their fields. -/
structure Settings.InRange (settings : Settings) : Prop where
  layout : settings.layout.InRange
  tickSeconds : settings.tickSeconds ≤ greatest64

end InRange

namespace Json

open CalendarDial.Json.Tree

/-- Raw events are read back. The three members have different names, so each field is found, and
each number is in its range. -/
theorem lawful_rawEvent : Lawful RawEvent RawEvent.InRange 1 where
  spelled event := spelled_ofMembers _ (by simp)
  read event fits around _ := by
    have fields : (Coded.toTree event).fields? ["start_ms", "end_ms", "color"] =
        some [some (ofInt event.startMs), some (ofInt event.endMs), some (ofNat event.color)] :=
      fields?_ofMembers _ _ (by simp)
    simp [Coded.ofTree?, fields, instant?_ofInt, nat?_ofNat, fits.startMs, fits.endMs, fits.color]
  inRange around tree event read := by
    obtain ⟨fields, -, read⟩ := Option.bind_eq_some_iff.mp read
    split at read
    · simp only [Option.bind_eq_bind, Option.bind_eq_some_iff] at read
      obtain ⟨startMs, first, endMs, last, color, hue, same⟩ := read
      cases same
      exact ⟨representable_of_instant? _ _ first, representable_of_instant? _ _ last,
        le_of_nat? _ _ _ hue⟩
    · cases read

/-- A clipped event is read like a raw event with its times. Both are read from the same three
fields in the same way. -/
theorem ofTree?_toRaw (around : Nat) (tree : Tree) :
    (Coded.ofTree? around tree : Option RawEvent) =
      (Coded.ofTree? around tree : Option ClippedEvent).map ClippedEvent.toRaw := by
  simp only [Coded.ofTree?, Option.bind_eq_bind, Option.map_bind, Function.comp_def]
  congr 1
  funext fields
  split
  · simp only [Option.map_bind, Function.comp_def]
    rfl
  · rfl

/-- Clipped events are read back. What is known of raw events carries over, since the two are
written and read alike. -/
theorem lawful_clippedEvent : Lawful ClippedEvent ClippedEvent.InRange 1 where
  spelled event := lawful_rawEvent.spelled event.toRaw
  read event fits around room := by
    have raw := lawful_rawEvent.read event.toRaw fits around room
    rw [ofTree?_toRaw] at raw
    obtain ⟨read, made, same⟩ := Option.map_eq_some_iff.mp raw
    cases read
    cases event
    cases same
    exact made
  inRange around tree event read := by
    refine lawful_rawEvent.inRange around tree event.toRaw ?_
    rw [ofTree?_toRaw, read, Option.map_some]

/-- Leveled events are read back, although they are looked at as a whole. The tree is an object of
plain members, so looking at it finds nothing wrong, and it is then read by its fields. -/
theorem lawful_leveledEvent : Lawful LeveledEvent LeveledEvent.InRange 1 where
  spelled leveled := spelled_ofMembers _ (by simp)
  read leveled fits around room := by
    obtain ⟨⟨startMs, endMs, color⟩, minLevel, maxLevel⟩ := fits
    dsimp only [ClippedEvent.toRaw] at startMs endMs color
    have readable : (Coded.toTree leveled).readable around = true := by
      refine readable_ofMembers around _ room ?_
      simp [plain_ofInt, plain_ofNat32, *]
    have fields : (Coded.toTree leveled).fields?
        ["start_ms", "end_ms", "color", "min_level", "max_level"] =
        some [some (ofInt leveled.event.startMs), some (ofInt leveled.event.endMs),
          some (ofNat leveled.event.color), some (ofNat leveled.minLevel),
          some (ofNat leveled.maxLevel)] :=
      fields?_ofMembers _ _ (by simp)
    change (if (Coded.toTree leveled).readable around then
      ((Coded.toTree leveled).fields? _).bind _ else none) = some leveled
    rw [if_pos readable, fields, Option.bind_some]
    simp [instant?_ofInt, nat?_ofNat, *]
  inRange around tree leveled read := by
    simp only [Coded.ofTree?, Option.bind_eq_bind] at read
    split at read
    · simp only [Option.ite_none_right_eq_some, Option.bind_eq_some_iff] at read
      obtain ⟨-, fields, -, read⟩ := read
      split at read
      · simp only [Option.bind_eq_some_iff] at read
        obtain ⟨startMs, first, endMs, last, color, hue, minLevel, low, maxLevel, high, same⟩ :=
          read
        cases same
        exact ⟨⟨representable_of_instant? _ _ first, representable_of_instant? _ _ last,
          le_of_nat? _ _ _ hue⟩, le_of_nat? _ _ _ low, le_of_nat? _ _ _ high⟩
      · cases read
    · cases read

/-- Layouts are read back. Each field is read in turn, the list of events by what is known of events
inside of one more container. -/
theorem lawful_layout : Lawful Layout Layout.InRange 3 where
  spelled layout := spelled_ofMembers _ (by simp [lawful_leveledEvent.list.spelled])
  read layout fits around room := by
    have fields : (Coded.toTree layout).fields? ["events", "max_level"] =
        some [some (Coded.toTree layout.events), some (ofNat layout.maxLevel)] :=
      fields?_ofMembers _ _ (by simp)
    have events := lawful_leveledEvent.list.read layout.events fits.events (around + 1) (by omega)
    change ((Coded.toTree layout).fields? _).bind _ = some layout
    rw [fields, Option.bind_some]
    change (Coded.ofTree? _ (Coded.toTree layout.events)).bind _ = some layout
    rw [events, Option.bind_some, nat?_ofNat _ _ fits.maxLevel]
    rfl
  inRange around tree layout read := by
    obtain ⟨fields, -, read⟩ := Option.bind_eq_some_iff.mp read
    split at read
    · simp only [Option.bind_eq_bind, Option.bind_eq_some_iff] at read
      obtain ⟨events, listed, maxLevel, high, same⟩ := read
      cases same
      exact ⟨lawful_leveledEvent.list.inRange _ _ _ listed, le_of_nat? _ _ _ high⟩
    · cases read

/-- Windows are read back, field by field, each as an instant of 64 bits. -/
theorem lawful_window : Lawful Window Window.InRange 1 where
  spelled window := spelled_ofMembers _ (by simp)
  read window fits around _ := by
    have fields : (Coded.toTree window).fields? ["start_ms", "end_ms", "utc_offset_ms"] =
        some [some (ofInt window.startMs), some (ofInt window.endMs),
          some (ofInt window.utcOffsetMs)] :=
      fields?_ofMembers _ _ (by simp)
    simp [Coded.ofTree?, fields, instant?_ofInt, fits.startMs, fits.endMs, fits.utcOffsetMs]
  inRange around tree window read := by
    obtain ⟨fields, -, read⟩ := Option.bind_eq_some_iff.mp read
    split at read
    · simp only [Option.bind_eq_bind, Option.bind_eq_some_iff] at read
      obtain ⟨startMs, first, endMs, last, utcOffsetMs, offset, same⟩ := read
      cases same
      exact ⟨representable_of_instant? _ _ first, representable_of_instant? _ _ last,
        representable_of_instant? _ _ offset⟩
    · cases read

/-- Engines are read back, since their names are different. -/
theorem lawful_engine : Lawful Engine (fun _ => True) 0 where
  spelled engine := spelled_ofText engine.name
  read engine _ around _ := by
    simp only [Coded.ofTree?, Coded.toTree, choice?_ofText]
    cases engine <;> rfl
  inRange _ _ _ _ := trivial

/-- Failure policies are read back, since their names are different. -/
theorem lawful_failurePolicy : Lawful FailurePolicy (fun _ => True) 0 where
  spelled policy := spelled_ofText policy.name
  read policy _ around _ := by
    simp only [Coded.ofTree?, Coded.toTree, choice?_ofText]
    cases policy <;> rfl
  inRange _ _ _ _ := trivial

/-- A violation with its kind next to its fields is made from these. The kind is looked up by its
name first, and then decides which other fields are read. -/
theorem ofTree?_violation (around : Nat) (members : List (String × Tree)) (name : String)
    (kind : ViolationKind) (values : List (Option Tree)) (room : around + 1 ≤ deepestNesting)
    (plain : ∀ member ∈ members, member.2.Plain)
    (tag : (ofMembers members).fields? ["kind"] = some [some (ofText name)])
    (known : (violationKinds.find? fun kind => kind.name.toList = name.toList) = some kind)
    (fields : (ofMembers members).fields? kind.fields = some values) :
    (Coded.ofTree? around (ofMembers members) : Option Violation) = kind.ofFields? values := by
  have found : violationKind? (ofText name) = some kind := by
    rw [violationKind?, text?_ofText, Option.bind_eq_bind, Option.bind_some, known]
  change (if (ofMembers members).readable around then
    ((ofMembers members).fields? _).bind _ else none) = _
  rw [if_pos (readable_ofMembers around members room plain), tag, Option.bind_some]
  change (violationKind? (ofText name)).bind _ = _
  rw [found, Option.bind_some]
  change ((ofMembers members).fields? kind.fields).bind _ = _
  rw [fields, Option.bind_some]

/-- A kind that is found is one of the kinds. -/
theorem mem_of_violationKind? (tree : Tree) (kind : ViolationKind)
    (found : violationKind? tree = some kind) : kind ∈ violationKinds := by
  obtain ⟨name, -, known⟩ := Option.bind_eq_some_iff.mp found
  exact List.mem_of_find?_eq_some known

/-- Only violations in range are made. There is one case for each kind, with the fields that it has,
and each of them is read within its bound. -/
theorem inRange_of_ofFields? (kind : ViolationKind) (known : kind ∈ violationKinds)
    (values : List (Option Tree)) (violation : Violation)
    (made : kind.ofFields? values = some violation) : violation.InRange := by
  simp only [violationKinds, List.mem_cons, List.not_mem_nil, or_false] at known
  rcases known with rfl | rfl | rfl
  · dsimp only at made
    split at made
    · simp only [Option.bind_eq_bind, Option.bind_eq_some_iff] at made
      obtain ⟨index, position, minLevel, low, maxLevel, high, same⟩ := made
      cases same
      exact ⟨le_of_nat? _ _ _ position, le_of_nat? _ _ _ low, le_of_nat? _ _ _ high⟩
    · cases made
  · dsimp only at made
    split at made
    · simp only [Option.bind_eq_bind, Option.bind_eq_some_iff] at made
      obtain ⟨index, position, maxLevel, high, globalMax, highest, same⟩ := made
      cases same
      exact ⟨le_of_nat? _ _ _ position, le_of_nat? _ _ _ high, le_of_nat? _ _ _ highest⟩
    · cases made
  · dsimp only at made
    split at made
    · simp only [Option.bind_eq_bind, Option.bind_eq_some_iff] at made
      obtain ⟨first, one, second, other, same⟩ := made
      cases same
      exact ⟨le_of_nat? _ _ _ one, le_of_nat? _ _ _ other⟩
    · cases made

/-- Violations are read back, although they are looked at as a whole. Each kind is written with its
name and its own fields, which are then found again under that kind. -/
theorem lawful_violation : Lawful Violation Violation.InRange 1 where
  spelled violation := by
    cases violation <;> exact spelled_ofMembers _ (by simp)
  read violation fits around room := by
    cases violation with
    | invertedBand index minLevel maxLevel =>
      obtain ⟨position, low, high⟩ := fits
      have plain : ∀ member ∈ [("kind", ofText "inverted_band"), ("index", ofNat index),
          ("min_level", ofNat minLevel), ("max_level", ofNat maxLevel)], member.2.Plain := by
        simp [plain_ofText, plain_ofNat, plain_ofNat32, *]
      have made := ofTree?_violation around _ "inverted_band" _
        [some (ofNat index), some (ofNat minLevel), some (ofNat maxLevel)] room plain
        (fields?_ofMembers _ _ (by simp)) rfl (fields?_ofMembers _ _ (by simp))
      refine made.trans ?_
      simp [nat?_ofNat, *]
    | aboveGlobalMax index maxLevel globalMax =>
      obtain ⟨position, high, highest⟩ := fits
      have plain : ∀ member ∈ [("kind", ofText "above_global_max"), ("index", ofNat index),
          ("max_level", ofNat maxLevel), ("global_max", ofNat globalMax)], member.2.Plain := by
        simp [plain_ofText, plain_ofNat, plain_ofNat32, *]
      have made := ofTree?_violation around _ "above_global_max" _
        [some (ofNat index), some (ofNat maxLevel), some (ofNat globalMax)] room plain
        (fields?_ofMembers _ _ (by simp)) rfl (fields?_ofMembers _ _ (by simp))
      refine made.trans ?_
      simp [nat?_ofNat, *]
    | sharedLevel first second =>
      obtain ⟨one, other⟩ := fits
      have plain : ∀ member ∈ [("kind", ofText "shared_level"), ("first", ofNat first),
          ("second", ofNat second)], member.2.Plain := by
        simp [plain_ofText, plain_ofNat, *]
      have made := ofTree?_violation around _ "shared_level" _
        [some (ofNat first), some (ofNat second)] room plain
        (fields?_ofMembers _ _ (by simp)) rfl (fields?_ofMembers _ _ (by simp))
      refine made.trans ?_
      simp [nat?_ofNat, *]
  inRange around tree violation read := by
    simp only [Coded.ofTree?, Option.ite_none_right_eq_some] at read
    obtain ⟨-, read⟩ := read
    split at read
    · simp only [Option.bind_eq_bind, Option.bind_eq_some_iff] at read
      obtain ⟨tags, -, read⟩ := read
      split at read
      · simp only [Option.bind_eq_some_iff] at read
        obtain ⟨kind, known, values, -, made⟩ := read
        exact inRange_of_ofFields? kind (mem_of_violationKind? _ kind known) values violation made
      · cases read
    · simp only [Option.bind_eq_bind, Option.bind_eq_some_iff] at read
      obtain ⟨kind, known, values, -, made⟩ := read
      exact inRange_of_ofFields? kind (mem_of_violationKind? _ kind known) values violation made
    · cases read

/-- Outcomes are read back, also when the list of violations is left out. The member for them is
there or not, and the names are distinct either way. -/
theorem lawful_layoutOutcome : Lawful LayoutOutcome LayoutOutcome.InRange 4 where
  spelled outcome := by
    refine spelled_ofMembers _ ?_
    split <;> simp [lawful_layout.spelled, lawful_engine.spelled, lawful_violation.list.spelled,
      Spelled.bool]
  read outcome fits around room := by
    obtain ⟨layout, engine, fellBack, violations⟩ := outcome
    have laidOut := lawful_layout.read layout fits.layout (around + 1) (by omega)
    have made := lawful_engine.read engine trivial (around + 1) (by omega)
    have listed := lawful_violation.list.read violations fits.violations (around + 1) (by omega)
    have fields : (Coded.toTree (LayoutOutcome.mk layout engine fellBack violations)).fields?
        ["result", "engine", "fell_back", "violations"] =
        some [some (Coded.toTree layout), some (Coded.toTree engine), some (.bool fellBack),
          if violations.isEmpty then none else some (Coded.toTree violations)] := by
      refine (fields?_ofMembers _ _ ?_).trans ?_
      · split <;> simp
      · split <;> rfl
    change (Tree.fields? _ _).bind _ = _
    rw [fields, Option.bind_some]
    change (Coded.ofTree? _ (Coded.toTree layout)).bind _ = _
    rw [laidOut, Option.bind_some]
    change (Coded.ofTree? _ (Coded.toTree engine)).bind _ = _
    rw [made, Option.bind_some]
    cases violations with
    | nil => rfl
    | cons violation violations =>
      change (Coded.ofTree? _ (Coded.toTree (violation :: violations))).bind _ = _
      rw [listed]
      rfl
  inRange around tree outcome read := by
    obtain ⟨fields, -, read⟩ := Option.bind_eq_some_iff.mp read
    split at read
    · simp only [Option.bind_eq_bind, Option.bind_eq_some_iff] at read
      obtain ⟨layout, laidOut, engine, -, fellBack, -, read⟩ := read
      split at read
      · cases read
        exact ⟨lawful_layout.inRange _ _ _ laidOut, List.forall_mem_nil _⟩
      · obtain ⟨violations, listed, same⟩ := Option.bind_eq_some_iff.mp read
        cases same
        exact ⟨lawful_layout.inRange _ _ _ laidOut,
          lawful_violation.list.inRange _ _ _ listed⟩
    · cases read

/-- A field that may be missing is in range if its default and all that is read are. A missing field
takes the default. -/
theorem inRange_of_orDefault {α : Type} (InRange : α → Prop) (field : Option Tree)
    (default value : α) (read : Tree → Option α) (usual : InRange default)
    (given : ∀ tree value, read tree = some value → InRange value)
    (found : orDefault field default read = some value) : InRange value := by
  cases field with
  | none =>
    cases found
    exact usual
  | some tree => exact given tree value found

/-- Layout settings are read back. All three members are written, so no default is ever taken for
them. -/
theorem lawful_layoutSettings : Lawful LayoutSettings LayoutSettings.InRange 1 where
  spelled settings :=
    spelled_ofMembers _ (by simp [lawful_engine.spelled, lawful_failurePolicy.spelled])
  read settings fits around room := by
    have fields : (Coded.toTree settings).fields? ["primary", "on_solver_failure", "max_level"] =
        some [some (Coded.toTree settings.primary), some (Coded.toTree settings.onSolverFailure),
          some (ofNat settings.maxLevel)] :=
      fields?_ofMembers _ _ (by simp)
    have primary := lawful_engine.read settings.primary trivial (around + 1) (by omega)
    have policy := lawful_failurePolicy.read settings.onSolverFailure trivial (around + 1)
      (by omega)
    change (Tree.fields? _ _).bind _ = _
    rw [fields, Option.bind_some]
    change (Coded.ofTree? _ (Coded.toTree settings.primary)).bind _ = _
    rw [primary, Option.bind_some]
    change (Coded.ofTree? _ (Coded.toTree settings.onSolverFailure)).bind _ = _
    rw [policy, Option.bind_some]
    change (nat? greatest32 (ofNat settings.maxLevel)).bind _ = _
    rw [nat?_ofNat _ _ fits]
    rfl
  inRange around tree settings read := by
    obtain ⟨fields, -, read⟩ := Option.bind_eq_some_iff.mp read
    split at read
    · simp only [Option.bind_eq_bind, Option.bind_eq_some_iff] at read
      obtain ⟨primary, -, policy, -, maxLevel, high, same⟩ := read
      cases same
      exact inRange_of_orDefault (· ≤ greatest32) _ _ _ _ (by decide) (le_of_nat? greatest32) high
    · cases read

/-- Settings are read back, both members from what is written and none from its default. -/
theorem lawful_settings : Lawful Settings Settings.InRange 2 where
  spelled settings := spelled_ofMembers _ (by simp [lawful_layoutSettings.spelled])
  read settings fits around room := by
    have fields : (Coded.toTree settings).fields? ["layout", "tick_secs"] =
        some [some (Coded.toTree settings.layout), some (ofNat settings.tickSeconds)] :=
      fields?_ofMembers _ _ (by simp)
    have layout := lawful_layoutSettings.read settings.layout fits.layout (around + 1) (by omega)
    change (Tree.fields? _ _).bind _ = _
    rw [fields, Option.bind_some]
    change (Coded.ofTree? _ (Coded.toTree settings.layout)).bind _ = _
    rw [layout, Option.bind_some]
    change (nat? greatest64 (ofNat settings.tickSeconds)).bind _ = _
    rw [nat?_ofNat _ _ fits.tickSeconds]
    rfl
  inRange around tree settings read := by
    obtain ⟨fields, -, read⟩ := Option.bind_eq_some_iff.mp read
    split at read
    · simp only [Option.bind_eq_bind, Option.bind_eq_some_iff] at read
      obtain ⟨layout, laidOut, tickSeconds, often, same⟩ := read
      cases same
      have usual : LayoutSettings.InRange {} := by unfold LayoutSettings.InRange; decide
      have given := lawful_layoutSettings.inRange (around + 1)
      exact ⟨inRange_of_orDefault LayoutSettings.InRange _ _ _ _ usual given laidOut,
        inRange_of_orDefault (· ≤ greatest64) _ _ _ _ (by decide) (le_of_nat? greatest64) often⟩
    · cases read

/-- Every value of the data model whose numbers fit into their fields survives being written as
JSON, in either form, and being read again; and so does every value that is read from any text. Each
of the types is lawful, inside of fewer containers than may lie inside each other. -/
theorem dataModel_roundTrips :
    RoundTrips RawEvent RawEvent.InRange ∧ RoundTrips ClippedEvent ClippedEvent.InRange ∧
    RoundTrips LeveledEvent LeveledEvent.InRange ∧ RoundTrips Layout Layout.InRange ∧
    RoundTrips LayoutSettings LayoutSettings.InRange ∧
    RoundTrips LayoutOutcome LayoutOutcome.InRange ∧ RoundTrips Violation Violation.InRange ∧
    RoundTrips Window Window.InRange ∧ RoundTrips Engine (fun _ => True) ∧
    RoundTrips FailurePolicy (fun _ => True) ∧ RoundTrips Settings Settings.InRange :=
  ⟨lawful_rawEvent.roundTrips (by decide), lawful_clippedEvent.roundTrips (by decide),
    lawful_leveledEvent.roundTrips (by decide), lawful_layout.roundTrips (by decide),
    lawful_layoutSettings.roundTrips (by decide), lawful_layoutOutcome.roundTrips (by decide),
    lawful_violation.roundTrips (by decide), lawful_window.roundTrips (by decide),
    lawful_engine.roundTrips (by decide), lawful_failurePolicy.roundTrips (by decide),
    lawful_settings.roundTrips (by decide)⟩

/-- The greatest numbers in all places, and all kinds of violation. -/
theorem dataModel_roundTrips_at_limits :
    let event : ClippedEvent := ⟨Instant.least, Instant.greatest, greatest32⟩
    let outcome : LayoutOutcome := {
      layout := ⟨[⟨event, 0, greatest32⟩], greatest32⟩
      engine := .constraint
      fellBack := true
      violations := [.invertedBand greatest64 greatest32 0,
        .aboveGlobalMax greatest64 greatest32 greatest32, .sharedLevel 0 greatest64] }
    outcome.InRange ∧ decode? LayoutOutcome (encode outcome) = some outcome := by
  intro event outcome
  have fits : outcome.InRange := by
    refine ⟨⟨?_, Nat.le_refl _⟩, ?_⟩
    · intro leveled present
      cases List.mem_singleton.mp present
      exact ⟨⟨by decide, by decide, Nat.le_refl _⟩, Nat.zero_le _, Nat.le_refl _⟩
    · simp [outcome, Violation.InRange]
  obtain ⟨-, -, -, -, -, outcomes, -⟩ := dataModel_roundTrips
  exact ⟨fits, outcomes.compact outcome fits⟩

end Json

end CalendarDial
