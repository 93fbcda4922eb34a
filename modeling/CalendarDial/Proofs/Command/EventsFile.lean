import CalendarDial.Proofs.Calendar.Timestamp
import CalendarDial.Proofs.Command.Layout
import CalendarDial.Proofs.Json.Coded

/-!
# Printed times are read back

The times that are printed in absolute time can be put into an events file, and as long as their
year has four digits they can be given to a command. Either way they mean the second that they were
printed for. So no two full seconds look the same.
-/

namespace CalendarDial

open Calendar

/-- The item of an events file is an event with the given text as its start. The other two fields
are read as the given end and color. -/
def IsFileEvent (item : Json.Tree) (start : String) (endMs : Int) (color : Nat) : Prop :=
  ∃ startTree endTree colorTree,
    item.fields? ["start", "end", "color"] = some [some startTree, some endTree, some colorTree] ∧
    startTree.text? = some start.toList ∧ endTree.timestamp? = some endMs ∧
    colorTree.nat? Json.greatest32 = some color

/-- An event whose start is a timestamp in the relaxed form is read with its instant. The other two
fields come from the item too, and nothing else in it is looked at. -/
theorem ofFileTree?_of_isFileEvent (item : Json.Tree) (start : String) (endMs : Int) (color : Nat)
    (event : IsFileEvent item start endMs color) (time : ZonedTime)
    (read : readRelaxed? start.toList = some time) :
    RawEvent.ofFileTree? item = some ⟨time.utcMs, endMs, color⟩ := by
  obtain ⟨startTree, endTree, colorTree, fields, startText, ends, colored⟩ := event
  have starts : startTree.timestamp? = some time.utcMs := by
    simp only [Json.Tree.timestamp?, startText, read, Option.bind_eq_bind, Option.bind_some,
      Option.pure_def]
  simp only [RawEvent.ofFileTree?, fields, starts, ends, colored, Option.bind_eq_bind,
    Option.bind_some, Option.pure_def]

/-- If every other item of a file is an event, then the file is read, and at the place of this one
stands the event with the instant of its start. Items are read one by one and keep their places. -/
theorem exists_readEvents_of_isFileEvent (path : String) (content : ByteArray) (text : String)
    (items : List Json.Tree) (i : Nat) (item : Json.Tree) (start : String) (endMs : Int)
    (color : Nat) (decoded : String.fromUTF8? content = some text)
    (parsed : Json.Tree.parse? text.toList = some (.array items)) (placed : items[i]? = some item)
    (event : IsFileEvent item start endMs color)
    (others : ∀ other ∈ items, other ≠ item → (RawEvent.ofFileTree? other).isSome = true)
    (time : ZonedTime) (read : readRelaxed? start.toList = some time) :
    ∃ events, readEvents path (some content) = .ok events ∧
      events[i]? = some ⟨time.utcMs, endMs, color⟩ := by
  have found := ofFileTree?_of_isFileEvent item start endMs color event time read
  have each : ∀ other ∈ items, (RawEvent.ofFileTree? other).isSome = true := by
    intro other present
    by_cases same : other = item
    · rw [same, found]
      rfl
    · exact others other present same
  obtain ⟨events, made⟩ := exists_mapM_eq_some RawEvent.ofFileTree? items each
  refine ⟨events, (readEvents_eq_ok_iff path _ events).mpr
    ⟨content, text, items, rfl, decoded, parsed, made⟩, ?_⟩
  rw [getElem?_of_mapM_eq_some _ _ _ made i, placed, Option.bind_some, found]

namespace Calendar

/-- A full second that is kept looks like no other. Instants that are not kept are printed as bare
numbers, in which there is no mark between date and time. Two kept instants are read back from what
is printed for them, so the same text means the same second. -/
theorem utcText_inj (ms other : Int) (kept : IsKept ms) (whole : ms % 1000 = 0)
    (otherWhole : other % 1000 = 0) (same : utcText ms = utcText other) : ms = other := by
  by_cases otherKept : IsKept other
  · have read := readRelaxed?_utcText ms kept
    rw [same, readRelaxed?_utcText other otherKept, Option.some.injEq, ZonedTime.mk.injEq] at read
    omega
  · have marked : 'T' ∈ (utcText ms).toList := by
      rw [toList_utcText ms kept]
      simp [utcForm]
    have bare : (utcText other).toList = Text.signed other := by
      rw [utcText, textOfInstant, String.toList_ofList, if_neg otherKept]
    rw [same, bare] at marked
    rcases Text.minus_or_digit_of_mem_signed other 'T' marked with minus | digit
    · exact absurd minus (by decide)
    · exact absurd digit (by decide)

end Calendar

/-- Every instant that is kept is printed as a time that is read back, to the second. In an events
file whose other items are events, an event that starts at this time is read with the instant. If
the year has four digits, a command that is given the time takes it for the instant without an
offset. So no full second is printed like another, and an instant that is not kept is printed as a
bare number. -/
theorem utcText_reads_back (ms : Int) (early : -8334601228800000 ≤ ms)
    (late : ms ≤ 8210266876799999) :
    (∀ path content text items (i : Nat) item endMs color,
      String.fromUTF8? content = some text →
      Json.Tree.parse? text.toList = some (.array items) → items[i]? = some item →
      IsFileEvent item (utcText ms) endMs color →
      (∀ other ∈ items, other ≠ item → (RawEvent.ofFileTree? other).isSome = true) →
      ∃ events, readEvents path (some content) = .ok events ∧
        events[i]? = some ⟨1000 * (ms / 1000), endMs, color⟩) ∧
    (∀ clock, 0 ≤ (LocalTime.ofInstant ms).date.year → (LocalTime.ofInstant ms).date.year ≤ 9999 →
      resolveTime clock (some (utcText ms)) = .ok ⟨1000 * (ms / 1000), 0⟩) ∧
    ∀ other, ms % 1000 = 0 → other % 1000 = 0 → utcText ms = utcText other → ms = other := by
  have kept : IsKept ms := (isKept_iff ms).mpr ⟨early, late⟩
  rw [Int.mul_comm]
  refine ⟨?file, ?command, fun other => utcText_inj ms other kept⟩
  case file =>
    intro path content text items i item endMs color decoded parsed placed event others
    exact exists_readEvents_of_isFileEvent path content text items i item _ endMs color decoded
      parsed placed event others _ (readRelaxed?_utcText ms kept)
  case command =>
    intro clock first last
    rw [resolveTime, WrittenTime.read, readStrict?_utcText ms kept first last]
    rfl

/-- The first second that is kept, of which a millisecond has passed, as the start of the only event
of a file, and the last millisecond before 1970 as the time of a command. -/
theorem utcText_reads_back_of_first_second :
    let content := "[\x7b\"start\":\"-262143-01-01T00:00:00Z\",\"end\":\"1970-01-01T00:00:00Z\"," ++
      "\"color\":7\x7d]"
    (-8334601228800000 : Int) ≤ -8334601228799999 ∧
    (-8334601228799999 : Int) ≤ 8210266876799999 ∧
    utcText (-8334601228799999) = "-262143-01-01T00:00:00Z" ∧
    (∃ events, readEvents "events.json" (some content.toUTF8) = .ok events ∧
      events[0]? = some ⟨-8334601228800000, 0, 7⟩) ∧
    resolveTime ⟨0, fun _ => 3600⟩ (some "1969-12-31T23:59:59Z") = .ok ⟨-1000, 0⟩ := by
  intro content
  have early : (-8334601228800000 : Int) ≤ -8334601228799999 := by decide
  have late : (-8334601228799999 : Int) ≤ 8210266876799999 := by decide
  have printed : utcText (-8334601228799999) = "-262143-01-01T00:00:00Z" := by decide +kernel
  have printedLast : utcText (-1) = "1969-12-31T23:59:59Z" := by decide +kernel
  let item := Json.Tree.ofMembers [("start", .ofText "-262143-01-01T00:00:00Z"),
    ("end", .ofText "1970-01-01T00:00:00Z"), ("color", .ofNat 7)]
  have parsed : Json.Tree.parse? content.toList = some (.array [item]) := by
    have compact : content.toList = (Json.Tree.array [item]).compact := by decide +kernel
    rw [compact]
    refine Json.Tree.parse?_compact _ (.array _ (List.forall_mem_singleton.mpr ?_))
    exact Json.Tree.spelled_ofMembers _ (by simp)
  have event : IsFileEvent item (utcText (-8334601228799999)) 0 7 := by
    refine ⟨_, _, _, Json.Tree.fields?_ofMembers _ _ (by decide), ?_, ?_, ?_⟩
    · rw [printed]
      exact Json.Tree.text?_ofText _
    · decide +kernel
    · decide +kernel
  obtain ⟨file, -⟩ := utcText_reads_back (-8334601228799999) early late
  obtain ⟨events, read, found⟩ := file "events.json" content.toUTF8 content [item] 0 item 0 7
    (by decide +kernel) parsed rfl event
    (List.forall_mem_singleton.mpr fun other => absurd rfl other)
  obtain ⟨-, command, -⟩ := utcText_reads_back (-1) (by decide) (by decide)
  have resolved := command ⟨0, fun _ => 3600⟩ (by decide +kernel) (by decide +kernel)
  rw [printedLast] at resolved
  exact ⟨early, late, printed, ⟨events, read, found⟩, resolved⟩

end CalendarDial
