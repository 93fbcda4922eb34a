import CalendarDial.Calendar.Forms
import CalendarDial.Command.Error
import CalendarDial.Json.Coded

/-!
# The events file

An events file is a JSON array of events, each with a start and an end as timestamps in the relaxed
form and a color. It has to be text in UTF-8. One event that cannot be read makes the whole file
invalid.
-/

namespace CalendarDial

/-- The instant that a tree holds as the text of a timestamp. -/
def Json.Tree.timestamp? (tree : Json.Tree) : Option Int := do
  let time ← Calendar.readRelaxed? (← tree.text?)
  pure time.utcMs

/-- The event that a tree of an events file holds. -/
def RawEvent.ofFileTree? (tree : Json.Tree) : Option RawEvent := do
  let [some start, some finish, some color] ← tree.fields? ["start", "end", "color"]
    | none
  pure ⟨← start.timestamp?, ← finish.timestamp?, ← color.nat? Json.greatest32⟩

/-- The events of a file with the given text. -/
def eventsOfText? (text : String) : Option (List RawEvent) := do
  match ← Json.Tree.parse? text.toList with
  | .array items => items.mapM RawEvent.ofFileTree?
  | _ => none

/-- The events of the file with the given path and content, which is missing when the file is. -/
def readEvents (path : String) (content : Option ByteArray) :
    Except CommandError (List RawEvent) :=
  match content.bind String.fromUTF8? with
  | none => .error (.unreadableEvents path)
  | some text =>
    match eventsOfText? text with
    | none => .error (.invalidEvents path)
    | some events => .ok events

end CalendarDial
