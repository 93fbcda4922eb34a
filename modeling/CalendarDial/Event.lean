import CalendarDial.Instant

/-!
# Calendar events on their way to the dial

A calendar delivers raw events in absolute time. Clipping bounds them to the window on display and
moves them to local time; a layout engine then gives each a band of levels, the rings of the dial
that it covers, counted from the inside and both ends included.

Everything the dial shows has a start and an end. Two spans overlap when each starts before the
other ends; the comparison is strict, so spans that only touch do not overlap. Nothing is assumed
of a span: an inverted one takes part in the same test.
-/

namespace CalendarDial

/-- Anything with a start and an end, in milliseconds. -/
class TimeSpan (α : Type) where
  startMs : α → Int
  endMs : α → Int

/-- Each of the two spans starts before the other ends. -/
def Overlaps {α β : Type} [TimeSpan α] [TimeSpan β] (a : α) (b : β) : Prop :=
  TimeSpan.startMs a < TimeSpan.endMs b ∧ TimeSpan.startMs b < TimeSpan.endMs a

instance {α β : Type} [TimeSpan α] [TimeSpan β] (a : α) (b : β) : Decidable (Overlaps a b) :=
  inferInstanceAs (Decidable (_ ∧ _))

/-- Overlap does not depend on which of the two spans is named first. -/
theorem overlaps_comm {α β : Type} [TimeSpan α] [TimeSpan β] {a : α} {b : β} :
    Overlaps a b ↔ Overlaps b a := And.comm

/-- An event as the calendar delivers it, in absolute time. Nothing is required of it: an event may
be empty or end before it starts. The color is an opaque 32-bit number. -/
structure RawEvent where
  startMs : Int
  endMs : Int
  color : Nat
deriving DecidableEq

/-- An event bounded to a window and moved to local time. -/
structure ClippedEvent where
  startMs : Int
  endMs : Int
  color : Nat
deriving DecidableEq

/-- A clipped event with the lowest and the highest level of its band. -/
structure LeveledEvent where
  event : ClippedEvent
  minLevel : Nat
  maxLevel : Nat
deriving DecidableEq

/-- What a layout engine answers: the events with their bands, in the order in which they were
given, and the highest level that a band may reach. -/
structure Layout where
  events : List LeveledEvent
  maxLevel : Nat
deriving DecidableEq

instance : TimeSpan RawEvent := ⟨RawEvent.startMs, RawEvent.endMs⟩
instance : TimeSpan ClippedEvent := ⟨ClippedEvent.startMs, ClippedEvent.endMs⟩
instance : TimeSpan LeveledEvent := ⟨(·.event.startMs), (·.event.endMs)⟩

/-- The clipped event read as calendar input again, with the same times. -/
def ClippedEvent.toRaw (event : ClippedEvent) : RawEvent :=
  ⟨event.startMs, event.endMs, event.color⟩

/-- The length of the event, negative when it ends before it starts. -/
def ClippedEvent.duration (event : ClippedEvent) : Except Overflow Int :=
  Instant.sub event.endMs event.startMs

namespace LeveledEvent

/-- The levels of the band from the lowest up, none if the band is upside down. -/
def levels (band : LeveledEvent) : List Nat :=
  List.range' band.minLevel (band.maxLevel + 1 - band.minLevel)

/-- The closed bands have a level in common. -/
def SharesLevel (a b : LeveledEvent) : Prop :=
  a.minLevel ≤ b.maxLevel ∧ b.minLevel ≤ a.maxLevel

instance (a b : LeveledEvent) : Decidable (SharesLevel a b) :=
  inferInstanceAs (Decidable (_ ∧ _))

end LeveledEvent

/-- The layout with nothing on it. -/
def Layout.empty : Layout := ⟨[], 0⟩

end CalendarDial
