import CalendarDial.Event

/-!
# Wedges on the dial

A leveled event is drawn as a sector of a ring. Angles run clockwise from twelve o'clock and a full
turn is twelve hours, so only the time of day matters. The dial's radius is cut into one ring for
each level, and a band covers its rings from the inner edge of the lowest to the outer edge of the
highest.

The same quotients serve exact reasoning and drawing: a wedge can be taken in any numbers that can
be added, multiplied and divided.
-/

namespace CalendarDial

/-- The first angle and the sweep of a wedge in degrees, and its inner and outer edge as fractions
of the radius. -/
structure Wedge (α : Type) where
  startDegrees : α
  sweepDegrees : α
  innerFraction : α
  outerFraction : α

namespace LeveledEvent

/-- The wedge of an event in a layout with the given highest level, in the numbers that `number`
makes of whole numbers. -/
def wedgeIn {α : Type} [Add α] [Mul α] [Div α] (number : Int → α) (event : LeveledEvent)
    (globalMax : Nat) : Except Overflow (Wedge α) := do
  let duration ← event.event.duration
  let degrees (ms : Int) : α := number ms / number Instant.turn * number 360
  let rings : α := number globalMax + number 1
  pure {
    startDegrees := degrees (event.event.startMs % Instant.turn)
    sweepDegrees := degrees duration
    innerFraction := number event.minLevel / rings
    outerFraction := (number event.maxLevel + number 1) / rings }

/-- The wedge with its quotients taken exactly. -/
def exactWedge (event : LeveledEvent) (globalMax : Nat) : Except Overflow (Wedge Rat) :=
  event.wedgeIn (fun n => (n : Rat)) globalMax

/-- The wedge as it is drawn, with every quotient and product rounded to a double. -/
def wedge (event : LeveledEvent) (globalMax : Nat) : Except Overflow (Wedge Float) :=
  event.wedgeIn Float.ofInt globalMax

end LeveledEvent

end CalendarDial
