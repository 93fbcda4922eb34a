/-!
# Instants in 64 bits

An instant is a whole number of milliseconds, counted from the start of 1970. The integers here are
exact; what the 64-bit range adds is that a sum or a difference whose exact value leaves it is
refused. Nothing wraps around, so an answer that comes out is the mathematical one.
-/

namespace CalendarDial

/-- The two ways in which arithmetic on instants leaves the 64-bit range. -/
inductive Overflow where
  | addition
  | subtraction
deriving DecidableEq

namespace Overflow

/-- The wording under which an overflow is reported. -/
def message : Overflow → String
  | addition => "attempt to add with overflow"
  | subtraction => "attempt to subtract with overflow"

end Overflow

namespace Instant

/-- The earliest instant that 64 bits hold. -/
def least : Int := -9223372036854775808

/-- The latest instant that 64 bits hold. -/
def greatest : Int := 9223372036854775807

/-- An integer that 64 bits hold. -/
def Representable (t : Int) : Prop := least ≤ t ∧ t ≤ greatest

instance (t : Int) : Decidable (Representable t) :=
  inferInstanceAs (Decidable (least ≤ t ∧ t ≤ greatest))

/-- One hour in milliseconds. -/
def hour : Int := 3600000

/-- One turn of the hour hand: twelve hours in milliseconds. -/
def turn : Int := 12 * hour

/-- The exact sum, refused outside the 64-bit range. -/
def add (a b : Int) : Except Overflow Int :=
  if Representable (a + b) then .ok (a + b) else .error .addition

/-- The exact difference, refused outside the 64-bit range. -/
def sub (a b : Int) : Except Overflow Int :=
  if Representable (a - b) then .ok (a - b) else .error .subtraction

/-- A sum that comes out is the exact one, and it comes out exactly when 64 bits hold it. -/
theorem add_eq_ok_iff {a b c : Int} : add a b = .ok c ↔ Representable (a + b) ∧ a + b = c := by
  unfold add
  split <;> simp_all

/-- A difference that comes out is the exact one, and it comes out exactly when 64 bits hold it. -/
theorem sub_eq_ok_iff {a b c : Int} : sub a b = .ok c ↔ Representable (a - b) ∧ a - b = c := by
  unfold sub
  split <;> simp_all

/-- A sum fails exactly when 64 bits do not hold it, and it fails as a sum. -/
theorem add_eq_error_iff {a b : Int} {cause : Overflow} :
    add a b = .error cause ↔ ¬ Representable (a + b) ∧ cause = .addition := by
  unfold add
  split <;> simp_all [eq_comm]

/-- A difference fails exactly when 64 bits do not hold it, and it fails as a difference. -/
theorem sub_eq_error_iff {a b : Int} {cause : Overflow} :
    sub a b = .error cause ↔ ¬ Representable (a - b) ∧ cause = .subtraction := by
  unfold sub
  split <;> simp_all [eq_comm]

end Instant

end CalendarDial
