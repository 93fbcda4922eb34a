import Mathlib.Algebra.Order.Field.Basic
import Mathlib.Algebra.Order.Ring.Rat
import Mathlib.Tactic.Linarith
import Mathlib.Tactic.Ring
import CalendarDial.Bands.Placement

/-!
# Rounding keeps bands apart

On coordinates that are not negative, snapping and rounding never reverse an order, commute with
steps by a whole level and leave whole levels where they are. A band that is at least one level
thick therefore covers a level after rounding, and the end of a band stays at or below the start of
any band above it. The levels run to one below the rounded end, so that two such bands share none.
-/

namespace CalendarDial.Bands

/-- Rounding never reverses the order of two numbers that are not negative. Without a sign to look
at, rounding takes the whole part of the number and a half, and taking whole parts keeps the
order. -/
theorem roundHalfAway_le (x y : Rat) (nonnegative : 0 ≤ x) (ordered : x ≤ y) :
    roundHalfAway x ≤ roundHalfAway y := by
  rw [roundHalfAway, roundHalfAway, if_pos nonnegative, if_pos (le_trans nonnegative ordered),
    Rat.le_floor_iff]
  calc ((x + 1 / 2).floor : Rat) ≤ x + 1 / 2 := Rat.floor_le _
    _ ≤ y + 1 / 2 := by linarith

/-- Rounding commutes with whole steps upward. The whole part of a sum with a whole number is a
sum. -/
theorem roundHalfAway_add (x : Rat) (steps : Nat) (nonnegative : 0 ≤ x) :
    roundHalfAway (x + steps) = roundHalfAway x + steps := by
  have sum : 0 ≤ x + (steps : Rat) := add_nonneg nonnegative (Nat.cast_nonneg steps)
  have moved : x + steps + 1 / 2 = x + 1 / 2 + ((steps : Int) : Rat) := by
    rw [Int.cast_natCast]
    ring
  rw [roundHalfAway, roundHalfAway, if_pos nonnegative, if_pos sum, moved, Rat.floor_add_intCast]

/-- A number that is not negative is rounded to the whole part of the number and a half. -/
theorem roundHalfAway_near (x : Rat) (nonnegative : 0 ≤ x) :
    (roundHalfAway x : Rat) ≤ x + 1 / 2 ∧ x + 1 / 2 < roundHalfAway x + 1 := by
  rw [roundHalfAway, if_pos nonnegative]
  have above := Rat.lt_floor_add_one (x + 1 / 2)
  push_cast at above
  exact ⟨Rat.floor_le _, above⟩

/-- Zero is rounded to zero. -/
theorem roundHalfAway_zero : roundHalfAway 0 = 0 := by decide +kernel

/-- Numbers that are not negative are not rounded to negative ones. -/
theorem roundHalfAway_nonneg (x : Rat) (nonnegative : 0 ≤ x) : 0 ≤ roundHalfAway x :=
  roundHalfAway_zero ▸ roundHalfAway_le 0 x le_rfl nonnegative

/-- Snapping makes nothing negative. Neither scaling nor rounding does. -/
theorem snap_nonneg (x : Rat) (nonnegative : 0 ≤ x) : 0 ≤ snap x := by
  have rounded : 0 ≤ roundHalfAway (x * 1000000) := roundHalfAway_nonneg _ (by linarith)
  exact div_nonneg (Int.cast_nonneg rounded) (by norm_num)

/-- Snapping never reverses an order. Scaling up, rounding and scaling down each keep it. -/
theorem snap_le (x y : Rat) (nonnegative : 0 ≤ x) (ordered : x ≤ y) : snap x ≤ snap y := by
  have rounded : roundHalfAway (x * 1000000) ≤ roundHalfAway (y * 1000000) :=
    roundHalfAway_le _ _ (by linarith) (by linarith)
  exact div_le_div_of_nonneg_right (Int.cast_le.mpr rounded) (by norm_num)

/-- Snapping commutes with whole steps upward, each of which is a million of its own steps. -/
theorem snap_add (x : Rat) (steps : Nat) (nonnegative : 0 ≤ x) :
    snap (x + steps) = snap x + steps := by
  have scaled : (x + steps) * 1000000 = x * 1000000 + ((steps * 1000000 : Nat) : Rat) := by
    push_cast
    ring
  rw [snap, snap, scaled, roundHalfAway_add _ _ (by linarith)]
  push_cast
  ring

/-- The level nearest to a coordinate, before it is confined to the axis. -/
def nearestLevel (x : Rat) : Int := roundHalfAway (snap x)

/-- The nearest level never falls when the coordinate rises. -/
theorem nearestLevel_le (x y : Rat) (nonnegative : 0 ≤ x) (ordered : x ≤ y) :
    nearestLevel x ≤ nearestLevel y :=
  roundHalfAway_le _ _ (snap_nonneg x nonnegative) (snap_le x y nonnegative ordered)

/-- The nearest level rises by whole steps with the coordinate. Both roundings commute with whole
steps. -/
theorem nearestLevel_add (x : Rat) (steps : Nat) (nonnegative : 0 ≤ x) :
    nearestLevel (x + steps) = nearestLevel x + steps := by
  rw [nearestLevel, nearestLevel, snap_add x steps nonnegative,
    roundHalfAway_add _ _ (snap_nonneg x nonnegative)]

/-- A whole coordinate is its own nearest level. It is that many steps above zero, whose nearest
level is zero. -/
theorem nearestLevel_natCast (level : Nat) : nearestLevel level = level := by
  have fromZero := nearestLevel_add 0 level le_rfl
  have zero : nearestLevel 0 = 0 := by decide +kernel
  rwa [zero_add, zero, zero_add] at fromZero

/-- The nearest level is the whole part of the coordinate, a half and half of a snapping step. A
snapped coordinate and the next level are whole numbers of millionths, so where the one and a half
stay below the other there is room for a millionth more. Half of it is what snapping may have taken
away, and the other half is the one in the statement. -/
theorem nearestLevel_near (x : Rat) (nonnegative : 0 ≤ x) :
    (nearestLevel x : Rat) ≤ x + 1 / 2 + 1 / 2000000 ∧
      x + 1 / 2 + 1 / 2000000 < nearestLevel x + 1 := by
  obtain ⟨snapUpper, snapLower⟩ := roundHalfAway_near (x * 1000000) (by linarith)
  obtain ⟨upper, lower⟩ := roundHalfAway_near (snap x) (snap_nonneg x nonnegative)
  have snapped : snap x * 1000000 = roundHalfAway (x * 1000000) :=
    div_mul_cancel₀ _ (by norm_num)
  rw [← nearestLevel] at upper lower
  constructor
  · linarith
  · have whole : roundHalfAway (x * 1000000) + 500000 < (nearestLevel x + 1) * 1000000 := by
      have bounded : (roundHalfAway (x * 1000000) : Rat) + 500000 <
          (nearestLevel x + 1) * 1000000 := by linarith
      exact_mod_cast bounded
    have next : ((roundHalfAway (x * 1000000) + 500000 + 1 : Int) : Rat) ≤
        ((nearestLevel x + 1) * 1000000 : Int) := Int.cast_le.mpr whole
    push_cast at next
    linarith

/-- Steps of the same size, taken from anywhere, raise the nearest level by numbers that differ by
one at most. Both numbers are closer than one to the step: the first is less than the step and one,
the second more than the step less one. -/
theorem nearestLevel_step_le (x y step : Rat) (first : 0 ≤ x) (second : 0 ≤ y)
    (forward : 0 ≤ step) :
    nearestLevel (x + step) - nearestLevel x ≤ nearestLevel (y + step) - nearestLevel y + 1 := by
  obtain ⟨-, startFirst⟩ := nearestLevel_near x first
  obtain ⟨finishFirst, -⟩ := nearestLevel_near (x + step) (add_nonneg first forward)
  obtain ⟨startSecond, -⟩ := nearestLevel_near y second
  obtain ⟨-, finishSecond⟩ := nearestLevel_near (y + step) (add_nonneg second forward)
  have close : ((nearestLevel (x + step) - nearestLevel x : Int) : Rat) <
      (nearestLevel (y + step) - nearestLevel y + 2 : Int) := by
    push_cast
    linarith
  have whole : nearestLevel (x + step) - nearestLevel x <
      nearestLevel (y + step) - nearestLevel y + 2 := Int.cast_lt.mp close
  omega

/-- Within the axis nothing has to be confined: the level of a coordinate is its nearest one. The
nearest level is between those of zero and of the end of the axis, which are whole and stay where
they are. -/
theorem toLevel_eq_nearestLevel (axis : Nat) (x : Rat) (nonnegative : 0 ≤ x) (within : x ≤ axis) :
    (toLevel axis x : Int) = nearestLevel x := by
  have lower : 0 ≤ nearestLevel x := roundHalfAway_nonneg _ (snap_nonneg x nonnegative)
  have upper : nearestLevel x ≤ axis :=
    nearestLevel_natCast axis ▸ nearestLevel_le x axis nonnegative within
  change ((min (nearestLevel x).toNat axis : Nat) : Int) = nearestLevel x
  omega

/-- The end of a band that is at least one level thick is rounded to a level above its start: one
whole step from the start raises the level by one, and the end is not below that. -/
theorem toLevel_start_lt_end (axis : Nat) (start size : Rat) (nonnegative : 0 ≤ start)
    (thick : 1 ≤ size) (within : start + size ≤ axis) :
    toLevel axis start < toLevel axis (start + size) := by
  have stepped : nearestLevel (start + (1 : Nat)) = nearestLevel start + (1 : Nat) :=
    nearestLevel_add start 1 nonnegative
  have above : nearestLevel (start + (1 : Nat)) ≤ nearestLevel (start + size) :=
    nearestLevel_le _ _ (by push_cast; linarith) (by push_cast; linarith)
  rw [← toLevel_eq_nearestLevel axis (start + size) (by linarith) within, stepped,
    ← toLevel_eq_nearestLevel axis start nonnegative (by linarith)] at above
  omega

/-- Levels within the axis never fall when the coordinate rises. There they are the nearest levels,
which never fall. -/
theorem toLevel_le (axis : Nat) (x y : Rat) (nonnegative : 0 ≤ x) (ordered : x ≤ y)
    (within : y ≤ axis) : toLevel axis x ≤ toLevel axis y := by
  have rounded := nearestLevel_le x y nonnegative ordered
  rw [← toLevel_eq_nearestLevel axis x nonnegative (le_trans ordered within),
    ← toLevel_eq_nearestLevel axis y (le_trans nonnegative ordered) within] at rounded
  exact Int.ofNat_le.mp rounded

/-- No level lies beyond the axis. -/
theorem toLevel_le_axis (axis : Nat) (x : Rat) : toLevel axis x ≤ axis := Nat.min_le_right _ _

/-- The levels of a band that is at least one level thick run from its rounded start to one below
its rounded end. The end is never taken below zero or below the start, because it is rounded to a
level above the start. -/
theorem levelsOf_eq (axis : Nat) (start size : Rat) (nonnegative : 0 ≤ start)
    (thick : 1 ≤ size) (within : start + size ≤ axis) :
    levelsOf axis start size = (toLevel axis start, toLevel axis (start + size) - 1) := by
  have covers := toLevel_start_lt_end axis start size nonnegative thick within
  rw [levelsOf, Nat.max_eq_left (by omega)]

end CalendarDial.Bands
