import Mathlib.Algebra.Order.BigOperators.Group.List
import Mathlib.Tactic.GCongr
import Mathlib.Tactic.Positivity
import CalendarDial.Proofs.Bands.Optimality

/-!
# A chain of events splits the axis evenly

Where every event overlaps the next one, the bands of a feasible point lie one above the other, and
all sizes together are at most the axis. So no point costs less than what the sizes then lack, and a
point that costs no more uses up the axis and gives all events the same size. This leaves room for a
single point: the axis cut into equal parts, one for each event from the bottom up.
-/

namespace CalendarDial.Bands

/-- An axis cut into equal parts, one for each of the events from the bottom up. -/
def evenSplit (axis count : Nat) : Point where
  start i := i * axis / count
  size _ := axis / count

namespace evenSplit

variable (axis count : Nat)

/-- The first part starts at the bottom. -/
theorem start_zero : (evenSplit axis count).start 0 = 0 := by
  simp only [evenSplit, Nat.cast_zero, zero_mul, zero_div]

/-- The next part would start at the end of the axis after the last one. -/
theorem start_count (some : 0 < count) : (evenSplit axis count).start count = axis :=
  mul_div_cancel_left₀ _ (Nat.cast_ne_zero.mpr some.ne')

/-- A part ends where the next one starts. -/
theorem start_add_size (i : Nat) :
    (evenSplit axis count).start i + (evenSplit axis count).size i =
      (evenSplit axis count).start (i + 1) := by
  simp only [evenSplit]
  push_cast
  ring

/-- Later parts do not start below earlier ones, for each start is its position times the same
size. -/
theorem start_le (i j : Nat) (ordered : i ≤ j) :
    (evenSplit axis count).start i ≤ (evenSplit axis count).start j := by
  have order : (i : Rat) ≤ j := Nat.cast_le.mpr ordered
  simp only [evenSplit]
  gcongr

/-- No part starts below the axis. -/
theorem start_nonneg (i : Nat) : 0 ≤ (evenSplit axis count).start i :=
  start_zero axis count ▸ start_le axis count 0 i (Nat.zero_le i)

/-- No part starts beyond the axis. -/
theorem start_le_axis (some : 0 < count) (i : Nat) (within : i ≤ count) :
    (evenSplit axis count).start i ≤ axis :=
  start_count axis count some ▸ start_le axis count i count within

/-- No part ends beyond the axis. -/
theorem start_add_size_le_axis (some : 0 < count) (i : Nat) (bound : i < count) :
    (evenSplit axis count).start i + (evenSplit axis count).size i ≤ axis := by
  rw [start_add_size]
  exact start_le_axis axis count some (i + 1) bound

/-- A part is at least as thick as a level when every event can have a level of its own: then the
axis is no shorter than the number of parts it is cut into. -/
theorem one_le_size (some : 0 < count) (room : count ≤ axis) (i : Nat) :
    1 ≤ (evenSplit axis count).size i :=
  (one_le_div (Nat.cast_pos.mpr some)).mpr (Nat.cast_le.mpr room)

end evenSplit

/-- The sizes of the first bands together, as many as asked for. -/
def sizesBelow (x : Point) (k : Nat) : Rat := Rational.total ((List.range k).map x.size)

/-- No bands have no size. -/
theorem sizesBelow_zero (x : Point) : sizesBelow x 0 = 0 := rfl

/-- One band more adds its size. -/
theorem sizesBelow_succ (x : Point) (k : Nat) :
    sizesBelow x (k + 1) = sizesBelow x k + x.size k := by
  rw [sizesBelow, List.range_succ, List.map_append, Rational.total_append, List.map_singleton]
  exact congrArg _ (add_zero _)

/-- Bands of one size are together as large as their number says. -/
theorem sizesBelow_of_same (x : Point) (size : Rat) (k : Nat) (same : ∀ i < k, x.size i = size) :
    sizesBelow x k = k * size := by
  induction k with
  | zero => rw [sizesBelow_zero, Nat.cast_zero, zero_mul]
  | succ k inductionHypothesis =>
    rw [sizesBelow_succ, inductionHypothesis fun i lower => same i (Nat.lt_succ_of_lt lower),
      same k (Nat.lt_succ_self k)]
    push_cast
    ring

namespace Program

/-- Every event overlaps the next one. -/
def Chained (program : Program) : Prop :=
  ∀ i, i + 1 < program.count → (i, i + 1) ∈ program.pairs

/-- The program of a list in which every event overlaps the next one. Its neighbours are pairs of
positions in order whose events overlap. -/
theorem chained_ofEvents (events : List ClippedEvent) (axis : Nat)
    (chained : events.IsChain fun a b => Overlaps a b) : (ofEvents events axis).Chained := by
  intro i bound
  have overlap := chained.getElem i bound
  exact mem_positionPairs_iff.mpr ⟨Nat.lt_succ_self i, _, _, List.getElem?_eq_getElem _,
    List.getElem?_eq_getElem bound, overlap⟩

/-- The even split is feasible when every event can have a level of its own. A later position starts
at or above the part after the earlier one, and so above where the earlier one ends. -/
theorem feasible_evenSplit (program : Program) (inRange : program.InRange)
    (some : 0 < program.count) (room : program.count ≤ program.axis) :
    program.Feasible (evenSplit program.axis program.count) := by
  rw [feasible_iff]
  constructor
  · intro i bound
    have start := evenSplit.start_nonneg program.axis program.count i
    have thick := evenSplit.one_le_size program.axis program.count some room i
    have within := evenSplit.start_add_size_le_axis program.axis program.count some i bound
    refine ⟨start, ?_, thick, ?_, within⟩ <;> linarith
  · intro i j paired
    rw [evenSplit.start_add_size]
    exact evenSplit.start_le program.axis program.count (i + 1) j (inRange i j paired).1

/-- Bands with the sizes of the even split use up the axis. -/
theorem totalSize_of_size (program : Program) (some : 0 < program.count) (x : Point)
    (sizes : ∀ i < program.count, x.size i = program.axis / program.count) :
    program.totalSize x = program.axis := by
  have positive : (program.count : Rat) ≠ 0 := Nat.cast_ne_zero.mpr some.ne'
  calc program.totalSize x
      = program.count * (program.axis / program.count) := sizesBelow_of_same x _ _ sizes
    _ = program.axis := mul_div_cancel₀ _ positive

/-- In a chain, bands between two positions lie one above the other. The induction goes up one
position at a time, and each band ends at or below the start of the next because the two events
overlap. -/
theorem start_add_sizes_le (program : Program) (chained : program.Chained) (x : Point)
    (feasible : program.Feasible x) (i j : Nat) (ordered : i ≤ j) (bound : j < program.count) :
    x.start i + (sizesBelow x j - sizesBelow x i) ≤ x.start j := by
  induction j, ordered using Nat.le_induction with
  | base => linarith
  | succ j ordered inductionHypothesis =>
    have earlier := inductionHypothesis (by omega)
    have above := ((program.feasible_iff x).mp feasible).2 j (j + 1) (chained j bound)
    rw [sizesBelow_succ]
    linarith

/-- In a chain, a band and all later ones have room up to the end of the axis. The bands are stacked
up to the last one, which ends within the axis. -/
theorem start_add_sizes_le_axis (program : Program) (chained : program.Chained) (x : Point)
    (feasible : program.Feasible x) (i : Nat) (bound : i < program.count) :
    x.start i + (program.totalSize x - sizesBelow x i) ≤ program.axis := by
  obtain ⟨last, count⟩ := Nat.exists_eq_succ_of_ne_zero (Nat.ne_zero_of_lt bound)
  have stacked := program.start_add_sizes_le chained x feasible i last (by omega) (by omega)
  obtain ⟨-, -, -, -, within⟩ := ((program.feasible_iff x).mp feasible).1 last (by omega)
  have total : program.totalSize x = sizesBelow x last + x.size last := by
    rw [← sizesBelow_succ, ← Nat.succ_eq_add_one, ← count]
    rfl
  rw [total]
  linarith

/-- In a chain, the sizes are together at most the axis. The first band starts at zero or above it,
and from there on all sizes have room. -/
theorem totalSize_le_axis (program : Program) (chained : program.Chained)
    (some : 0 < program.count) (x : Point) (feasible : program.Feasible x) :
    program.totalSize x ≤ program.axis := by
  have whole := program.start_add_sizes_le_axis chained x feasible 0 some
  obtain ⟨start, -⟩ := ((program.feasible_iff x).mp feasible).1 0 some
  rw [sizesBelow_zero] at whole
  linarith

/-- What the differences in size between overlapping events cost. -/
def unevenness (program : Program) (x : Point) : Rat :=
  Rational.total (program.pairs.map fun pair => (x.size pair.1 - x.size pair.2).abs / 2)

/-- Nothing is saved by a difference in size. -/
theorem differences_nonneg (program : Program) (x : Point) :
    ∀ difference ∈ program.pairs.map (fun pair => (x.size pair.1 - x.size pair.2).abs / 2),
      0 ≤ difference := by
  rintro _ listed
  obtain ⟨pair, -, rfl⟩ := List.mem_map.mp listed
  rw [Rational.abs_eq]
  positivity

/-- Nothing is saved by all differences in size together. It is a sum of halves of absolute
values. -/
theorem unevenness_nonneg (program : Program) (x : Point) : 0 ≤ program.unevenness x := by
  rw [unevenness, Rational.total_eq_sum]
  exact List.sum_nonneg (program.differences_nonneg x)

/-- A single difference in size costs no more than all of them. The others are not negative. -/
theorem difference_le_unevenness (program : Program) (x : Point) (i j : Nat)
    (paired : (i, j) ∈ program.pairs) : |x.size i - x.size j| / 2 ≤ program.unevenness x := by
  rw [unevenness, Rational.total_eq_sum, ← Rational.abs_eq]
  exact List.single_le_sum (program.differences_nonneg x) _
    (List.mem_map.mpr ⟨(i, j), paired, rfl⟩)

/-- A point costs at least its differences in size and what its sizes lack. The cost counts what the
sizes lack as zero if they lack nothing, and this bound counts it as negative. -/
theorem le_cost (program : Program) (x : Point) :
    program.unevenness x + (program.axis * program.count - program.totalSize x) ≤
      program.cost x := by
  rw [cost, Rational.larger_eq_max]
  exact add_le_add_right (le_max_right _ _) (program.unevenness x)

/-- The even split costs what any sizes on the axis lack at least. All its sizes are the same, so no
difference costs anything, and together they are the axis once, which is no more than once for every
event. -/
theorem cost_evenSplit (program : Program) (some : 0 < program.count) :
    program.cost (evenSplit program.axis program.count) =
      program.axis * program.count - program.axis := by
  have single : (1 : Rat) ≤ program.count := Nat.one_le_cast.mpr some
  have lacking : (0 : Rat) ≤ program.axis * program.count - program.axis := by
    have axis : (0 : Rat) ≤ program.axis := Nat.cast_nonneg _
    nlinarith
  have level : program.unevenness (evenSplit program.axis program.count) = 0 := by
    rw [unevenness, ← Rational.total_map_zero program.pairs]
    apply congrArg Rational.total
    apply List.map_congr_left
    intro pair present
    simp only [evenSplit, sub_self, Rational.abs_eq, abs_zero, zero_div]
  calc program.cost (evenSplit program.axis program.count)
      = program.unevenness (evenSplit program.axis program.count) +
          Rational.larger 0 (program.axis * program.count -
            program.totalSize (evenSplit program.axis program.count)) := rfl
    _ = program.axis * program.count - program.axis := by
      rw [level, zero_add, program.totalSize_of_size some _ fun _ _ => rfl, Rational.larger_eq_max,
        max_eq_right lacking]

/-- In a chain no point costs less than what sizes that only use up the axis lack. The sizes cannot
be more than the axis together, and differences in size only add to the cost. -/
theorem lacking_le_cost (program : Program) (chained : program.Chained)
    (some : 0 < program.count) (x : Point) (feasible : program.Feasible x) :
    program.axis * program.count - program.axis ≤ program.cost x := by
  have whole := program.totalSize_le_axis chained some x feasible
  have level := program.unevenness_nonneg x
  calc (program.axis * program.count - program.axis : Rat)
      ≤ program.unevenness x + (program.axis * program.count - program.totalSize x) := by linarith
    _ ≤ program.cost x := program.le_cost x

/-- In a chain all sizes are the same where no difference in size costs anything. Each size is that
of the event before, since a single difference costs no more than all of them and these cost
nothing. -/
theorem size_eq_first (program : Program) (chained : program.Chained) (x : Point)
    (level : program.unevenness x ≤ 0) (i : Nat) (bound : i < program.count) :
    x.size i = x.size 0 := by
  induction i with
  | zero => rfl
  | succ i inductionHypothesis =>
    have difference := program.difference_le_unevenness x i (i + 1) (chained i bound)
    have none : |x.size i - x.size (i + 1)| ≤ 0 := by linarith
    have equal : x.size i = x.size (i + 1) := sub_eq_zero.mp (abs_nonpos_iff.mp none)
    rw [← equal, inductionHypothesis (by omega)]

/-- In a chain a point that costs as little as possible has the sizes of the even split. Its sizes
must be the whole axis together, and no difference in size may cost anything, so all are the same
share of it. -/
theorem size_of_cheap (program : Program) (chained : program.Chained) (some : 0 < program.count)
    (x : Point) (feasible : program.Feasible x)
    (cheap : program.cost x ≤ program.axis * program.count - program.axis) (i : Nat)
    (bound : i < program.count) : x.size i = program.axis / program.count := by
  have whole := program.totalSize_le_axis chained some x feasible
  have nonneg := program.unevenness_nonneg x
  have bounded := (program.le_cost x).trans cheap
  have full : program.totalSize x = program.axis := by linarith
  have same := program.size_eq_first chained x (by linarith)
  have product : (program.count : Rat) * x.size 0 = program.axis :=
    (sizesBelow_of_same x _ program.count same).symm.trans full
  rw [same i bound, ← product, mul_div_cancel_left₀ _ (Nat.cast_ne_zero.mpr some.ne')]

/-- In a chain, bands with the sizes of the even split have no room to start anywhere else. The
bands below one push it up to its place in the split, and the bands above, up to the end of the
axis, hold it down there. -/
theorem sameUpTo_evenSplit_of_size (program : Program) (chained : program.Chained) (x : Point)
    (feasible : program.Feasible x)
    (sizes : ∀ i < program.count, x.size i = program.axis / program.count) :
    x.SameUpTo program.count (evenSplit program.axis program.count) := by
  intro i bound
  have some : 0 < program.count := Nat.zero_lt_of_lt bound
  have full := program.totalSize_of_size some x sizes
  have below : sizesBelow x i = i * program.axis / program.count := by
    rw [sizesBelow_of_same x _ i fun k lower => sizes k (by omega), mul_div_assoc]
  have lower := program.start_add_sizes_le chained x feasible 0 i (Nat.zero_le i) bound
  have upper := program.start_add_sizes_le_axis chained x feasible i bound
  obtain ⟨start, -⟩ := ((program.feasible_iff x).mp feasible).1 0 some
  rw [sizesBelow_zero] at lower
  refine ⟨?_, sizes i bound⟩
  change x.start i = i * program.axis / program.count
  linarith

/-- In a chain with room for every event, a point is optimal exactly when its bands are those of the
even split. The even split costs only what any sizes on the axis lack, nothing costs less, and what
costs no more has its sizes and then its starts. -/
theorem optimal_iff_evenSplit (program : Program) (inRange : program.InRange)
    (chained : program.Chained) (some : 0 < program.count) (room : program.count ≤ program.axis)
    (x : Point) :
    program.Optimal x ↔ x.SameUpTo program.count (evenSplit program.axis program.count) := by
  have possible := program.feasible_evenSplit inRange some room
  have least := program.cost_evenSplit some
  constructor
  · rintro ⟨feasible, cheapest⟩
    have cheap := (cheapest _ possible).trans_eq least
    exact program.sameUpTo_evenSplit_of_size chained x feasible
      (program.size_of_cheap chained some x feasible cheap)
  · intro same
    refine ⟨program.feasible_congr inRange _ x same.symm possible, fun y feasible => ?_⟩
    calc program.cost x
        = program.axis * program.count - program.axis :=
          (program.cost_congr inRange x _ same).trans least
      _ ≤ program.cost y := program.lacking_le_cost chained some y feasible

end Program

end CalendarDial.Bands
