import CalendarDial.Proofs.Bands.EvenSplit

/-!
# Parts of a program

A program may contain another one: some of its positions, with the pairs among them, and no pair
between these positions and the others. All sizes together should fill the axis once for every
event, which seems to tie the parts to each other. But no feasible size exceeds the axis, so the sum
never overshoots, and what it lacks is what the single sizes lack. The cost of a feasible point is
therefore the sum of what it costs inside the part and what it costs outside.

A point of the part can be put in place of what another point has there. Nothing changes outside, so
what is best for the whole is best for the part.
-/

namespace CalendarDial.Bands

/-- The bands at the given positions alone. -/
def Point.only (positions : List Nat) (x : Point) : Point where
  start k := x.start (positions.getD k 0)
  size k := x.size (positions.getD k 0)

/-- The bands of `y` put at the given positions, in order, and those of `x` at all others. -/
def Point.glue (positions : List Nat) (y x : Point) : Point where
  start i := if i ∈ positions then y.start (positions.idxOf i) else x.start i
  size i := if i ∈ positions then y.size (positions.idxOf i) else x.size i

namespace Point

variable (positions : List Nat)

/-- Of the bands at the given positions, each is the one at its position. The default of the lookup
is never used. -/
theorem only_at (x : Point) (k i : Nat) (found : positions[k]? = some i) :
    (x.only positions).start k = x.start i ∧ (x.only positions).size k = x.size i := by
  simp only [only, List.getD_eq_getElem?_getD, found, Option.getD_some, and_self]

/-- At a given position stands the band that was put there. The position occurs only once in the
list, so it is found at the place it was taken from. -/
theorem glue_at (distinct : positions.Nodup) (y x : Point) (k i : Nat)
    (found : positions[k]? = some i) :
    (glue positions y x).start i = y.start k ∧ (glue positions y x).size i = y.size k := by
  obtain ⟨bound, rfl⟩ := List.getElem?_eq_some_iff.mp found
  have member : positions[k] ∈ positions := List.getElem_mem bound
  simp only [glue, if_pos member, distinct.idxOf_getElem, and_self]

/-- Everywhere else nothing changes. -/
theorem glue_outside (y x : Point) (i : Nat) (outside : i ∉ positions) :
    (glue positions y x).start i = x.start i ∧ (glue positions y x).size i = x.size i := by
  simp only [glue, if_neg outside, and_self]

/-- Points that give the first events the same bands do so at given positions among them. The bands
compared are those at these positions, which are among the first. -/
theorem sameUpTo_only (count : Nat) (within : ∀ i ∈ positions, i < count) (x y : Point)
    (same : x.SameUpTo count y) :
    (x.only positions).SameUpTo positions.length (y.only positions) := by
  intro k bound
  have found : positions[k]? = some positions[k] := List.getElem?_eq_getElem bound
  obtain ⟨starts, sizes⟩ := only_at positions x k _ found
  obtain ⟨startThere, sizeThere⟩ := only_at positions y k _ found
  rw [starts, sizes, startThere, sizeThere]
  exact same _ (within _ (List.getElem_mem bound))

/-- What has been put at the given positions is what is found there. Looking up a place and finding
its position again cancel, since no position is given twice. -/
theorem sameUpTo_only_glue (distinct : positions.Nodup) (y x : Point) :
    y.SameUpTo positions.length ((glue positions y x).only positions) := by
  intro k bound
  have found : positions[k]? = some positions[k] := List.getElem?_eq_getElem bound
  obtain ⟨starts, sizes⟩ := glue_at positions distinct y x k _ found
  obtain ⟨startThere, sizeThere⟩ := only_at positions (glue positions y x) k _ found
  exact ⟨(startThere.trans starts).symm, (sizeThere.trans sizes).symm⟩

end Point

namespace Program

/-- One program is the part of another at some of its positions: it has the same axis, its pairs are
the pairs among these positions, and no other position is paired with one of them. Both list every
pair once. -/
structure Part (program part : Program) (positions : List Nat) : Prop where
  axis : part.axis = program.axis
  count : part.count = positions.length
  distinct : positions.Nodup
  within : ∀ i ∈ positions, i < program.count
  closed : ∀ i j, (i, j) ∈ program.pairs → (i ∈ positions ↔ j ∈ positions)
  pairs : ∀ k l, (k, l) ∈ part.pairs ↔
    ∃ i j, positions[k]? = some i ∧ positions[l]? = some j ∧ (i, j) ∈ program.pairs
  once : program.pairs.Nodup
  oncePart : part.pairs.Nodup
  inRange : part.InRange

/-- What a difference in size costs. -/
def difference (x : Point) (pair : Nat × Nat) : Rat := (x.size pair.1 - x.size pair.2).abs / 2

/-- What a size lacks to fill the axis. -/
def lack (program : Program) (x : Point) (i : Nat) : Rat := program.axis - x.size i

/-- What the single sizes lack is together what their sum lacks. A sum of differences is the
difference of the sums, and the axis is counted once for every event. -/
theorem total_lack (program : Program) (x : Point) :
    Rational.total ((List.range program.count).map (program.lack x)) =
      program.axis * program.count - program.totalSize x := by
  have whole : Rational.total ((List.range program.count).map (program.lack x)) +
      program.totalSize x = program.axis * program.count := by
    rw [totalSize, Rational.total_eq_sum, Rational.total_eq_sum, ← List.sum_map_add]
    simp only [lack, sub_add_cancel, List.map_const', List.length_range, List.sum_replicate,
      nsmul_eq_mul, mul_comm]
  exact eq_sub_of_add_eq whole

/-- The cost of a feasible point is the cost of all differences in size and what every single size
lacks: no size exceeds the axis, so their sum does not overshoot. -/
theorem cost_of_feasible (program : Program) (x : Point) (feasible : program.Feasible x) :
    program.cost x = program.unevenness x +
      Rational.total ((List.range program.count).map (program.lack x)) := by
  have nonneg : 0 ≤ program.axis * program.count - program.totalSize x := by
    rw [← total_lack, Rational.total_eq_sum]
    refine List.sum_nonneg (List.forall_mem_map.mpr fun i bound => ?_)
    obtain ⟨-, -, -, confined, -⟩ :=
      ((program.feasible_iff x).mp feasible).1 i (List.mem_range.mp bound)
    exact sub_nonneg.mpr confined
  rw [cost, Rational.larger_eq_max, max_eq_right nonneg, total_lack]
  rfl

/-- What a point costs outside the given positions: the differences in size of the pairs there, and
what the sizes there lack. -/
def costOutside (program : Program) (positions : List Nat) (x : Point) : Rat :=
  Rational.total ((program.pairs.filter fun pair => pair.1 ∉ positions).map (difference x)) +
    Rational.total (((List.range program.count).filter fun i => i ∉ positions).map
      (program.lack x))

/-- The cost outside the given positions is the same for points that agree there. A pair that begins
outside also ends there, so both of its sizes are sizes at which the points agree. -/
theorem costOutside_congr (program part : Program) (positions : List Nat)
    (isPart : program.Part part positions) (x y : Point)
    (same : ∀ i, i ∉ positions → x.size i = y.size i) :
    program.costOutside positions x = program.costOutside positions y := by
  have pairs : (program.pairs.filter fun pair => pair.1 ∉ positions).map (difference x) =
      (program.pairs.filter fun pair => pair.1 ∉ positions).map (difference y) := by
    apply List.map_congr_left
    rintro ⟨i, j⟩ present
    obtain ⟨paired, first⟩ := List.mem_filter.mp present
    have first : i ∉ positions := of_decide_eq_true first
    have second : j ∉ positions := mt (isPart.closed i j paired).mpr first
    rw [difference, difference, same i first, same j second]
  have singles : ((List.range program.count).filter fun i => i ∉ positions).map (program.lack x) =
      ((List.range program.count).filter fun i => i ∉ positions).map (program.lack y) := by
    apply List.map_congr_left
    intro i present
    have outside : i ∉ positions := of_decide_eq_true (List.mem_filter.mp present).2
    rw [lack, lack, same i outside]
  rw [costOutside, costOutside, pairs, singles]

namespace Part

variable {program part : Program} {positions : List Nat}

/-- A pair of the part stands for the pair of the whole at its positions. -/
theorem getD_of_mem_pairs (isPart : program.Part part positions) (k l : Nat)
    (paired : (k, l) ∈ part.pairs) :
    positions[k]? = some (positions.getD k 0) ∧ positions[l]? = some (positions.getD l 0) ∧
      (positions.getD k 0, positions.getD l 0) ∈ program.pairs := by
  obtain ⟨i, j, first, second, whole⟩ := (isPart.pairs k l).mp paired
  simp only [List.getD_eq_getElem?_getD, first, second, Option.getD_some, whole, and_self]

/-- The pairs of the part stand for those pairs of the whole that begin at its positions. Neither
list repeats a pair, because no position is given twice, so it is enough that they have the same
members. -/
theorem perm_pairs (isPart : program.Part part positions) :
    (part.pairs.map fun pair => (positions.getD pair.1 0, positions.getD pair.2 0)).Perm
      (program.pairs.filter fun pair => pair.1 ∈ positions) := by
  have distinct (k l : Nat) (i : Nat) (first : positions[k]? = some i)
      (second : positions[l]? = some i) : k = l :=
    (List.getElem?_inj (List.getElem?_eq_some_iff.mp first).1 isPart.distinct).mp
      (first.trans second.symm)
  have once : (part.pairs.map fun pair =>
      (positions.getD pair.1 0, positions.getD pair.2 0)).Nodup := by
    refine isPart.oncePart.map_on ?_
    rintro ⟨k, l⟩ paired ⟨m, n⟩ also same
    obtain ⟨first, second, -⟩ := isPart.getD_of_mem_pairs k l paired
    obtain ⟨third, fourth, -⟩ := isPart.getD_of_mem_pairs m n also
    obtain ⟨sameFirst, sameSecond⟩ := Prod.mk.inj same
    rw [Prod.mk.injEq]
    exact ⟨distinct k m _ first (sameFirst ▸ third), distinct l n _ second (sameSecond ▸ fourth)⟩
  refine (List.perm_ext_iff_of_nodup once (isPart.once.filter _)).mpr ?_
  rintro ⟨i, j⟩
  rw [List.mem_map, List.mem_filter, decide_eq_true_iff]
  constructor
  · rintro ⟨⟨k, l⟩, paired, same⟩
    obtain ⟨rfl, rfl⟩ := Prod.mk.inj same
    obtain ⟨first, -, whole⟩ := isPart.getD_of_mem_pairs k l paired
    exact ⟨whole, List.mem_of_getElem? first⟩
  · rintro ⟨whole, member⟩
    obtain ⟨k, first⟩ := List.mem_iff_getElem?.mp member
    obtain ⟨l, second⟩ := List.mem_iff_getElem?.mp ((isPart.closed i j whole).mp member)
    refine ⟨(k, l), (isPart.pairs k l).mpr ⟨i, j, first, second, whole⟩, ?_⟩
    simp only [List.getD_eq_getElem?_getD, first, second, Option.getD_some]

/-- The positions of the part are the positions of the whole that belong to it. Both lists are
without repetition and have the same members. -/
theorem perm_positions (isPart : program.Part part positions) :
    positions.Perm ((List.range program.count).filter fun i => i ∈ positions) := by
  refine (List.perm_ext_iff_of_nodup isPart.distinct (List.nodup_range.filter _)).mpr fun i => ?_
  rw [List.mem_filter, List.mem_range, decide_eq_true_iff]
  exact ⟨fun member => ⟨isPart.within i member, member⟩, And.right⟩

/-- What is feasible for the whole is feasible for the part. Every band has what it needs alone, and
a pair of the part is a pair of the whole. -/
theorem feasible_only (isPart : program.Part part positions) (x : Point)
    (feasible : program.Feasible x) : part.Feasible (x.only positions) := by
  obtain ⟨singles, pairs⟩ := (program.feasible_iff x).mp feasible
  rw [feasible_iff, isPart.axis, isPart.count]
  constructor
  · intro k bound
    have found : positions[k]? = some positions[k] := List.getElem?_eq_getElem bound
    obtain ⟨starts, sizes⟩ := Point.only_at positions x k _ found
    rw [starts, sizes]
    exact singles _ (isPart.within _ (List.getElem_mem bound))
  · intro k l paired
    obtain ⟨first, second, whole⟩ := isPart.getD_of_mem_pairs k l paired
    obtain ⟨starts, sizes⟩ := Point.only_at positions x k _ first
    rw [starts, sizes, (Point.only_at positions x l _ second).1]
    exact pairs _ _ whole

/-- A feasible point stays feasible when its bands at the positions of the part are replaced by
those of a point that is feasible for the part. No pair has one position inside and one outside, so
each pair is kept by the one point or by the other. -/
theorem feasible_glue (isPart : program.Part part positions) (y x : Point)
    (feasiblePart : part.Feasible y) (feasible : program.Feasible x) :
    program.Feasible (Point.glue positions y x) := by
  obtain ⟨singles, pairs⟩ := (program.feasible_iff x).mp feasible
  obtain ⟨singlesPart, pairsPart⟩ := (part.feasible_iff y).mp feasiblePart
  rw [isPart.axis, isPart.count] at singlesPart
  rw [feasible_iff]
  constructor
  · intro i bound
    by_cases inside : i ∈ positions
    · obtain ⟨k, found⟩ := List.mem_iff_getElem?.mp inside
      obtain ⟨starts, sizes⟩ := Point.glue_at positions isPart.distinct y x k i found
      rw [starts, sizes]
      exact singlesPart k (List.getElem?_eq_some_iff.mp found).1
    · obtain ⟨starts, sizes⟩ := Point.glue_outside positions y x i inside
      rw [starts, sizes]
      exact singles i bound
  · intro i j paired
    by_cases inside : i ∈ positions
    · obtain ⟨k, first⟩ := List.mem_iff_getElem?.mp inside
      obtain ⟨l, second⟩ := List.mem_iff_getElem?.mp ((isPart.closed i j paired).mp inside)
      obtain ⟨starts, sizes⟩ := Point.glue_at positions isPart.distinct y x k i first
      rw [starts, sizes, (Point.glue_at positions isPart.distinct y x l j second).1]
      exact pairsPart k l ((isPart.pairs k l).mpr ⟨i, j, first, second, paired⟩)
    · obtain ⟨starts, sizes⟩ := Point.glue_outside positions y x i inside
      have outside := mt (isPart.closed i j paired).mpr inside
      rw [starts, sizes, (Point.glue_outside positions y x j outside).1]
      exact pairs i j paired

/-- The cost of a feasible point is what it costs the part and what it costs outside. The
differences in size and what the sizes lack are sums over pairs and positions, and each of these
belongs to the part or lies outside it. -/
theorem cost_eq (isPart : program.Part part positions) (x : Point)
    (feasible : program.Feasible x) :
    program.cost x = part.cost (x.only positions) + program.costOutside positions x := by
  have pairs : part.unevenness (x.only positions) =
      Rational.total ((program.pairs.filter fun pair => pair.1 ∈ positions).map
        (difference x)) := by
    rw [← Rational.total_map_perm (difference x) _ _ isPart.perm_pairs, List.map_map]
    rfl
  have whole : program.unevenness x = Rational.total (program.pairs.map (difference x)) := rfl
  have singles : Rational.total ((List.range part.count).map (part.lack (x.only positions))) =
      Rational.total (((List.range program.count).filter fun i => i ∈ positions).map
        (program.lack x)) := by
    rw [← Rational.total_map_perm (program.lack x) _ _ isPart.perm_positions, isPart.count]
    congr 1
    apply List.ext_getElem
    · simp only [List.length_map, List.length_range]
    · intro k bound also
      have inside : k < positions.length := by simpa only [List.length_map] using also
      have found : positions[k]? = some positions[k] := List.getElem?_eq_getElem inside
      simp only [List.getElem_map, List.getElem_range, lack, isPart.axis,
        (Point.only_at positions x k _ found).2]
  rw [program.cost_of_feasible x feasible,
    part.cost_of_feasible _ (isPart.feasible_only x feasible), whole, pairs, singles, costOutside,
    ← Rational.total_filter_add_total_filter_not (difference x) (fun pair => pair.1 ∈ positions),
    ← Rational.total_filter_add_total_filter_not (program.lack x) (fun i => i ∈ positions)]
  exact add_add_add_comm _ _ _ _

/-- Replacing the bands of a feasible point at the positions of the part changes its cost there and
nowhere else. At the positions of the part stand the new bands, and outside all bands are the old
ones. -/
theorem cost_glue (isPart : program.Part part positions) (y x : Point)
    (feasiblePart : part.Feasible y) (feasible : program.Feasible x) :
    program.cost (Point.glue positions y x) = part.cost y + program.costOutside positions x := by
  have same := Point.sameUpTo_only_glue positions isPart.distinct y x
  rw [← isPart.count] at same
  rw [isPart.cost_eq _ (isPart.feasible_glue y x feasiblePart feasible),
    ← part.cost_congr isPart.inRange y _ same,
    program.costOutside_congr part positions isPart _ x fun i outside =>
      (Point.glue_outside positions y x i outside).2]

/-- What is best for the whole is best for the part. Anything better there could be put in its
place: the cost outside stays the same on both sides and cancels, so the whole would have become
better too. -/
theorem optimal_only (isPart : program.Part part positions) (x : Point)
    (optimal : program.Optimal x) : part.Optimal (x.only positions) := by
  obtain ⟨feasible, least⟩ := optimal
  refine ⟨isPart.feasible_only x feasible, fun y feasiblePart => ?_⟩
  have better := least _ (isPart.feasible_glue y x feasiblePart feasible)
  rw [isPart.cost_eq x feasible, isPart.cost_glue y x feasiblePart feasible] at better
  exact le_of_add_le_add_right better

/-- An optimal point stays optimal when its bands at the positions of the part are replaced by those
of a point that is optimal for the part. It costs the part no more than before and the same
outside. -/
theorem optimal_glue (isPart : program.Part part positions) (y x : Point)
    (optimalPart : part.Optimal y) (optimal : program.Optimal x) :
    program.Optimal (Point.glue positions y x) := by
  obtain ⟨feasiblePart, leastPart⟩ := optimalPart
  obtain ⟨feasible, least⟩ := optimal
  refine ⟨isPart.feasible_glue y x feasiblePart feasible, fun z feasibleOther => ?_⟩
  calc program.cost (Point.glue positions y x)
      = part.cost y + program.costOutside positions x :=
        isPart.cost_glue y x feasiblePart feasible
    _ ≤ part.cost (x.only positions) + program.costOutside positions x :=
        add_le_add_left (leastPart _ (isPart.feasible_only x feasible)) _
    _ = program.cost x := (isPart.cost_eq x feasible).symm
    _ ≤ program.cost z := least z feasibleOther

/-- If the whole has a single optimum, so has the part: what that optimum has at its positions. An
optimum of the part, put in its place, makes an optimum of the whole, and that is the only one. -/
theorem sameUpTo_only_of_unique (isPart : program.Part part positions) (x y : Point)
    (optimal : program.Optimal x)
    (unique : ∀ z, program.Optimal z → x.SameUpTo program.count z) (optimalPart : part.Optimal y) :
    (x.only positions).SameUpTo positions.length y := by
  have same := unique _ (isPart.optimal_glue y x optimalPart optimal)
  exact (Point.sameUpTo_only positions _ isPart.within x _ same).trans
    (Point.sameUpTo_only_glue positions isPart.distinct y x).symm

end Part

end Program

end CalendarDial.Bands
