import CalendarDial.PositionPairs

/-!
# How deep events are stacked

The depth of an event counts the longest chain of overlapping events, each later in the list than
the one before, that ends with it. Along such a chain every band lies below the next and covers at
least one level, so an event cannot be lower than its depth allows.

Depths are computed from the first position to the last, and only from the overlapping pairs.
-/

namespace CalendarDial.Bands

/-- The depth of position `k` when the earlier positions have the given depths: one more than the
greatest of those that are paired with it, and one if there are none. -/
def depthAfter (pairs : List (Nat × Nat)) (earlier : List Nat) (k : Nat) : Nat :=
  1 + ((((List.range k).filter fun a => (a, k) ∈ pairs).map fun a => earlier.getD a 0).max?).getD 0

/-- The depths of the first positions, as many as asked for. -/
def depthsUpTo (pairs : List (Nat × Nat)) : Nat → List Nat
  | 0 => []
  | k + 1 => depthsUpTo pairs k ++ [depthAfter pairs (depthsUpTo pairs k) k]

/-- The depth of position `k`. -/
def depth (pairs : List (Nat × Nat)) (k : Nat) : Nat := depthAfter pairs (depthsUpTo pairs k) k

/-- The list of depths holds the depth of every position before its end. Each one more is computed
from those before it, which are in the list already. -/
theorem depthsUpTo_eq (pairs : List (Nat × Nat)) (k : Nat) :
    depthsUpTo pairs k = (List.range k).map (depth pairs) := by
  induction k with
  | zero => rfl
  | succ k inductionHypothesis =>
    calc depthsUpTo pairs (k + 1)
        = depthsUpTo pairs k ++ [depth pairs k] := rfl
      _ = (List.range (k + 1)).map (depth pairs) := by
        rw [inductionHypothesis, List.range_succ, List.map_append, List.map_singleton]

/-- The depth of a position is one more than the greatest depth of an earlier position that is
paired with it, and one if there is none. The definition looks the earlier depths up in the list of
those before the position, where each of them is found. -/
theorem depth_eq (pairs : List (Nat × Nat)) (k : Nat) :
    depth pairs k =
      1 + ((((List.range k).filter fun a => (a, k) ∈ pairs).map (depth pairs)).max?).getD 0 := by
  have known : ∀ a ∈ (List.range k).filter fun a => (a, k) ∈ pairs,
      (depthsUpTo pairs k).getD a 0 = depth pairs a := by
    intro a present
    have earlier : a < k := List.mem_range.mp (List.mem_filter.mp present).1
    rw [depthsUpTo_eq, List.getD_eq_getElem?_getD, List.getElem?_map, List.getElem?_range earlier]
    rfl
  rw [depth, depthAfter, List.map_congr_left known]

/-- No depth is zero. -/
theorem one_le_depth (pairs : List (Nat × Nat)) (k : Nat) : 1 ≤ depth pairs k :=
  Nat.le_add_right 1 _

/-- The later position of a pair is the deeper one: its depth is one more than the greatest of a
list in which the depth of the earlier one occurs. -/
theorem depth_lt_depth (pairs : List (Nat × Nat)) (a k : Nat) (earlier : a < k)
    (paired : (a, k) ∈ pairs) : depth pairs a < depth pairs k := by
  have listed : depth pairs a ∈
      ((List.range k).filter fun a => (a, k) ∈ pairs).map (depth pairs) :=
    List.mem_map_of_mem (List.mem_filter.mpr ⟨List.mem_range.mpr earlier, decide_eq_true paired⟩)
  rw [depth_eq pairs k]
  cases greatest : (((List.range k).filter fun a => (a, k) ∈ pairs).map (depth pairs)).max? with
  | none => simp [List.max?_eq_none_iff.mp greatest] at listed
  | some deepest =>
    have bound : depth pairs a ≤ deepest := (List.max?_eq_some_iff.mp greatest).2 _ listed
    simp only [Option.getD_some]
    omega

/-- A position that is not at depth one is paired with an earlier one that is one less deep. It is
the position whose depth is the greatest among those that are paired with it. -/
theorem depth_eq_one_or_succ (pairs : List (Nat × Nat)) (k : Nat) :
    depth pairs k = 1 ∨ ∃ a < k, (a, k) ∈ pairs ∧ depth pairs k = depth pairs a + 1 := by
  rw [depth_eq pairs k]
  cases greatest : (((List.range k).filter fun a => (a, k) ∈ pairs).map (depth pairs)).max? with
  | none => exact .inl rfl
  | some deepest =>
    obtain ⟨a, present, rfl⟩ := List.mem_map.mp (List.max?_mem greatest)
    obtain ⟨earlier, paired⟩ := List.mem_filter.mp present
    exact .inr ⟨a, List.mem_range.mp earlier, of_decide_eq_true paired, Nat.add_comm 1 _⟩

/-- A chain that ends at a position passes through no more positions than there are up to it. By
strong induction: the position that the chain comes from is an earlier one. -/
theorem depth_le_succ (pairs : List (Nat × Nat)) (k : Nat) : depth pairs k ≤ k + 1 := by
  induction k using Nat.strongRecOn with
  | ind k inductionHypothesis =>
    rcases depth_eq_one_or_succ pairs k with single | ⟨a, earlier, -, below⟩
    · omega
    · have shorter := inductionHypothesis a earlier
      omega

/-- No position is deeper than the axis allows exactly when every position that is paired with a
later one leaves room above it. A position at a depth beyond the axis is one below a position that
already leaves nothing above it, and the later position of a pair is deeper than the earlier one. -/
theorem depth_le_iff (pairs : List (Nat × Nat)) (count axis : Nat) (positive : 1 ≤ axis)
    (inRange : ∀ i j, (i, j) ∈ pairs → i < j ∧ j < count) :
    (∀ k < count, depth pairs k ≤ axis) ↔ ∀ i j, (i, j) ∈ pairs → depth pairs i < axis := by
  constructor
  · intro shallow i j paired
    obtain ⟨ordered, bound⟩ := inRange i j paired
    exact Nat.lt_of_lt_of_le (depth_lt_depth pairs i j ordered paired) (shallow j bound)
  · intro room k _
    rcases depth_eq_one_or_succ pairs k with single | ⟨a, -, paired, deeper⟩
    · omega
    · have below := room a k paired
      omega

/-- Position `i` is the first one that is paired with a later one although nothing of the axis is
left above it, and `j` is the first position that it is paired with. -/
structure FirstTooDeep (pairs : List (Nat × Nat)) (axis i j : Nat) : Prop where
  paired : (i, j) ∈ pairs
  deep : axis ≤ depth pairs i
  first : ∀ a b, (a, b) ∈ pairs → axis ≤ depth pairs a → i ≤ a
  next : ∀ b, (i, b) ∈ pairs → j ≤ b

/-- A pair in a list in lexicographic order comes before a given one or is not smaller. It stands
before the given one, is the given one, or stands behind it, where the order of the list makes it
the greater one. -/
theorem mem_before_or_le (before after : List (Nat × Nat)) (i j : Nat)
    (sorted : (before ++ (i, j) :: after).Pairwise fun first second =>
      first.1 < second.1 ∨ first.1 = second.1 ∧ first.2 < second.2)
    (a b : Nat) (present : (a, b) ∈ before ++ (i, j) :: after) :
    (a, b) ∈ before ∨ i < a ∨ i = a ∧ j ≤ b := by
  rcases List.mem_append.mp present with left | right
  · exact .inl left
  · rcases List.mem_cons.mp right with same | later
    · cases same
      exact .inr (.inr ⟨rfl, Nat.le_refl _⟩)
    · have follows := (List.pairwise_cons.mp (List.pairwise_append.mp sorted).2.1).1 _ later
      exact .inr (follows.imp id fun ⟨same, below⟩ => ⟨same, Nat.le_of_lt below⟩)

/-- In a list of pairs in lexicographic order, a pair that leaves no room after pairs that all do is
the first one of its kind, and all pairs of earlier positions come before it. What is listed before
it leaves room, so whatever leaves none is listed from there on and not smaller. -/
theorem firstTooDeep_of_split (pairs before after : List (Nat × Nat)) (axis i j : Nat)
    (sorted : pairs.Pairwise fun first second =>
      first.1 < second.1 ∨ first.1 = second.1 ∧ first.2 < second.2)
    (split : pairs = before ++ (i, j) :: after) (deep : axis ≤ depth pairs i)
    (low : ∀ a b, (a, b) ∈ before → depth pairs a < axis) :
    FirstTooDeep pairs axis i j ∧ ∀ a b, (a, b) ∈ pairs → a < i → (a, b) ∈ before := by
  have placed := mem_before_or_le before after i j (split ▸ sorted)
  rw [← split] at placed
  have paired : (i, j) ∈ pairs := split ▸ List.mem_append_right _ List.mem_cons_self
  refine ⟨⟨paired, deep, ?_, ?_⟩, ?_⟩
  · intro a b present crowding
    rcases placed a b present with left | later | ⟨same, -⟩
    · have room := low a b left
      omega
    · exact Nat.le_of_lt later
    · exact Nat.le_of_eq same
  · intro b present
    rcases placed i b present with left | later | ⟨-, later⟩
    · have room := low i b left
      omega
    · omega
    · exact later
  · intro a b present smaller
    rcases placed a b present with left | later | ⟨same, -⟩
    · exact left
    · omega
    · omega

/-- Unless every position that is paired with a later one leaves room above it, there is a first
pair that leaves none. Searching the list from the front finds it. -/
theorem exists_first_too_deep (pairs : List (Nat × Nat)) (axis : Nat)
    (crowded : ¬ ∀ i j, (i, j) ∈ pairs → depth pairs i < axis) :
    ∃ before i j after, pairs = before ++ (i, j) :: after ∧ axis ≤ depth pairs i ∧
      ∀ a b, (a, b) ∈ before → depth pairs a < axis := by
  cases found : pairs.find? fun pair => axis ≤ depth pairs pair.1 with
  | none =>
    refine absurd (fun i j paired => ?_) crowded
    have room := List.find?_eq_none.mp found (i, j) paired
    simpa using room
  | some pair =>
    obtain ⟨deep, before, after, split, earlier⟩ := List.find?_eq_some_iff_append.mp found
    refine ⟨before, pair.1, pair.2, after, split, of_decide_eq_true deep, ?_⟩
    intro a b present
    have room := earlier (a, b) present
    simpa using room

end CalendarDial.Bands
