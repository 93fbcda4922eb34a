/-!
# Pairs of positions

The pairs of positions `i < j` of a list whose elements stand in a relation, in lexicographic order.
Overlapping events and clashing bands are both read off a list in this way.
-/

namespace CalendarDial

/-- The positions `i < j` whose elements are related, in lexicographic order. -/
def positionPairs {α : Type} (related : α → α → Prop) [∀ a b, Decidable (related a b)]
    (elements : List α) : List (Nat × Nat) :=
  elements.zipIdx.flatMap fun (a, i) =>
    (elements.zipIdx.filter fun (b, j) => decide (i < j ∧ related a b)).map fun (_, j) => (i, j)

/-- A pair is listed exactly when its positions are in order, lie in the list and hold related
elements. -/
theorem mem_positionPairs_iff {α : Type} {related : α → α → Prop}
    [∀ a b, Decidable (related a b)] {elements : List α} {i j : Nat} :
    (i, j) ∈ positionPairs related elements ↔
      i < j ∧ ∃ a b, elements[i]? = some a ∧ elements[j]? = some b ∧ related a b := by
  simp only [positionPairs, List.mem_flatMap, List.mem_map, List.mem_filter, Prod.exists,
    List.mem_zipIdx_iff_getElem?, decide_eq_true_eq, Prod.mk.injEq]
  constructor
  · rintro ⟨a, p, first, b, q, ⟨second, ordered, holds⟩, rfl, rfl⟩
    exact ⟨ordered, a, b, first, second, holds⟩
  · rintro ⟨ordered, a, b, first, second, holds⟩
    exact ⟨a, i, first, b, j, ⟨second, ordered, holds⟩, rfl, rfl⟩

/-- The elements of a list with their positions are listed in the order of the positions. -/
theorem pairwise_zipIdx {α : Type} (elements : List α) :
    elements.zipIdx.Pairwise fun first second => first.2 < second.2 := by
  rw [← List.pairwise_map, List.zipIdx_map_snd]
  exact List.pairwise_lt_range'

/-- The pairs are listed in lexicographic order, each once. The positions are listed with their
elements in order, the first of a pair before the second. -/
theorem pairwise_positionPairs {α : Type} (related : α → α → Prop)
    [∀ a b, Decidable (related a b)] (elements : List α) :
    (positionPairs related elements).Pairwise fun first second =>
      first.1 < second.1 ∨ first.1 = second.1 ∧ first.2 < second.2 := by
  rw [positionPairs, List.pairwise_flatMap]
  constructor
  · rintro ⟨a, i⟩ _
    rw [List.pairwise_map]
    exact ((pairwise_zipIdx elements).filter _).imp fun later => .inr ⟨rfl, later⟩
  · refine (pairwise_zipIdx elements).imp ?_
    rintro ⟨a, i⟩ ⟨b, j⟩ later _ first _ second
    obtain ⟨_, _, rfl⟩ := List.mem_map.mp first
    obtain ⟨_, _, rfl⟩ := List.mem_map.mp second
    exact .inl later

/-- No pair is listed twice. -/
theorem nodup_positionPairs {α : Type} (related : α → α → Prop)
    [∀ a b, Decidable (related a b)] (elements : List α) :
    (positionPairs related elements).Nodup := by
  refine (pairwise_positionPairs related elements).imp ?_
  rintro first _ before rfl
  omega

end CalendarDial
