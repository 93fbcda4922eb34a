import Mathlib.Data.List.Permutation

/-!
# A check of every element of a list

A list is checked element by element, and the first failure ends the check. The whole list passes
when every element does. Where only one failure can occur, it does not matter which element is the
first to fail, so the order of the elements has no influence on whether the list passes.
-/

namespace CalendarDial

variable {ε α β : Type}

/-- If every step gives its value at once, all of them together do. By induction on the list; the
law for values that are given at once takes each step out of the way. -/
theorem mapM_eq_pure {m : Type → Type} [Monad m] [LawfulMonad m] (step : α → m β) (value : α → β)
    (elements : List α) (each : ∀ element ∈ elements, step element = pure (value element)) :
    elements.mapM step = pure (elements.map value) := by
  induction elements with
  | nil => rfl
  | cons element elements inductionHypothesis =>
    rw [List.forall_mem_cons] at each
    rw [List.mapM_cons, each.1, inductionHypothesis each.2, pure_bind, pure_bind, List.map_cons]

/-- If every element has a value, then the list has its values. By induction on the list, whose
first value is put in front of those of the rest. -/
theorem exists_mapM_eq_some (read : α → Option β) (elements : List α)
    (each : ∀ element ∈ elements, (read element).isSome = true) :
    ∃ values, elements.mapM read = some values := by
  induction elements with
  | nil => exact ⟨[], rfl⟩
  | cons element elements inductionHypothesis =>
    rw [List.forall_mem_cons] at each
    obtain ⟨value, first⟩ := Option.isSome_iff_exists.mp each.1
    obtain ⟨values, rest⟩ := inductionHypothesis each.2
    refine ⟨value :: values, ?_⟩
    rw [List.mapM_cons, first, rest]
    rfl

/-- The values of a list are those of its elements, position by position. By induction on the list:
the first position belongs to the first element, and every other one to the rest. -/
theorem getElem?_of_mapM_eq_some (read : α → Option β) (elements : List α) (values : List β)
    (made : elements.mapM read = some values) (i : Nat) : values[i]? = elements[i]?.bind read := by
  induction elements generalizing values i with
  | nil =>
    cases made
    rfl
  | cons element elements inductionHypothesis =>
    simp only [List.mapM_cons, Option.bind_eq_bind, Option.bind_eq_some_iff] at made
    obtain ⟨value, first, others, rest, joined⟩ := made
    cases joined
    cases i with
    | zero => exact first.symm
    | succ i => exact inductionHypothesis others rest i

/-- A list passes when every element does, and then the values of its elements come out in order. By
induction on the list. No element is left out, since each has a value. -/
theorem mapM_eq_ok_filterMap (check : α → Except ε β) (elements : List α)
    (passes : ∀ element ∈ elements, ∃ value, check element = .ok value) :
    elements.mapM check = .ok (elements.filterMap fun element => (check element).toOption) := by
  induction elements with
  | nil => rfl
  | cons element elements inductionHypothesis =>
    obtain ⟨value, first⟩ := passes element List.mem_cons_self
    have rest := inductionHypothesis fun other present =>
      passes other (List.mem_cons_of_mem element present)
    rw [List.mapM_cons, first, rest, List.filterMap_cons, first]
    rfl

/-- A list passes when every element does, with the given values. This is the general fact for steps
that give their value at once. -/
theorem mapM_eq_ok (check : α → Except ε β) (value : α → β) (elements : List α)
    (passes : ∀ element ∈ elements, check element = .ok (value element)) :
    elements.mapM check = .ok (elements.map value) :=
  mapM_eq_pure check value elements passes

/-- A list fails when some element does, if there is only one way to fail. By induction on the list:
either its first element fails, in that one way, or the failing element is further on and ends the
check there at the latest. -/
theorem mapM_eq_error (check : α → Except ε β) (cause : ε) (elements : List α)
    (only : ∀ element other, check element = .error other → other = cause)
    (failing : α) (present : failing ∈ elements) (fails : check failing = .error cause) :
    elements.mapM check = .error cause := by
  induction elements with
  | nil => cases present
  | cons element elements inductionHypothesis =>
    rw [List.mapM_cons]
    cases first : check element with
    | error other =>
      rw [only element other first]
      rfl
    | ok value =>
      have later : failing ∈ elements := by
        rcases List.mem_cons.mp present with rfl | later
        · rw [first] at fails
          cases fails
        · exact later
      rw [inductionHypothesis later]
      rfl

/-- If there is only one way to fail, a list and a reordering of it both pass, with reordered
values, or both fail. Whether some element fails does not depend on the order, and with a single
cause it does not matter which one is met first. -/
theorem mapM_perm (check : α → Except ε β) (cause : ε)
    (only : ∀ element other, check element = .error other → other = cause)
    (first second : List α) (reordered : first.Perm second) :
    (∃ values others, first.mapM check = .ok values ∧ second.mapM check = .ok others ∧
      values.Perm others) ∨
    first.mapM check = .error cause ∧ second.mapM check = .error cause := by
  by_cases fails : ∃ element ∈ first, check element = .error cause
  · obtain ⟨element, present, failed⟩ := fails
    exact .inr ⟨mapM_eq_error check cause first only element present failed,
      mapM_eq_error check cause second only element (reordered.mem_iff.mp present) failed⟩
  · have passes : ∀ element ∈ first, ∃ value, check element = .ok value := by
      intro element present
      cases checked : check element with
      | ok value => exact ⟨value, rfl⟩
      | error other =>
        rw [only element other checked] at checked
        exact absurd ⟨element, present, checked⟩ fails
    have passesReordered : ∀ element ∈ second, ∃ value, check element = .ok value :=
      fun element present => passes element (reordered.mem_iff.mpr present)
    exact .inl ⟨_, _, mapM_eq_ok_filterMap check first passes,
      mapM_eq_ok_filterMap check second passesReordered, reordered.filterMap _⟩

end CalendarDial
