import CalendarDial.DisplayOrder
import CalendarDial.Proofs.Checked

/-!
# The display order is a linear order

Of two events one may always stand before the other, and both may stand before the other only if
they are the same event: color, end and start are compared, and the length class is derived from
them. So a list of events has one arrangement in display order, and it does not matter how the list
was arranged before.
-/

namespace CalendarDial

namespace ClippedEvent

/-- The event may stand before the other: by its length class, then by the smaller color, then by
the earlier end, then by the later start. -/
def Precedes (a b : ClippedEvent) : Prop :=
  a.bucket.rank < b.bucket.rank ∨ a.bucket.rank = b.bucket.rank ∧
    (a.color < b.color ∨ a.color = b.color ∧
      (a.endMs < b.endMs ∨ a.endMs = b.endMs ∧ b.startMs ≤ a.startMs))

/-- Comparing says that an event is not after another exactly when it may stand before it. The keys
are compared one after the other, and the first that differ decide. -/
theorem isLE_displayOrder_iff (a b : ClippedEvent) :
    (a.displayOrder b).isLE = true ↔ a.Precedes b := by
  simp only [displayOrder, Precedes, Ordering.isLE_then_iff_or, Nat.compare_eq_lt,
    Nat.compare_eq_eq, Int.compare_eq_lt, Int.compare_eq_eq, Int.isLE_compare]

/-- What may stand before an event may stand before everything that the event may stand before.
Every key is an integer, and the lexicographic order of integers is transitive. -/
theorem Precedes.trans {a b c : ClippedEvent} (first : a.Precedes b) (second : b.Precedes c) :
    a.Precedes c := by
  simp only [Precedes] at first second ⊢
  omega

/-- Of two events one may stand before the other. The first key in which they differ decides, and if
there is none either may come first. -/
theorem precedes_total (a b : ClippedEvent) : a.Precedes b ∨ b.Precedes a := by
  simp only [Precedes]
  omega

/-- Two events that may stand before each other are the same. No key differs then, and times and
color are all that an event consists of. -/
theorem Precedes.antisymm {a b : ClippedEvent} (first : a.Precedes b) (second : b.Precedes a) :
    a = b := by
  have fields : a.startMs = b.startMs ∧ a.endMs = b.endMs ∧ a.color = b.color := by
    simp only [Precedes] at first second
    omega
  cases a
  cases b
  simp_all only

end ClippedEvent

/-- The events arranged in display order, with no length checked. -/
def displayed (events : List ClippedEvent) : List ClippedEvent :=
  events.mergeSort fun a b => (a.displayOrder b).isLE

/-- Arranging loses and adds nothing. That is so of sorting by any comparison, lawful or not. -/
theorem displayed_perm (events : List ClippedEvent) : (displayed events).Perm events :=
  List.mergeSort_perm events _

/-- Once arranged, every event may stand before all that follow it. Sorting needs the comparison to
be transitive and total for this, which it is. -/
theorem pairwise_displayed (events : List ClippedEvent) :
    (displayed events).Pairwise ClippedEvent.Precedes := by
  refine (List.pairwise_mergeSort ?_ ?_ events).imp (ClippedEvent.isLE_displayOrder_iff _ _).mp
  · intro a b c
    simp only [ClippedEvent.isLE_displayOrder_iff]
    exact ClippedEvent.Precedes.trans
  · intro a b
    simp only [Bool.or_eq_true, ClippedEvent.isLE_displayOrder_iff]
    exact ClippedEvent.precedes_total a b

/-- In no other arrangement of the events each may stand before all that follow it. Two arrangements
of the same events in a linear order are the same list. -/
theorem displayed_eq_of_pairwise (events sorted : List ClippedEvent)
    (permuted : sorted.Perm events) (ordered : sorted.Pairwise ClippedEvent.Precedes) :
    displayed events = sorted := by
  apply ((displayed_perm events).trans permuted.symm).eq_of_pairwise _
    (pairwise_displayed events) ordered
  intro a b _ _
  exact ClippedEvent.Precedes.antisymm

/-- A list and its reorderings have one arrangement in display order. The arrangement of the second
list is one of the first list as well, and there is only one. -/
theorem displayed_eq_of_perm (first second : List ClippedEvent) (reordered : first.Perm second) :
    displayed first = displayed second :=
  displayed_eq_of_pairwise first (displayed second)
    ((displayed_perm second).trans reordered.symm) (pairwise_displayed second)

/-- A list of one event or none is arranged as it is. In such a list nothing follows any event. -/
theorem displayed_of_few (events : List ClippedEvent) (few : ¬ 2 ≤ events.length) :
    displayed events = events := by
  have alone : events.Pairwise ClippedEvent.Precedes := by
    cases events with
    | nil => exact List.Pairwise.nil
    | cons event others =>
      have none : others = [] := by
        apply List.eq_nil_of_length_eq_zero
        rw [List.length_cons] at few
        omega
      rw [none]
      exact List.pairwise_singleton _ event
  exact displayed_eq_of_pairwise events events (List.Perm.refl events) alone

/-- Sorting arranges the events in display order once their lengths have been checked, which they
are only if there is something to compare. Arranging a list with nothing to compare leaves it alone,
so the two branches differ in the check only. -/
theorem sortForDisplay_eq (events : List ClippedEvent) :
    sortForDisplay events =
      if 2 ≤ events.length then
        (events.mapM ClippedEvent.duration).map fun _ => displayed events
      else
        .ok (displayed events) := by
  rw [sortForDisplay]
  split
  · cases events.mapM ClippedEvent.duration <;> rfl
  · next few =>
    rw [displayed_of_few events few]
    rfl

/-- Sorting cannot fail if 64 bits hold the lengths of the events. The check of the lengths is the
one thing that could fail, with or without something to compare. -/
theorem sortForDisplay_eq_ok (events : List ClippedEvent)
    (fits : ∀ event ∈ events, Instant.Representable (event.endMs - event.startMs)) :
    sortForDisplay events = .ok (displayed events) := by
  have lengths := mapM_eq_ok ClippedEvent.duration (fun event => event.endMs - event.startMs)
    events fun event present => Instant.sub_eq_ok_iff.mpr ⟨fits event present, rfl⟩
  rw [sortForDisplay_eq, lengths]
  exact ite_self _

/-- Sorting a list and a reordering of it gives the same list, or fails for both. Both have the same
number of events and one arrangement, and the check of the lengths has a single way to fail. -/
theorem sortForDisplay_eq_of_perm (first second : List ClippedEvent)
    (reordered : first.Perm second) : sortForDisplay first = sortForDisplay second := by
  have only (event : ClippedEvent) (cause : Overflow) (failed : event.duration = .error cause) :
      cause = .subtraction := (Instant.sub_eq_error_iff.mp failed).2
  rw [sortForDisplay_eq, sortForDisplay_eq, reordered.length_eq,
    displayed_eq_of_perm first second reordered]
  rcases mapM_perm ClippedEvent.duration .subtraction only first second reordered with
    ⟨lengths, others, known, also, -⟩ | ⟨fails, also⟩
  · rw [known, also]
    rfl
  · rw [fails, also]

end CalendarDial
