import CalendarDial.Proofs.DisplayOrder

/-!
# Sorting into display order

A sorting method may do anything with a comparison that contradicts itself. The comparison for the
display does not: turned round it gives the opposite answer, its answers carry over from one pair to
the next, and it calls only an event and itself equal. The last is what makes the sorted list
unique, since no two different events are tied, whatever the order in which they came.
-/

namespace CalendarDial

/-- Classes of one rank are the same. There are three classes and three ranks. -/
theorem DurationBucket.rank_inj {a b : DurationBucket} : a.rank = b.rank ↔ a = b := by
  cases a <;> cases b <;> decide

namespace ClippedEvent

/-- Turned round, the comparison gives the opposite answer. -/
instance : Std.OrientedCmp displayOrder where
  eq_swap := by
    intro a b
    simp only [displayOrder, Ordering.swap_then, Nat.compare_swap, Int.compare_swap]

/-- What is not after an event is not after anything that the event is not after. -/
instance : Std.TransCmp displayOrder where
  isLE_trans := by
    intro a b c first second
    rw [isLE_displayOrder_iff] at first second ⊢
    exact first.trans second

/-- Only an event and itself compare as equal. -/
instance : Std.LawfulEqCmp displayOrder where
  compare_self := by
    intro a
    simp [displayOrder]
  eq_of_compare := by
    intro a b equal
    have turned : b.displayOrder a = (a.displayOrder b).swap := Std.OrientedCmp.eq_swap
    apply Precedes.antisymm
    · rw [← isLE_displayOrder_iff, equal]
      rfl
    · rw [← isLE_displayOrder_iff, turned, equal]
      rfl

/-- The length of the event can be taken, since 64 bits hold it. -/
def Measured (event : ClippedEvent) : Prop :=
  Instant.Representable (event.endMs - event.startMs)

instance (event : ClippedEvent) : Decidable event.Measured :=
  inferInstanceAs (Decidable (Instant.Representable _))

/-- Events whose lengths 64 bits hold can be compared. Taking the lengths is all that could fail;
the answer is then the one that needs no check. -/
theorem compareForDisplay_eq_ok (a b : ClippedEvent) (first : a.Measured) (second : b.Measured) :
    a.compareForDisplay b = .ok (a.displayOrder b) := by
  rw [compareForDisplay, duration, duration, Instant.sub_eq_ok_iff.mpr ⟨first, rfl⟩,
    Instant.sub_eq_ok_iff.mpr ⟨second, rfl⟩]
  rfl

/-- Comparing two events gives an answer, the opposite one when turned round, and calls them equal
only if they are the same. Both follow from the display order being oriented and telling all events
apart. -/
theorem compareForDisplay_turned (a b : ClippedEvent) (first : a.Measured) (second : b.Measured) :
    (a.compareForDisplay b = .ok .eq ↔ a = b) ∧
    ∃ order, a.compareForDisplay b = .ok order ∧ b.compareForDisplay a = .ok order.swap := by
  have turned : b.displayOrder a = (a.displayOrder b).swap := Std.OrientedCmp.eq_swap
  rw [compareForDisplay_eq_ok a b first second, compareForDisplay_eq_ok b a second first,
    Except.ok.injEq]
  exact ⟨Std.LawfulEqCmp.compare_eq_iff_eq, _, rfl, congrArg Except.ok turned⟩

/-- The answer for one pair and for the next is the answer for the first and the last. Each of the
three answers carries over, as it does in every transitive comparison. -/
theorem compareForDisplay_trans (a b c : ClippedEvent) (first : a.Measured) (second : b.Measured)
    (third : c.Measured) (order : Ordering) (before : a.compareForDisplay b = .ok order)
    (after : b.compareForDisplay c = .ok order) : a.compareForDisplay c = .ok order := by
  rw [compareForDisplay_eq_ok a b first second, Except.ok.injEq] at before
  rw [compareForDisplay_eq_ok b c second third, Except.ok.injEq] at after
  rw [compareForDisplay_eq_ok a c first third, Except.ok.injEq]
  cases order with
  | lt => exact Std.TransCmp.lt_trans before after
  | eq => exact Std.TransCmp.eq_trans before after
  | gt => exact Std.TransCmp.gt_trans before after

/-- Three hours are long, one hour is medium, and anything below that is short, also what ends
before it starts. The two limits are in order, so the three conditions exclude each other and leave
nothing out. -/
theorem bucket_iff (event : ClippedEvent) :
    (event.bucket = .long ↔ 3 * Instant.hour ≤ event.endMs - event.startMs) ∧
    (event.bucket = .medium ↔ Instant.hour ≤ event.endMs - event.startMs ∧
      event.endMs - event.startMs < 3 * Instant.hour) ∧
    (event.bucket = .short ↔ event.endMs - event.startMs < Instant.hour) := by
  have ordered : Instant.hour < 3 * Instant.hour := by decide
  rw [bucket, DurationBucket.ofDuration]
  split
  · simp
    omega
  · split
    · simp
      omega
    · simp
      omega

/-- The event is of no shorter class than the other. If the classes are the same, its color is not
larger, if the colors are the same too, it does not end later, and if the ends are the same too, it
does not start earlier. -/
structure StandsBefore (a b : ClippedEvent) : Prop where
  length : (b.bucket = .long → a.bucket = .long) ∧ (a.bucket = .short → b.bucket = .short)
  color : a.bucket = b.bucket → a.color ≤ b.color
  finish : a.bucket = b.bucket → a.color = b.color → a.endMs ≤ b.endMs
  start : a.bucket = b.bucket → a.color = b.color → a.endMs = b.endMs → b.startMs ≤ a.startMs

/-- Key by key, an event stands before another exactly when it may precede it. The two conditions on
the length class say that the rank of the class is not greater, and each further key is looked at
only when those before it are equal. -/
theorem standsBefore_iff (a b : ClippedEvent) : a.StandsBefore b ↔ a.Precedes b := by
  have classes : ((b.bucket = .long → a.bucket = .long) ∧ (a.bucket = .short → b.bucket = .short)) ↔
      a.bucket.rank ≤ b.bucket.rank := by
    cases a.bucket <;> cases b.bucket <;> decide
  rw [Precedes]
  constructor
  · rintro ⟨length, color, finish, start⟩
    rw [classes] at length
    rw [← DurationBucket.rank_inj] at color finish start
    omega
  · intro precedes
    refine ⟨classes.mpr ?length, ?color, ?finish, ?start⟩
    case length => omega
    all_goals
      rw [← DurationBucket.rank_inj]
      omega

end ClippedEvent

/-- A list has one arrangement in which every event stands before all that follow it, and this is
its arrangement in display order. The arrangement is a reordering that is in order, and no other is,
because no two different events are tied. -/
theorem displayed_eq_iff (events sorted : List ClippedEvent) :
    displayed events = sorted ↔
      sorted.Perm events ∧ sorted.Pairwise ClippedEvent.StandsBefore := by
  constructor
  · rintro rfl
    refine ⟨displayed_perm events, (pairwise_displayed events).imp ?_⟩
    exact (ClippedEvent.standsBefore_iff _ _).mpr
  · rintro ⟨permuted, ordered⟩
    apply displayed_eq_of_pairwise events sorted permuted
    exact ordered.imp (ClippedEvent.standsBefore_iff _ _).mp

/-- The display order is a total order on the events whose lengths 64 bits hold, and sorting
arranges them by it. Comparing any two of them gives an answer, the opposite one when turned round.
It says that they are equal only of an event and itself, and what it says of one pair and of the
next it says of the first and the last. The length classes are those of three hours, of one hour,
and of less. A list of such events can be sorted. The result is a reordering of the list in which
every event stands before all that follow it, it is the only one, and every reordering of the list
has the same result. The first parts are the laws of the comparison; the last part follows from the
uniqueness of the arrangement and from the check that passes for every reordering. -/
theorem sortForDisplay_sorts :
    (∀ a b : ClippedEvent, a.Measured → b.Measured →
      (a.compareForDisplay b = .ok .eq ↔ a = b) ∧
      ∃ order, a.compareForDisplay b = .ok order ∧ b.compareForDisplay a = .ok order.swap) ∧
    (∀ a b c : ClippedEvent, a.Measured → b.Measured → c.Measured → ∀ order,
      a.compareForDisplay b = .ok order → b.compareForDisplay c = .ok order →
      a.compareForDisplay c = .ok order) ∧
    (∀ event : ClippedEvent,
      (event.bucket = .long ↔ 3 * Instant.hour ≤ event.endMs - event.startMs) ∧
      (event.bucket = .medium ↔ Instant.hour ≤ event.endMs - event.startMs ∧
        event.endMs - event.startMs < 3 * Instant.hour) ∧
      (event.bucket = .short ↔ event.endMs - event.startMs < Instant.hour)) ∧
    ∀ events : List ClippedEvent, (∀ event ∈ events, event.Measured) →
      ∃ sorted, sortForDisplay events = .ok sorted ∧ sorted.Perm events ∧
        sorted.Pairwise ClippedEvent.StandsBefore ∧
        (∀ other : List ClippedEvent, other.Perm events →
          other.Pairwise ClippedEvent.StandsBefore → other = sorted) ∧
        ∀ other : List ClippedEvent, other.Perm events → sortForDisplay other = .ok sorted := by
  refine ⟨ClippedEvent.compareForDisplay_turned, ClippedEvent.compareForDisplay_trans,
    ClippedEvent.bucket_iff, ?_⟩
  intro events measured
  have result := sortForDisplay_eq_ok events measured
  obtain ⟨permuted, ordered⟩ := (displayed_eq_iff events (displayed events)).mp rfl
  refine ⟨displayed events, result, permuted, ordered, ?_, ?_⟩
  · intro other reordered otherOrdered
    exact ((displayed_eq_iff events other).mpr ⟨reordered, otherOrdered⟩).symm
  · intro other reordered
    rw [sortForDisplay_eq_of_perm other events reordered, result]

/-- Four events of which two differ in their start only. The long one comes first although its color
is the largest, and the one that ends before it starts is short. -/
theorem sortForDisplay_sorts_of_four :
    (∀ event ∈ ([⟨0, 1800000, 2⟩, ⟨900000, 0, 3⟩, ⟨300000, 1800000, 2⟩, ⟨0, 14400000, 9⟩] :
      List ClippedEvent), event.Measured) ∧
    (⟨300000, 1800000, 2⟩ : ClippedEvent).compareForDisplay ⟨0, 1800000, 2⟩ = .ok .lt ∧
    (⟨0, 1800000, 2⟩ : ClippedEvent).compareForDisplay ⟨300000, 1800000, 2⟩ = .ok .gt ∧
    (⟨0, 14400000, 9⟩ : ClippedEvent).compareForDisplay ⟨0, 1800000, 2⟩ = .ok .lt ∧
    ([⟨0, 14400000, 9⟩, ⟨300000, 1800000, 2⟩, ⟨0, 1800000, 2⟩, ⟨900000, 0, 3⟩] :
      List ClippedEvent).Pairwise ClippedEvent.StandsBefore ∧
    sortForDisplay [⟨0, 1800000, 2⟩, ⟨900000, 0, 3⟩, ⟨300000, 1800000, 2⟩, ⟨0, 14400000, 9⟩] =
      .ok [⟨0, 14400000, 9⟩, ⟨300000, 1800000, 2⟩, ⟨0, 1800000, 2⟩, ⟨900000, 0, 3⟩] ∧
    sortForDisplay [⟨0, 14400000, 9⟩, ⟨300000, 1800000, 2⟩, ⟨900000, 0, 3⟩, ⟨0, 1800000, 2⟩] =
      .ok [⟨0, 14400000, 9⟩, ⟨300000, 1800000, 2⟩, ⟨0, 1800000, 2⟩, ⟨900000, 0, 3⟩] := by
  have measured : ∀ event ∈ ([⟨0, 1800000, 2⟩, ⟨900000, 0, 3⟩, ⟨300000, 1800000, 2⟩,
      ⟨0, 14400000, 9⟩] : List ClippedEvent), event.Measured := by decide
  have known : sortForDisplay [⟨0, 1800000, 2⟩, ⟨900000, 0, 3⟩, ⟨300000, 1800000, 2⟩,
      ⟨0, 14400000, 9⟩] = .ok [⟨0, 14400000, 9⟩, ⟨300000, 1800000, 2⟩, ⟨0, 1800000, 2⟩,
      ⟨900000, 0, 3⟩] := by cbv
  have starts : (⟨300000, 1800000, 2⟩ : ClippedEvent).compareForDisplay ⟨0, 1800000, 2⟩ =
      .ok .lt := rfl
  have classes : (⟨0, 14400000, 9⟩ : ClippedEvent).compareForDisplay ⟨300000, 1800000, 2⟩ =
      .ok .lt := rfl
  obtain ⟨answers, carries, -, sorts⟩ := sortForDisplay_sorts
  obtain ⟨-, order, answer, opposite⟩ := answers ⟨300000, 1800000, 2⟩ ⟨0, 1800000, 2⟩
    (measured _ (by decide)) (measured _ (by decide))
  obtain rfl := Except.ok.inj (answer.symm.trans starts)
  have both := carries ⟨0, 14400000, 9⟩ ⟨300000, 1800000, 2⟩ ⟨0, 1800000, 2⟩
    (measured _ (by decide)) (measured _ (by decide)) (measured _ (by decide)) .lt classes starts
  obtain ⟨sorted, result, -, ordered, -, reorderings⟩ := sorts _ measured
  obtain rfl := Except.ok.inj (result.symm.trans known)
  exact ⟨measured, starts, opposite, both, ordered, known, reorderings _ (by decide)⟩

end CalendarDial
