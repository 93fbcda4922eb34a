import CalendarDial.Proofs.Bands.Demands
import CalendarDial.Proofs.Linear.Exact

/-!
# Making demands of a solver

Demands are made one by one. All of them are accepted exactly when the solver accepts their
constraints in turn, and the first refusal ends the attempt under the name of its demand. Of a
solver that refuses nothing but contradictions, a feasible program is accepted whole, and a point
that it reports satisfies, or costs, what its properties promise.
-/

namespace CalendarDial.Linear.Solver

/-- Constraints that can all be satisfied are all accepted by a solver that refuses contradictions
only: what comes before each of them can be satisfied too. -/
theorem accepts_of_satisfiable (solver : Solver) (refuses : solver.RefusesContradictions)
    (constraints : List Constraint) (satisfiable : Satisfiable constraints) :
    solver.Accepts constraints := by
  obtain ⟨x, satisfies⟩ := satisfiable
  rintro before next after rfl
  have first : Satisfies before x := fun constraint present =>
    satisfies constraint (List.mem_append_left _ present)
  refine (refuses before next ⟨x, first⟩).1 ⟨x, List.forall_mem_append.mpr ⟨first, ?_⟩⟩
  rw [List.forall_mem_singleton]
  exact satisfies next (List.mem_append_right _ List.mem_cons_self)

end CalendarDial.Linear.Solver

namespace CalendarDial.Bands

open Linear (Constraint Reading Refusal Satisfiable Satisfies Solver)

namespace Program

/-- Demands are made in turn: first some, then the others after them. A refusal among the first ones
ends the attempt on both sides. -/
theorem impose_append (solver : Solver) (program : Program) (accepted : List Constraint)
    (first second : List Demand) :
    program.impose solver accepted (first ++ second) =
      (program.impose solver accepted first).bind fun all => program.impose solver all second := by
  induction first generalizing accepted with
  | nil => rfl
  | cons demand first inductionHypothesis =>
    rw [List.cons_append, impose, impose]
    split
    · rfl
    · exact inductionHypothesis _

/-- Demands whose constraints the solver accepts in turn are all accepted. The one to be made next
is accepted after those before it, so the attempt goes on with one more. -/
theorem impose_eq_ok (solver : Solver) (program : Program) (accepted : List Constraint)
    (demands : List Demand)
    (accepts : solver.Accepts (accepted ++ demands.map program.constraint)) :
    program.impose solver accepted demands = .ok (accepted ++ demands.map program.constraint) := by
  induction demands generalizing accepted with
  | nil => rw [impose, List.map_nil, List.append_nil]
  | cons demand demands inductionHypothesis =>
    have next := accepts accepted (program.constraint demand) (demands.map program.constraint) rfl
    have regrouped : accepted ++ (demand :: demands).map program.constraint =
        (accepted ++ [program.constraint demand]) ++ demands.map program.constraint :=
      List.append_cons _ _ _
    rw [regrouped] at accepts ⊢
    rw [impose, next]
    exact inductionHypothesis _ accepts

/-- What the solver has accepted in the end are the constraints of all demands, in turn. Each step
added one constraint that was not refused after the ones before. -/
theorem accepts_of_impose_eq_ok (solver : Solver) (program : Program)
    (accepted final : List Constraint) (demands : List Demand) (before : solver.Accepts accepted)
    (made : program.impose solver accepted demands = .ok final) :
    final = accepted ++ demands.map program.constraint ∧ solver.Accepts final := by
  induction demands generalizing accepted with
  | nil =>
    obtain rfl := Except.ok.inj made
    exact ⟨(List.append_nil _).symm, before⟩
  | cons demand demands inductionHypothesis =>
    rw [impose] at made
    split at made
    · cases made
    · next next =>
      obtain ⟨rfl, accepts⟩ := inductionHypothesis (accepted ++ [program.constraint demand])
        ((solver.accepts_append_iff accepted _).mpr ⟨before, next⟩) made
      exact ⟨(List.append_cons _ _ _).symm, accepts⟩

/-- The first demand that is refused gives the failure its name. The demands before it have all been
accepted by then, and the ones behind it are never made. -/
theorem impose_eq_error (solver : Solver) (program : Program) (before after : List Demand)
    (demand : Demand) (refusal : Refusal)
    (accepts : solver.Accepts (before.map program.constraint))
    (refused : solver.refusal? (before.map program.constraint) (program.constraint demand) =
      some refusal) :
    program.impose solver [] (before ++ demand :: after) =
      .error (Failure.ofRefusal demand.label refusal) := by
  have first := program.impose_eq_ok solver [] before accepts
  rw [List.nil_append] at first
  rw [impose_append, first]
  simp only [Except.bind, impose, refused]

/-- The unknowns of a program are the starts and the sizes of its events. Every demand speaks of one
event, of an overlapping pair, whose positions lie among the events, or of all sizes. -/
theorem unknown_of_constraint (program : Program) (inRange : program.InRange) (demand : Demand)
    (present : demand ∈ program.demands) (term : Rat × Nat)
    (occurs : term ∈ (program.constraint demand).terms) :
    ∃ i < program.count, term.2 = program.startIndex i ∨ term.2 = program.sizeIndex i := by
  cases demand with
  | keep requirement =>
    rcases (program.keep_mem_demands_iff requirement).mp present with
      ⟨i, bound, member⟩ | ⟨i, j, paired, rfl⟩
    · refine ⟨i, bound, ?_⟩
      simp only [alone, List.mem_cons, List.not_mem_nil, or_false] at member
      rcases member with rfl | rfl | rfl | rfl | rfl <;>
        simp only [constraint, requirementConstraint, List.mem_cons, List.not_mem_nil,
          or_false] at occurs
      · exact .inl (congrArg Prod.snd occurs)
      · exact .inl (congrArg Prod.snd occurs)
      · exact .inr (congrArg Prod.snd occurs)
      · exact .inr (congrArg Prod.snd occurs)
      · exact occurs.imp (congrArg Prod.snd) (congrArg Prod.snd)
    · obtain ⟨ordered, bound⟩ := inRange i j paired
      simp only [constraint, requirementConstraint, List.mem_cons, List.not_mem_nil,
        or_false] at occurs
      rcases occurs with rfl | rfl | rfl
      · exact ⟨i, by omega, .inl rfl⟩
      · exact ⟨i, by omega, .inr rfl⟩
      · exact ⟨j, bound, .inl rfl⟩
  | equalSizes i j =>
    have paired : (i, j) ∈ program.pairs := by
      simpa [demands, demandsOn, alone] using present
    obtain ⟨ordered, bound⟩ := inRange i j paired
    simp only [constraint, List.mem_cons, List.not_mem_nil, or_false] at occurs
    rcases occurs with rfl | rfl
    · exact ⟨i, by omega, .inr rfl⟩
    · exact ⟨j, bound, .inr rfl⟩
  | fullAxis =>
    obtain ⟨i, bound, rfl⟩ := List.mem_map.mp occurs
    exact ⟨i, List.mem_range.mp bound, .inr rfl⟩

/-- A point is read off when every start and every size is a number, and then its coordinates are
the values reported for the unknowns. Only the unknowns of events are looked at, and no others occur
in the constraints. -/
theorem agrees_of_read_eq_ok (program : Program) (inRange : program.InRange) (reading : Reading)
    (x : Point) (made : program.read reading = .ok x) :
    ∃ values, x = program.pointAt values ∧ reading.Agrees program.constraints values := by
  rw [read] at made
  split at made
  · cases made
  · next numbers =>
    refine ⟨_, (Except.ok.inj made).symm, ?_⟩
    have known (v : Nat) (number : (reading.value? v).isNone = false) :
        reading.value? v = some ((reading.value? v).getD 0) := by
      cases found : reading.value? v with
      | none => simp [found] at number
      | some value => rfl
    intro constraint present term occurs
    obtain ⟨demand, made, rfl⟩ := List.mem_map.mp present
    obtain ⟨i, bound, which⟩ := program.unknown_of_constraint inRange demand made term occurs
    have both := List.find?_eq_none.mp numbers i (List.mem_range.mpr bound)
    simp only [Bool.or_eq_true, not_or, Bool.not_eq_true] at both
    rcases which with start | size
    · exact start ▸ known _ both.1
    · exact size ▸ known _ both.2

/-- Reading fails for no event when every unknown is a number. -/
theorem read_eq_ok (program : Program) (reading : Reading)
    (numbers : ∀ v, reading.value? v ≠ none) : ∃ x, program.read reading = .ok x := by
  have finite : program.nonFinite? reading = none := by
    apply List.find?_eq_none.mpr
    intro i _
    simp [Option.isNone_iff_eq_none, numbers]
  exact ⟨_, by rw [read, finite]⟩

/-- A point comes out only if the solver has accepted all constraints of the program, and its
coordinates are what the solver reports then. A refusal would have ended the attempt with a
failure. -/
theorem spec_of_solveWith_eq_ok (solver : Solver) (program : Program) (inRange : program.InRange)
    (x : Point) (made : program.solveWith solver = .ok x) :
    ∃ values, x = program.pointAt values ∧ solver.Accepts program.constraints ∧
      (solver.reading program.constraints).Agrees program.constraints values := by
  cases imposed : program.impose solver [] program.demands with
  | error failure => simp [solveWith, imposed, bind, Except.bind] at made
  | ok accepted =>
    obtain ⟨rfl, accepts⟩ :=
      program.accepts_of_impose_eq_ok solver [] accepted program.demands solver.accepts_nil imposed
    simp only [solveWith, imposed, bind, Except.bind, List.nil_append] at made
    have reported : program.read (solver.reading program.constraints) = .ok x := made
    obtain ⟨values, same, agrees⟩ := program.agrees_of_read_eq_ok inRange _ x reported
    exact ⟨values, same, accepts, agrees⟩

/-- A sound solver reports feasible points only. The values that it reports satisfy the required
constraints, and these say that the point is feasible. -/
theorem feasible_of_solveWith_eq_ok (solver : Solver) (sound : solver.Sound) (program : Program)
    (inRange : program.InRange) (x : Point) (made : program.solveWith solver = .ok x) :
    program.Feasible x := by
  obtain ⟨values, rfl, accepts, agrees⟩ := program.spec_of_solveWith_eq_ok solver inRange x made
  exact (program.satisfies_constraints_iff values).mp (sound _ values accepts agrees)

end Program

instance decidableEqExcept {ε α : Type} [DecidableEq ε] [DecidableEq α] :
    DecidableEq (Except ε α)
  | .ok a, .ok b => decidable_of_iff (a = b) ⟨congrArg _, Except.ok.inj⟩
  | .error a, .error b => decidable_of_iff (a = b) ⟨congrArg _, Except.error.inj⟩
  | .ok _, .error _ => .isFalse nofun
  | .error _, .ok _ => .isFalse nofun

/-- A layout comes out exactly when a point does, and it shows the bands of that point. Rounding
never fails. -/
theorem layoutWith_eq_ok_iff (solver : Solver) (axis : Nat) (events : List ClippedEvent)
    (layout : Layout) :
    layoutWith solver axis events = .ok layout ↔
      ∃ x, (Program.ofEvents events axis).solveWith solver = .ok x ∧
        layout = ⟨roundBands axis x events, axis⟩ := by
  rw [layoutWith]
  cases (Program.ofEvents events axis).solveWith solver with
  | error failure => simp [bind, Except.bind]
  | ok x => simp [bind, Except.bind, pure, Except.pure, eq_comm]

/-- A layout fails exactly when the program cannot be solved, and for the same reason. -/
theorem layoutWith_eq_error_iff (solver : Solver) (axis : Nat) (events : List ClippedEvent)
    (failure : Failure) :
    layoutWith solver axis events = .error failure ↔
      (Program.ofEvents events axis).solveWith solver = .error failure := by
  rw [layoutWith]
  cases (Program.ofEvents events axis).solveWith solver with
  | error failure => simp [bind, Except.bind]
  | ok x => simp [bind, Except.bind, pure, Except.pure]

end CalendarDial.Bands
