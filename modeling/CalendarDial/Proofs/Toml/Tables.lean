import CalendarDial.Proofs.Config.Merge
import CalendarDial.Toml.Tables

/-!
# No key is repeated in a document

Whatever is added to tables under construction, no table ever has two entries with the same key, and
so the values that are left when they have been read have none either.
-/

namespace CalendarDial.Toml

open Config (Value Keyed lookup put)

/-- No table in a node, however deep, has two entries with the same key. -/
inductive Node.Distinct : Node → Prop where
  | value (value : Value) (distinct : value.Distinct) : Distinct (.value value)
  | table (origin : Origin) (entries : Entries) (distinct : (entries.map Prod.fst).Nodup)
      (each : ∀ entry ∈ entries, entry.2.Distinct) : Distinct (.table origin entries)
  | tables (reversed : List Entries)
      (distinct : ∀ entries ∈ reversed, (entries.map Prod.fst).Nodup)
      (each : ∀ entries ∈ reversed, ∀ entry ∈ entries, entry.2.Distinct) :
      Distinct (.tables reversed)

namespace Node

/-- In a table no key is repeated, neither among its own nor deeper. -/
theorem distinct_table_iff (origin : Origin) (entries : Entries) :
    (table origin entries).Distinct ↔ Keyed Distinct entries := by
  constructor
  · rintro (_ | ⟨_, _, distinct, each⟩)
    exact ⟨distinct, each⟩
  · rintro ⟨distinct, each⟩
    exact .table origin entries distinct each

/-- The same holds for each table of a list. -/
theorem distinct_tables_iff (reversed : List Entries) :
    (tables reversed).Distinct ↔ ∀ entries ∈ reversed, Keyed Distinct entries := by
  constructor
  · rintro (_ | _ | ⟨_, distinct, each⟩) entries present
    exact ⟨distinct entries present, each entries present⟩
  · intro keyed
    exact .tables reversed (fun entries present => (keyed entries present).distinct)
      fun entries present => (keyed entries present).each

end Node

namespace Entries

/-- A change that repeats no key in its own table repeats none when it is made further down. The
induction is on the path: the key is given a new node in its table, which repeats no key there, and
what is in the node repeats none by the induction. -/
theorem keyed_alter (made : Origin) (change : Origin → Entries → Option Entries)
    (preserves : ∀ origin entries changed, Keyed Node.Distinct entries →
      change origin entries = some changed → Keyed Node.Distinct changed)
    (path : List String) (origin : Origin) (entries altered : Entries)
    (keyed : Keyed Node.Distinct entries)
    (alters : alter made change origin path entries = some altered) :
    Keyed Node.Distinct altered := by
  induction path generalizing origin entries altered with
  | nil => exact preserves origin entries altered keyed alters
  | cons key path inductionHypothesis =>
    rw [alter.eq_def] at alters
    dsimp only at alters
    split at alters
    · obtain ⟨inner, inside, rfl⟩ := Option.map_eq_some_iff.mp alters
      have below := inductionHypothesis made [] inner .nil inside
      exact keyed.put key _ ((Node.distinct_table_iff made inner).mpr below)
    · next origin before found =>
      rw [Option.ite_none_left_eq_some] at alters
      obtain ⟨inner, inside, rfl⟩ := Option.map_eq_some_iff.mp alters.2
      have above := (Node.distinct_table_iff origin before).mp (keyed.lookup key _ found)
      have below := inductionHypothesis origin before inner above inside
      exact keyed.put key _ ((Node.distinct_table_iff origin inner).mpr below)
    · next before earlier found =>
      obtain ⟨inner, inside, rfl⟩ := Option.map_eq_some_iff.mp alters
      have listed := (Node.distinct_tables_iff _).mp (keyed.lookup key _ found)
      obtain ⟨above, others⟩ := List.forall_mem_cons.mp listed
      have below := inductionHypothesis .opened before inner above inside
      exact keyed.put key _
        ((Node.distinct_tables_iff _).mpr (List.forall_mem_cons.mpr ⟨below, others⟩))
    · cases alters
    · cases alters

/-- Adding a value repeats no key. It is put under a key of its table, at the end of the path. -/
theorem keyed_addValue (path : List String) (key : String) (value : Value) (entries added : Entries)
    (keyed : Keyed Node.Distinct entries) (distinct : value.Distinct)
    (adds : addValue path key value entries = some added) : Keyed Node.Distinct added := by
  refine keyed_alter _ _ ?_ path _ entries added keyed adds
  intro origin entries changed keyed changes
  rw [Option.ite_none_left_eq_some, Option.some.injEq] at changes
  obtain ⟨-, rfl⟩ := changes
  exact keyed.put key _ (.value value distinct)

/-- Opening a table repeats no key. The table is a new one, or one that is there already with what
is in it. -/
theorem keyed_openTable (path : List String) (key : String) (entries opened : Entries)
    (keyed : Keyed Node.Distinct entries) (opens : openTable path key entries = some opened) :
    Keyed Node.Distinct opened := by
  refine keyed_alter _ _ ?_ path _ entries opened keyed opens
  intro origin entries changed keyed changes
  split at changes
  · cases changes
    exact keyed.put key _ ((Node.distinct_table_iff _ _).mpr .nil)
  · next inner found =>
    cases changes
    have inside := (Node.distinct_table_iff _ inner).mp (keyed.lookup key _ found)
    exact keyed.put key _ ((Node.distinct_table_iff _ inner).mpr inside)
  · cases changes

/-- Opening a table in a list repeats no key. The list is a new one, or gets one more table, which
has no entries yet. -/
theorem keyed_openItem (path : List String) (key : String) (entries opened : Entries)
    (keyed : Keyed Node.Distinct entries) (opens : openItem path key entries = some opened) :
    Keyed Node.Distinct opened := by
  refine keyed_alter _ _ ?_ path _ entries opened keyed opens
  intro origin entries changed keyed changes
  split at changes
  · cases changes
    exact keyed.put key _ ((Node.distinct_tables_iff _).mpr (List.forall_mem_singleton.mpr .nil))
  · next reversed found =>
    cases changes
    have listed := (Node.distinct_tables_iff reversed).mp (keyed.lookup key _ found)
    exact keyed.put key _
      ((Node.distinct_tables_iff _).mpr (List.forall_mem_cons.mpr ⟨.nil, listed⟩))
  · cases changes

/-- Adding a value under a header repeats no key. The header leads to the table, and the path of the
key goes on from there. -/
theorem keyed_addUnder (header path : List String) (key : String) (value : Value)
    (entries added : Entries) (keyed : Keyed Node.Distinct entries) (distinct : value.Distinct)
    (adds : addUnder header path key value entries = some added) : Keyed Node.Distinct added := by
  refine keyed_alter _ _ ?_ header _ entries added keyed adds
  intro _ entries changed keyed changes
  exact keyed_addValue path key value entries changed keyed distinct changes

/-- What is left of entries has their keys. Each entry leaves one under its key, in turn. -/
theorem map_fst_toValues (entries : Entries) :
    entries.toValues.map Prod.fst = entries.map Prod.fst := by
  induction entries with
  | nil => rw [toValues, List.map_nil, List.map_nil]
  | cons entry entries inductionHypothesis =>
    rw [toValues, List.map_cons, List.map_cons, inductionHypothesis]

/-- A table whose entries are left of entries without a repeated key has none either, if this is so
further down. -/
theorem distinct_table_toValues (entries : Entries) (keyed : Keyed Node.Distinct entries)
    (each : ∀ entry ∈ entries.toValues, entry.2.Distinct) :
    (Value.table entries.toValues).Distinct := by
  refine .table _ ?_ each
  rw [map_fst_toValues]
  exact keyed.distinct

end Entries

mutual

/-- In what is left of a node no key is repeated. The recursion goes through the node as the reading
of it does, with a table and a list of tables as the two places where it goes deeper. -/
theorem Node.distinct_toValue (node : Node) (distinct : node.Distinct) :
    node.toValue.Distinct := by
  match node with
  | .value value =>
    cases distinct with
    | value _ distinct => rwa [Node.toValue]
  | .table origin entries =>
    have keyed := (Node.distinct_table_iff origin entries).mp distinct
    rw [Node.toValue]
    exact Entries.distinct_table_toValues entries keyed
      (Entries.distinct_of_mem_toValues entries keyed.each)
  | .tables reversed =>
    have listed := (Node.distinct_tables_iff reversed).mp distinct
    rw [Node.toValue]
    refine .list _ fun item present => ?_
    exact Entries.distinct_of_mem_toTables reversed listed item (List.mem_reverse.mp present)

/-- Nor is it in what is left of the entries of a table. -/
theorem Entries.distinct_of_mem_toValues (entries : Entries)
    (each : ∀ entry ∈ entries, entry.2.Distinct) :
    ∀ entry ∈ entries.toValues, entry.2.Distinct := by
  match entries with
  | [] =>
    rw [Entries.toValues]
    exact nofun
  | (key, node) :: entries =>
    obtain ⟨first, others⟩ := List.forall_mem_cons.mp each
    rw [Entries.toValues]
    exact List.forall_mem_cons.mpr
      ⟨Node.distinct_toValue node first, Entries.distinct_of_mem_toValues entries others⟩

/-- Nor is it in what is left of the tables of a list. -/
theorem Entries.distinct_of_mem_toTables (reversed : List Entries)
    (each : ∀ entries ∈ reversed, Keyed Node.Distinct entries) :
    ∀ item ∈ Entries.toTables reversed, item.Distinct := by
  match reversed with
  | [] =>
    rw [Entries.toTables]
    exact nofun
  | entries :: others =>
    obtain ⟨first, rest⟩ := List.forall_mem_cons.mp each
    have table := Entries.distinct_table_toValues entries first
      (Entries.distinct_of_mem_toValues entries first.each)
    rw [Entries.toTables]
    exact List.forall_mem_cons.mpr ⟨table, Entries.distinct_of_mem_toTables others rest⟩

end

end CalendarDial.Toml
