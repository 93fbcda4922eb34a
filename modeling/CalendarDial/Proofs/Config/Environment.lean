import CalendarDial.Config.Environment
import CalendarDial.Proofs.Config.Merge

/-!
# What an environment denotes is a table without repeated keys

The value of a variable is put into one table for each key in its name, and there is at least one.
So each variable gives a table, and so do all of them together; none of them has a repeated key.
-/

namespace CalendarDial.Config

namespace Environment

/-- A table made of entries has no repeated key. Each entry is put in, over an earlier one of the
same key. -/
theorem distinct_ofEntries (entries : List (String × Value))
    (each : ∀ entry ∈ entries, entry.2.Distinct) : (ofEntries entries).Distinct := by
  rw [ofEntries, Value.distinct_table_iff]
  refine List.foldlRecOn entries _ (motive := Keyed Value.Distinct) .nil ?_
  intro table keyed entry present
  exact keyed.put entry.1 entry.2 (each entry present)

/-- A bare value has no keys: it is a number or a text. -/
theorem distinct_bare (cs : List Char) : (bare cs).Distinct := by
  simp only [bare]
  split
  · exact .int _
  split
  · exact .int _
  · exact .text _

mutual

/-- In a value no key is repeated. The recursion follows the reading, whose fuel goes down with
every step inward, into the entries of a table or the items of a list. -/
theorem distinct_of_value (fuel : Nat) (cs rest : List Char) (found : Value)
    (read : value fuel cs = some (found, rest)) : found.Distinct := by
  match fuel with
  | 0 =>
    rw [value] at read
    cases read
  | fuel + 1 =>
    rw [value] at read
    obtain ⟨⟨inner, after⟩, front, made⟩ := Option.map_eq_some_iff.mp read
    obtain ⟨rfl, -⟩ := Prod.mk.inj made
    split at front
    · cases front
      exact .bool true
    split at front
    · cases front
      exact .bool false
    split at front
    · obtain ⟨⟨listed, _⟩, inside, made⟩ := Option.map_eq_some_iff.mp front
      obtain ⟨rfl, -⟩ := Prod.mk.inj made
      exact distinct_ofEntries listed (distinct_of_entries fuel _ _ listed inside)
    · obtain ⟨⟨listed, _⟩, inside, made⟩ := Option.map_eq_some_iff.mp front
      obtain ⟨rfl, -⟩ := Prod.mk.inj made
      exact .list listed (distinct_of_items fuel _ _ listed inside)
    · obtain ⟨⟨text, _⟩, -, made⟩ := Option.map_eq_some_iff.mp front
      obtain ⟨rfl, -⟩ := Prod.mk.inj made
      exact .text _
    · cases front
      exact .other
    · cases front
    · cases front
      exact distinct_bare _

/-- Nor is it in the items of a list. -/
theorem distinct_of_items (fuel : Nat) (cs rest : List Char) (found : List Value)
    (read : items fuel cs = some (found, rest)) : ∀ item ∈ found, item.Distinct := by
  match fuel with
  | 0 =>
    rw [items] at read
    cases read
  | fuel + 1 =>
    rw [items.eq_def] at read
    dsimp only at read
    split at read
    · cases read
      exact nofun
    · simp only [Option.bind_eq_bind, Option.bind_eq_some_iff, Option.pure_def] at read
      obtain ⟨⟨first, after⟩, inside, read⟩ := read
      have distinct := distinct_of_value fuel _ after first inside
      split at read
      · simp only [Option.bind_eq_some_iff] at read
        obtain ⟨⟨others, after⟩, more, made⟩ := read
        cases made
        exact List.forall_mem_cons.mpr ⟨distinct, distinct_of_items fuel _ after others more⟩
      · cases read
        exact List.forall_mem_singleton.mpr distinct
      · cases read

/-- Nor is it in the values of the entries of a table. -/
theorem distinct_of_entries (fuel : Nat) (cs rest : List Char) (found : List (String × Value))
    (read : entries fuel cs = some (found, rest)) : ∀ entry ∈ found, entry.2.Distinct := by
  match fuel with
  | 0 =>
    rw [entries] at read
    cases read
  | fuel + 1 =>
    rw [entries.eq_def] at read
    dsimp only at read
    split at read
    · cases read
      exact nofun
    · simp only [Option.bind_eq_bind, Option.bind_eq_some_iff, Option.pure_def] at read
      obtain ⟨⟨key, after⟩, -, read⟩ := read
      dsimp only at read
      split at read
      · simp only [Option.bind_eq_some_iff] at read
        obtain ⟨⟨first, after⟩, inside, read⟩ := read
        have distinct := distinct_of_value fuel _ after first inside
        split at read
        · simp only [Option.bind_eq_some_iff] at read
          obtain ⟨⟨others, after⟩, more, made⟩ := read
          cases made
          exact List.forall_mem_cons.mpr ⟨distinct, distinct_of_entries fuel _ after others more⟩
        · cases read
          exact List.forall_mem_singleton.mpr distinct
        · cases read
      · cases read

end

/-- In the value of a variable no key is repeated. What cannot be read as a value is a text, which
has none. -/
theorem distinct_read (text : String) : (read text).Distinct := by
  simp only [read]
  split
  · next found inside => exact distinct_of_value _ _ _ found inside
  · exact .text text

/-- Tables of one entry each repeat no key, as long as the value in the innermost repeats none. -/
theorem distinct_nest (value : Value) (distinct : value.Distinct) (keys : List (List Char)) :
    (nest value keys).Distinct := by
  induction keys with
  | nil => exact distinct
  | cons key keys inductionHypothesis =>
    exact .table _ (List.nodup_singleton _) (List.forall_mem_singleton.mpr inductionHypothesis)

/-- A name leads to a key at least, if only to an empty one. -/
theorem keys_ne_nil (cs : List Char) : keys cs ≠ [] := by
  rw [keys.eq_def]
  split
  · nofun
  · nofun
  · nofun
  · split <;> nofun

/-- A variable gives a table in which no key is repeated: its first key leads to what the others and
the value make. -/
theorem table_of_layer? (name text : String) (layer : Value)
    (given : layer? name text = some layer) :
    ∃ entries, layer = .table entries ∧ layer.Distinct := by
  simp only [layer?, Option.ite_none_right_eq_some, Option.ite_none_left_eq_some,
    Option.some.injEq] at given
  obtain ⟨-, -, rfl⟩ := given
  obtain ⟨key, others, named⟩ := List.exists_cons_of_ne_nil (keys_ne_nil _)
  rw [named]
  exact ⟨_, rfl, distinct_nest _ (distinct_read text) _⟩

end Environment

/-- An environment denotes a table in which no key is repeated. Laid over one another, tables make a
table, and none of them repeats a key. -/
theorem table_ofEnvironment (environment : List (String × String)) :
    ∃ entries, ofEnvironment environment = .table entries ∧
      (ofEnvironment environment).Distinct := by
  rw [ofEnvironment]
  refine List.foldlRecOn _ _ (motive := fun merged : Value =>
    ∃ entries, merged = .table entries ∧ merged.Distinct) ⟨[], rfl, ?_⟩ ?_
  · exact (Value.distinct_table_iff []).mpr .nil
  · rintro _ ⟨base, rfl, lower⟩ layer present
    obtain ⟨⟨name, text⟩, -, given⟩ := List.mem_filterMap.mp present
    obtain ⟨upper, rfl, distinct⟩ := Environment.table_of_layer? name text layer given
    exact ⟨mergeEntries base upper, by rw [Value.merge], Value.distinct_merge _ _ lower distinct⟩

end CalendarDial.Config
