import Mathlib.Data.List.Induction
import Mathlib.Data.List.Nodup
import CalendarDial.Config.Value

/-!
# What a path leads to in merged layers

When no table has two entries with the same key, laying one value over another can be followed along
each path of keys alone: as long as there are tables on the way, what the path leads to afterwards
depends only on what it led to in either of the two. So in a whole row of layers a value that is no
table is found exactly if it is what the last layer gives that gives anything.
-/

namespace CalendarDial.Config

/-- No two entries have the same key, and the property holds under every key. -/
structure Keyed {α : Type} (property : α → Prop) (entries : List (String × α)) : Prop where
  distinct : (entries.map Prod.fst).Nodup
  each : ∀ entry ∈ entries, property entry.2

section Entries

variable {α : Type} {property : α → Prop} {entries : List (String × α)}

/-- Without entries nothing is repeated. -/
theorem Keyed.nil : Keyed property [] := ⟨List.nodup_nil, nofun⟩

/-- Nothing is found under a key exactly if no entry has it, since the search looks at every
entry. -/
theorem lookup_eq_none_iff (key : String) (entries : List (String × α)) :
    lookup key entries = none ↔ key ∉ entries.map Prod.fst := by
  induction entries with
  | nil => simp [lookup]
  | cons entry entries inductionHypothesis =>
    simp only [lookup, List.map_cons, List.mem_cons, not_or, ← inductionHypothesis]
    by_cases same : entry.1 = key
    · simp [same]
    · simp [same, Ne.symm same]

/-- What is found under a key is an entry, the first one that has the key. -/
theorem mem_of_lookup_eq_some (key : String) (value : α) (entries : List (String × α))
    (found : lookup key entries = some value) : (key, value) ∈ entries := by
  induction entries with
  | nil => cases found
  | cons entry entries inductionHypothesis =>
    obtain ⟨k, old⟩ := entry
    rw [lookup] at found
    split at found
    · next same =>
      obtain rfl := Option.some.inj found
      exact same ▸ List.mem_cons_self
    · exact List.mem_cons_of_mem _ (inductionHypothesis found)

/-- The property holds of what is found. -/
theorem Keyed.lookup (keyed : Keyed property entries) (key : String) (value : α)
    (found : lookup key entries = some value) : property value :=
  keyed.each _ (mem_of_lookup_eq_some key value entries found)

/-- Putting a value under a key adds the key at the end unless it is there. An entry that has it
gets the new value and stays in its place. -/
theorem map_fst_put (key : String) (value : α) (entries : List (String × α)) :
    (put key value entries).map Prod.fst =
      if key ∈ entries.map Prod.fst then entries.map Prod.fst
      else entries.map Prod.fst ++ [key] := by
  induction entries with
  | nil => simp [put]
  | cons entry entries inductionHypothesis =>
    obtain ⟨k, old⟩ := entry
    by_cases same : k = key
    · simp [put, same]
    · by_cases present : key ∈ entries.map Prod.fst
      · simp_all [put, Ne.symm same]
      · simp_all [put, Ne.symm same]

/-- After a value is put under a key there is its entry, and no other that was not there before. -/
theorem mem_of_mem_put (key : String) (value : α) (entries : List (String × α))
    (entry : String × α) (present : entry ∈ put key value entries) :
    entry = (key, value) ∨ entry ∈ entries := by
  induction entries with
  | nil => exact .inl (List.mem_singleton.mp present)
  | cons first entries inductionHypothesis =>
    obtain ⟨k, old⟩ := first
    rw [put] at present
    split at present
    · next same =>
      rcases List.mem_cons.mp present with rfl | present
      · exact .inl (same ▸ rfl)
      · exact .inr (List.mem_cons_of_mem _ present)
    · rcases List.mem_cons.mp present with rfl | present
      · exact .inr List.mem_cons_self
      · exact (inductionHypothesis present).imp_right (List.mem_cons_of_mem _)

/-- No key is repeated by putting a value under one. Either the key is there and the keys stay the
same, or it is added behind them all. -/
theorem Keyed.put (keyed : Keyed property entries) (key : String) (value : α)
    (holds : property value) : Keyed property (put key value entries) := by
  constructor
  · rw [map_fst_put]
    split
    · exact keyed.distinct
    · next absent =>
      refine List.nodup_append.mpr ⟨keyed.distinct, List.nodup_singleton key, ?_⟩
      rintro k present other added rfl
      rw [List.mem_singleton] at added
      exact absent (added ▸ present)
  · intro entry present
    rcases mem_of_mem_put key value entries entry present with rfl | present
    · exact holds
    · exact keyed.each entry present

end Entries

/-- No table in a value, however deep, has two entries with the same key. -/
inductive Value.Distinct : Value → Prop where
  | bool (value : Bool) : Distinct (.bool value)
  | int (value : Int) : Distinct (.int value)
  | text (value : String) : Distinct (.text value)
  | list (items : List Value) (each : ∀ item ∈ items, item.Distinct) : Distinct (.list items)
  | table (entries : List (String × Value)) (distinct : (entries.map Prod.fst).Nodup)
      (each : ∀ entry ∈ entries, entry.2.Distinct) : Distinct (.table entries)
  | other : Distinct .other

/-- In a table no key is repeated, neither among its own nor deeper. -/
theorem Value.distinct_table_iff (entries : List (String × Value)) :
    (Value.table entries).Distinct ↔ Keyed Value.Distinct entries := by
  constructor
  · rintro (_ | _ | _ | _ | ⟨_, distinct, each⟩)
    exact ⟨distinct, each⟩
  · rintro ⟨distinct, each⟩
    exact .table entries distinct each

mutual

/-- Laying one value over another repeats no key. Only a table over a table makes anything new. -/
theorem Value.distinct_merge (base upper : Value) (lower : base.Distinct)
    (distinct : upper.Distinct) : (base.merge upper).Distinct := by
  match upper with
  | .table entries =>
    match base with
    | .table inner =>
      have keyed := (Value.distinct_table_iff entries).mp distinct
      exact (Value.distinct_table_iff _).mpr
        (keyed_mergeEntries inner entries ((Value.distinct_table_iff inner).mp lower) keyed.each)
    | .bool _ => exact distinct
    | .int _ => exact distinct
    | .text _ => exact distinct
    | .list _ => exact distinct
    | .other => exact distinct
  | .bool _ => exact distinct
  | .int _ => exact distinct
  | .text _ => exact distinct
  | .list _ => exact distinct
  | .other => exact distinct

/-- Neither does laying entries over entries. They are put in one by one, each over what its key had
before. -/
theorem keyed_mergeEntries (base upper : List (String × Value))
    (lower : Keyed Value.Distinct base) (each : ∀ entry ∈ upper, entry.2.Distinct) :
    Keyed Value.Distinct (mergeEntries base upper) := by
  match upper with
  | [] => exact lower
  | (key, value) :: upper =>
    have first : value.Distinct := each _ List.mem_cons_self
    rw [mergeEntries]
    refine keyed_mergeEntries _ upper (lower.put key _ ?_) fun entry present =>
      each entry (List.mem_cons_of_mem _ present)
    split
    · next old found => exact Value.distinct_merge old value (lower.lookup key old found) first
    · exact first

end

/-- What is under a key in two layers, the second laid over the first. -/
def overlay : Option Value → Option Value → Option Value
  | base, none => base
  | none, some upper => some upper
  | some base, some upper => some (base.merge upper)

/-- Where the layer on top has nothing, what is below remains. -/
theorem overlay_none (base : Option Value) : overlay base none = base := by
  cases base <;> rfl

/-- In a table laid over another, every key leads to what the two have under it. The entries on top
are put in one by one, and what is put under a key remains, because the key is not repeated further
on. -/
theorem lookup_mergeEntries (key : String) (base upper : List (String × Value))
    (distinct : (upper.map Prod.fst).Nodup) :
    lookup key (mergeEntries base upper) = overlay (lookup key base) (lookup key upper) := by
  induction upper generalizing base with
  | nil => rw [mergeEntries, lookup, overlay_none]
  | cons entry upper inductionHypothesis =>
    obtain ⟨k, value⟩ := entry
    rw [List.map_cons, List.nodup_cons] at distinct
    rw [mergeEntries, inductionHypothesis _ distinct.2, lookup_put, lookup]
    by_cases same : k = key
    · subst same
      rw [if_pos rfl, if_pos rfl, (lookup_eq_none_iff k upper).mpr distinct.1, overlay_none]
      cases lookup k base <;> rfl
    · rw [if_neg same, if_neg same]

namespace Value

/-- What a path of keys leads to. -/
def at? : List String → Value → Option Value
  | [], value => some value
  | key :: path, .table entries => (lookup key entries).bind (at? path)
  | _ :: _, _ => none

/-- A path of one key leads to what the table has under it. -/
theorem at?_singleton (key : String) (entries : List (String × Value)) :
    (table entries).at? [key] = lookup key entries := by
  rw [at?]
  cases lookup key entries <;> rfl

/-- A longer path goes on in what the table has under the first key. -/
theorem at?_cons (key : String) (path : List String) (entries : List (String × Value))
    (inner : Value) (found : lookup key entries = some inner) :
    (table entries).at? (key :: path) = inner.at? path := by
  rw [at?, found, Option.bind_some]

/-- There are only tables on the path, as far as it leads. -/
def OpenTo : List String → Value → Prop
  | [], _ => True
  | key :: path, value => ∃ entries, value = .table entries ∧
      ∀ inner, lookup key entries = some inner → inner.OpenTo path

/-- After one layer is laid over another, a path leads to what it leads to in the two. The induction
is on the path: both values are tables, whose keys are overlaid one by one, and the path goes on in
what its first key leads to. -/
theorem at?_merge (path : List String) (base upper : Value) (lower : base.OpenTo path)
    (higher : upper.OpenTo path) (distinct : upper.Distinct) :
    (base.merge upper).at? path = overlay (base.at? path) (upper.at? path) := by
  induction path generalizing base upper with
  | nil => rfl
  | cons key path inductionHypothesis =>
    obtain ⟨inner, rfl, openInner⟩ := lower
    obtain ⟨entries, rfl, openEntries⟩ := higher
    have keyed := (distinct_table_iff entries).mp distinct
    simp only [merge, at?, lookup_mergeEntries key inner entries keyed.distinct]
    cases above : lookup key entries with
    | none => rw [overlay_none, Option.bind_none, overlay_none]
    | some value =>
      cases below : lookup key inner with
      | none =>
        simp only [overlay, Option.bind_some, Option.bind_none]
        cases value.at? path <;> rfl
      | some old =>
        exact inductionHypothesis old value (openInner old below) (openEntries value above)
          (keyed.lookup key value above)

/-- After one layer is laid over another, there are only tables on a path if there were in both.
Under the next key there is what one of the two has, or both laid over each other. -/
theorem openTo_merge (path : List String) (base upper : Value) (lower : base.OpenTo path)
    (higher : upper.OpenTo path) (distinct : upper.Distinct) : (base.merge upper).OpenTo path := by
  induction path generalizing base upper with
  | nil => trivial
  | cons key path inductionHypothesis =>
    obtain ⟨inner, rfl, openInner⟩ := lower
    obtain ⟨entries, rfl, openEntries⟩ := higher
    have keyed := (distinct_table_iff entries).mp distinct
    refine ⟨mergeEntries inner entries, by rw [merge], fun value found => ?_⟩
    rw [lookup_mergeEntries key inner entries keyed.distinct] at found
    cases above : lookup key entries with
    | none =>
      rw [above, overlay_none] at found
      exact openInner value found
    | some first =>
      cases below : lookup key inner with
      | none =>
        rw [above, below] at found
        obtain rfl := Option.some.inj found
        exact openEntries _ above
      | some old =>
        rw [above, below] at found
        obtain rfl := Option.some.inj found
        exact inductionHypothesis old first (openInner old below) (openEntries first above)
          (keyed.lookup key first above)

/-- A value that is no table is what results exactly if it is laid on top. Only a table is ever
merged with what is below. -/
theorem merge_eq_iff (base upper value : Value) (plain : ∀ entries, value ≠ .table entries) :
    base.merge upper = value ↔ upper = value := by
  cases upper with
  | table entries =>
    refine iff_of_false ?_ (plain entries).symm
    cases base <;> exact (plain _).symm
  | _ => rw [merge]

end Value

/-- What a path leads to in the last of several layers in which it leads anywhere. -/
def lastAt? (path : List String) (layers : List Value) : Option Value :=
  layers.reverse.findSome? (·.at? path)

/-- The last layer counts if it gives anything, and otherwise the layers before it do. -/
theorem lastAt?_concat (path : List String) (layers : List Value) (layer : Value) :
    lastAt? path (layers ++ [layer]) = (layer.at? path).or (lastAt? path layers) := by
  rw [lastAt?, List.reverse_concat, List.findSome?_cons]
  cases layer.at? path <;> rfl

section Layers

variable (path : List String)

/-- In the layer there are only tables on the path, and no key is repeated. -/
structure IsLayer (layer : Value) : Prop where
  openTo : layer.OpenTo path
  distinct : layer.Distinct

/-- With one more layer, a path leads to a value that is no table exactly if it leads to it in this
layer, or nowhere in this layer and to the value before. Where both lead somewhere, the value of
this layer replaces the one below, for it is no table. -/
theorem at?_merge_eq_some_iff (base layer value : Value) (lower : base.OpenTo path)
    (regular : IsLayer path layer) (plain : ∀ entries, value ≠ .table entries) :
    (base.merge layer).at? path = some value ↔
      (layer.at? path).or (base.at? path) = some value := by
  rw [Value.at?_merge path base layer lower regular.openTo regular.distinct]
  cases layer.at? path with
  | none => rw [overlay_none, Option.none_or]
  | some upper =>
    rw [Option.some_or, Option.some.injEq]
    cases base.at? path with
    | none => rw [overlay, Option.some.injEq]
    | some old => rw [overlay, Option.some.injEq, Value.merge_eq_iff old upper value plain]

/-- Merged layers have only tables on a path if each of them has. Merging one more layer keeps it
so. -/
theorem openTo_foldl_merge (layers : List Value) (base : Value) (lower : base.OpenTo path)
    (regular : ∀ layer ∈ layers, IsLayer path layer) :
    (layers.foldl Value.merge base).OpenTo path :=
  List.foldlRecOn (motive := (Value.OpenTo path ·)) layers Value.merge lower
    fun merged tables layer present =>
      Value.openTo_merge path merged layer tables (regular layer present).openTo
        (regular layer present).distinct

/-- In merged layers a path leads to a value that is no table exactly if it leads to it in the last
layer in which it leads anywhere. The induction takes layers off the top, and what is left below has
only tables on the path. -/
theorem at?_foldl_merge_eq_some_iff (layers : List Value) (base value : Value)
    (lower : base.OpenTo path) (regular : ∀ layer ∈ layers, IsLayer path layer)
    (plain : ∀ entries, value ≠ .table entries) :
    (layers.foldl Value.merge base).at? path = some value ↔
      lastAt? path (base :: layers) = some value := by
  induction layers using List.reverseRecOn with
  | nil => simp [lastAt?]
  | append_singleton layers layer inductionHypothesis =>
    obtain ⟨others, last⟩ := List.forall_mem_append.mp regular
    rw [List.forall_mem_singleton] at last
    have below := openTo_foldl_merge path layers base lower others
    rw [List.foldl_concat, at?_merge_eq_some_iff path _ layer value below last plain,
      ← List.cons_append, lastAt?_concat]
    cases layer.at? path with
    | none => exact inductionHypothesis others
    | some upper => rfl

/-- Where a path leads anywhere, it does so after more layers are laid over. What is there is
replaced or merged, but never taken away. -/
theorem isSome_at?_foldl_merge (layers : List Value) (base : Value) (lower : base.OpenTo path)
    (regular : ∀ layer ∈ layers, IsLayer path layer) (given : (base.at? path).isSome = true) :
    ((layers.foldl Value.merge base).at? path).isSome = true := by
  induction layers using List.reverseRecOn with
  | nil => exact given
  | append_singleton layers layer inductionHypothesis =>
    obtain ⟨others, last⟩ := List.forall_mem_append.mp regular
    rw [List.forall_mem_singleton] at last
    have below := openTo_foldl_merge path layers base lower others
    obtain ⟨old, found⟩ := Option.isSome_iff_exists.mp (inductionHypothesis others)
    rw [List.foldl_concat, Value.at?_merge path _ layer below last.openTo last.distinct, found]
    cases layer.at? path <;> rfl

end Layers

end CalendarDial.Config
