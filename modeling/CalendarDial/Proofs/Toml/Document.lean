import CalendarDial.Proofs.Toml.Tables
import CalendarDial.Toml.Document

/-!
# What a document denotes is a table without repeated keys

A value in a document is a table without repeated keys, a list of values, or something that has no
keys. A line adds to the tables what it says without repeating a key, and so no key is repeated in
what the whole document denotes.
-/

namespace CalendarDial.Toml

open Config (Value Keyed)

/-- A number has no keys, in whatever way it is written. -/
theorem distinct_of_integer? (n : Int) (value : Value) (read : integer? n = some value) :
    value.Distinct := by
  rw [integer?, Option.ite_none_right_eq_some, Option.some.injEq] at read
  obtain ⟨-, rfl⟩ := read
  exact .int n

/-- A number in some base has no keys: it is an integer if it is read at all. -/
theorem distinct_of_ofBase? (base : Nat) (word : List Char) (value : Value)
    (read : ofBase? base word = some value) : value.Distinct := by
  simp only [ofBase?, Option.bind_eq_bind, Option.bind_eq_some_iff,
    Option.ite_none_left_eq_some] at read
  obtain ⟨_, -, _, -, -, made⟩ := read
  exact distinct_of_integer? _ value made

/-- A decimal number has no keys, be it an integer or one that no setting can use. -/
theorem distinct_of_decimal? (word : List Char) (value : Value)
    (read : decimal? word = some value) : value.Distinct := by
  simp only [decimal?, Option.bind_eq_bind, Option.bind_eq_some_iff, Option.pure_def] at read
  obtain ⟨_, -, read⟩ := read
  split at read
  · cases read
    exact .other
  split at read
  · cases read
  simp only [Option.bind_eq_some_iff] at read
  obtain ⟨_, -, read⟩ := read
  split at read
  · exact distinct_of_integer? _ value read
  split at read
  · cases read
    exact .other
  · cases read

/-- A bare value has no keys: it is a constant, a number, or a date or a time, which is kept as a
table without entries. -/
theorem distinct_of_readWord (cs rest : List Char) (value : Value)
    (read : readWord cs = some (value, rest)) : value.Distinct := by
  rw [readWord] at read
  split at read
  · cases read
    exact (Value.distinct_table_iff []).mpr .nil
  obtain ⟨found, word, made⟩ := Option.map_eq_some_iff.mp read
  obtain ⟨rfl, -⟩ := Prod.mk.inj made
  rw [ofWord?.eq_def] at word
  split at word
  · cases word
    exact .bool true
  split at word
  · cases word
    exact .bool false
  split at word
  · exact distinct_of_ofBase? 16 _ found word
  · exact distinct_of_ofBase? 8 _ found word
  · exact distinct_of_ofBase? 2 _ found word
  · exact distinct_of_decimal? _ found word

mutual

/-- In a value no key is repeated. The recursion follows the reading, whose fuel goes down with
every step inward: a list is read item by item, a table entry by entry into a table that repeats
none so far. -/
theorem distinct_of_readValue (fuel depth : Nat) (cs rest : List Char) (value : Value)
    (read : readValue fuel depth cs = some (value, rest)) : value.Distinct := by
  match fuel with
  | 0 =>
    rw [readValue] at read
    cases read
  | fuel + 1 =>
    rw [readValue.eq_def] at read
    dsimp only at read
    split at read
    · rw [Option.ite_none_left_eq_some] at read
      obtain ⟨⟨items, rest⟩, inside, made⟩ := Option.map_eq_some_iff.mp read.2
      obtain ⟨rfl, -⟩ := Prod.mk.inj made
      exact .list items (distinct_of_readItems fuel _ _ rest items inside)
    · rw [Option.ite_none_left_eq_some] at read
      obtain ⟨-, read⟩ := read
      split at read
      · cases read
        exact (Value.distinct_table_iff []).mpr .nil
      · obtain ⟨⟨entries, rest⟩, inside, made⟩ := Option.map_eq_some_iff.mp read
        obtain ⟨rfl, -⟩ := Prod.mk.inj made
        have keyed := keyed_of_readEntries fuel _ [] _ rest entries .nil inside
        exact Entries.distinct_table_toValues entries keyed
          (Entries.distinct_of_mem_toValues entries keyed.each)
    · obtain ⟨⟨text, rest⟩, -, made⟩ := Option.map_eq_some_iff.mp read
      obtain ⟨rfl, -⟩ := Prod.mk.inj made
      exact .text _
    · obtain ⟨⟨text, rest⟩, -, made⟩ := Option.map_eq_some_iff.mp read
      obtain ⟨rfl, -⟩ := Prod.mk.inj made
      exact .text _
    · exact distinct_of_readWord cs rest value read

/-- Nor is it in the items of a list. -/
theorem distinct_of_readItems (fuel depth : Nat) (cs rest : List Char) (items : List Value)
    (read : readItems fuel depth cs = some (items, rest)) : ∀ item ∈ items, item.Distinct := by
  match fuel with
  | 0 =>
    rw [readItems] at read
    cases read
  | fuel + 1 =>
    simp only [readItems, Option.bind_eq_bind, Option.bind_eq_some_iff, Option.pure_def] at read
    obtain ⟨cs, -, read⟩ := read
    split at read
    · cases read
      exact nofun
    · simp only [Option.bind_eq_some_iff] at read
      obtain ⟨⟨first, rest⟩, inside, after, -, read⟩ := read
      have distinct := distinct_of_readValue fuel _ _ rest first inside
      split at read
      · cases read
        exact List.forall_mem_singleton.mpr distinct
      · simp only [Option.bind_eq_some_iff] at read
        obtain ⟨⟨others, rest⟩, more, made⟩ := read
        cases made
        exact List.forall_mem_cons.mpr
          ⟨distinct, distinct_of_readItems fuel _ _ rest others more⟩
      · cases read

/-- Entries are added to others without repeating a key. Each of them is added in the same way as a
line of the document adds its value. -/
theorem keyed_of_readEntries (fuel depth : Nat) (entries : Entries) (cs rest : List Char)
    (added : Entries) (keyed : Keyed Node.Distinct entries)
    (read : readEntries fuel depth entries cs = some (added, rest)) :
    Keyed Node.Distinct added := by
  match fuel with
  | 0 =>
    rw [readEntries] at read
    cases read
  | fuel + 1 =>
    simp only [readEntries, Option.bind_eq_bind, Option.bind_eq_some_iff, Option.pure_def] at read
    obtain ⟨⟨key, cs⟩, -, read⟩ := read
    dsimp only at read
    split at read
    · simp only [Option.bind_eq_some_iff] at read
      obtain ⟨⟨value, after⟩, inside, more, adds, read⟩ := read
      have distinct := distinct_of_readValue fuel _ _ after value inside
      have keyed := Entries.keyed_addValue _ _ value entries more keyed distinct adds
      dsimp only at read
      split at read
      · cases read
        exact keyed
      · exact keyed_of_readEntries fuel _ more _ rest added keyed read
      · cases read
    · cases read

end

/-- In what a line says no key is repeated: it sets such a value, or it is a header. -/
def Line.Distinct : Line → Prop
  | setting _ value => value.Distinct
  | table _ => True
  | item _ => True

/-- A header sets no value, so it cannot repeat a key in one. -/
theorem distinct_of_readHeader (cs rest : List Char) (line : Line)
    (read : readHeader cs = some (line, rest)) : line.Distinct := by
  rw [readHeader.eq_def] at read
  split at read
  · simp only [Option.bind_eq_bind, Option.bind_eq_some_iff, Option.pure_def] at read
    obtain ⟨⟨key, _⟩, -, read⟩ := read
    split at read <;> cases read
    trivial
  · simp only [Option.bind_eq_bind, Option.bind_eq_some_iff, Option.pure_def] at read
    obtain ⟨⟨key, _⟩, -, read⟩ := read
    split at read <;> cases read
    trivial
  · cases read

/-- The value that is set repeats no key. It is read as any value is. -/
theorem distinct_of_readSetting (cs rest : List Char) (line : Line)
    (read : readSetting cs = some (line, rest)) : line.Distinct := by
  simp only [readSetting, Option.bind_eq_bind, Option.bind_eq_some_iff, Option.pure_def] at read
  obtain ⟨⟨key, _⟩, -, read⟩ := read
  split at read
  · simp only [Option.bind_eq_some_iff] at read
    obtain ⟨⟨value, after⟩, inside, made⟩ := read
    cases made
    exact distinct_of_readValue _ _ _ after value inside
  · cases read

/-- In what a line of a document says no key is repeated, whether it is a header or sets a value. -/
theorem distinct_of_readLine (cs rest : List Char) (line : Line)
    (read : readLine cs = some (some (line, rest))) : line.Distinct := by
  simp only [readLine, Option.bind_eq_bind, Option.bind_eq_some_iff, Option.pure_def] at read
  obtain ⟨cs, -, read⟩ := read
  split at read
  · cases read
  · simp only [Option.bind_eq_some_iff] at read
    obtain ⟨⟨found, after⟩, inside, _, -, made⟩ := read
    cases made
    exact distinct_of_readHeader _ after found inside
  · simp only [Option.bind_eq_some_iff] at read
    obtain ⟨⟨found, after⟩, inside, _, -, made⟩ := read
    cases made
    exact distinct_of_readSetting _ after found inside

namespace Draft

/-- One more line repeats no key: it adds a value under the header, or opens the table or the item
that it names. -/
theorem keyed_add (draft added : Draft) (line : Line) (keyed : Keyed Node.Distinct draft.entries)
    (distinct : line.Distinct) (adds : draft.add line = some added) :
    Keyed Node.Distinct added.entries := by
  cases line with
  | setting key value =>
    simp only [add, Option.bind_eq_bind, Option.bind_eq_some_iff, Option.pure_def] at adds
    obtain ⟨entries, under, ⟨rfl⟩⟩ := adds
    exact Entries.keyed_addUnder _ _ _ value _ entries keyed distinct under
  | table key =>
    simp only [add, Option.bind_eq_bind, Option.bind_eq_some_iff, Option.pure_def] at adds
    obtain ⟨entries, opens, ⟨rfl⟩⟩ := adds
    exact Entries.keyed_openTable _ _ _ entries keyed opens
  | item key =>
    simp only [add, Option.bind_eq_bind, Option.bind_eq_some_iff, Option.pure_def] at adds
    obtain ⟨entries, opens, ⟨rfl⟩⟩ := adds
    exact Entries.keyed_openItem _ _ _ entries keyed opens

/-- All lines together repeat no key, since each of them adds to tables that repeat none. -/
theorem keyed_addLines (fuel : Nat) (draft added : Draft) (cs : List Char)
    (keyed : Keyed Node.Distinct draft.entries) (adds : addLines fuel draft cs = some added) :
    Keyed Node.Distinct added.entries := by
  induction fuel generalizing draft cs with
  | zero =>
    rw [addLines] at adds
    cases adds
  | succ fuel inductionHypothesis =>
    simp only [addLines, Option.bind_eq_bind, Option.bind_eq_some_iff, Option.pure_def] at adds
    obtain ⟨read, inside, adds⟩ := adds
    split at adds
    · cases adds
      exact keyed
    · next line rest =>
      simp only [Option.bind_eq_some_iff] at adds
      obtain ⟨next, one, more⟩ := adds
      have distinct := distinct_of_readLine cs rest line inside
      exact inductionHypothesis next rest (keyed_add draft next line keyed distinct one) more

end Draft

/-- What a document denotes is a table in which no key is repeated. It begins as the empty table, to
which the lines are added. -/
theorem table_of_parse? (text : String) (value : Value) (parsed : parse? text = some value) :
    ∃ entries, value = .table entries ∧ value.Distinct := by
  simp only [parse?, Option.bind_eq_bind, Option.bind_eq_some_iff, Option.pure_def,
    Option.some.injEq] at parsed
  obtain ⟨draft, lines, rfl⟩ := parsed
  have keyed := Draft.keyed_addLines _ Draft.start draft _ .nil lines
  exact ⟨_, rfl, Entries.distinct_table_toValues _ keyed
    (Entries.distinct_of_mem_toValues _ keyed.each)⟩

end CalendarDial.Toml
