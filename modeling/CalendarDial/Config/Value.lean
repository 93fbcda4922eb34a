/-!
# Values of settings

Settings come from several places, and each of them gives a table of named values, some of which are
tables again. Tables are laid over each other key by key: where both have a table under a key the
two are merged in turn, and otherwise the later value takes the place of the earlier one.
-/

namespace CalendarDial.Config

/-- A value as some place gives it. Of a value that no setting can have, such as a fraction, nothing
is kept. -/
inductive Value where
  | bool (value : Bool)
  | int (value : Int)
  | text (value : String)
  | list (items : List Value)
  | table (entries : List (String × Value))
  | other

/-- What is found under a key. -/
def lookup {α : Type} (key : String) : List (String × α) → Option α
  | [] => none
  | (k, value) :: entries => if k = key then some value else lookup key entries

/-- The entries with the value under a key replaced, or the key added at the end. -/
def put {α : Type} (key : String) (value : α) : List (String × α) → List (String × α)
  | [] => [(key, value)]
  | (k, old) :: entries =>
    if k = key then (k, value) :: entries else (k, old) :: put key value entries

mutual

/-- Lays the second value over the first. -/
def Value.merge (base : Value) : Value → Value
  | .table upper =>
    match base with
    | .table entries => .table (mergeEntries entries upper)
    | _ => .table upper
  | .bool value => .bool value
  | .int value => .int value
  | .text value => .text value
  | .list items => .list items
  | .other => .other

/-- Lays the entries of the second table over those of the first, in order. -/
def mergeEntries (base : List (String × Value)) :
    List (String × Value) → List (String × Value)
  | [] => base
  | (key, value) :: upper =>
    let merged := match lookup key base with
      | some old => Value.merge old value
      | none => value
    mergeEntries (put key merged base) upper

end

/-- After a value is put under a key, that key leads to it and every other key to what it led to
before. Keys that come before it are passed over in both. -/
theorem lookup_put {α : Type} (key other : String) (value : α) (entries : List (String × α)) :
    lookup other (put key value entries) =
      if key = other then some value else lookup other entries := by
  induction entries with
  | nil => simp [put, lookup]
  | cons entry entries inductionHypothesis =>
    obtain ⟨k, old⟩ := entry
    by_cases replaced : k = key
    · subst replaced
      by_cases same : k = other <;> simp [put, lookup, same]
    · by_cases found : k = other
      · subst found
        simp [put, lookup, replaced, Ne.symm replaced]
      · simp [put, lookup, replaced, found, inductionHypothesis]

end CalendarDial.Config
