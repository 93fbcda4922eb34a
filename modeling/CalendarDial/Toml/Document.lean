import CalendarDial.Toml.Line

/-!
# Documents in TOML

A document is read line by line. What its lines say has to fit together; the first one that does not
makes the whole document invalid.
-/

namespace CalendarDial.Toml

/-- A document under construction: its tables, and the keys that lead to the one that the last
header opened. -/
structure Draft where
  entries : Entries
  header : List String

namespace Draft

/-- The document before its first line. -/
def start : Draft := ⟨[], []⟩

/-- Takes one more line. -/
def add (draft : Draft) : Line → Option Draft
  | .setting key value => do
    let entries ← draft.entries.addUnder draft.header key.path key.last value
    pure { draft with entries }
  | .table key => do
    let entries ← draft.entries.openTable key.path key.last
    pure ⟨entries, key.parts⟩
  | .item key => do
    let entries ← draft.entries.openItem key.path key.last
    pure ⟨entries, key.parts⟩

/-- Takes all lines of a text. The first argument bounds their number. -/
def addLines : Nat → Draft → List Char → Option Draft
  | 0, _, _ => none
  | fuel + 1, draft, cs => do
    match ← readLine cs with
    | none => pure draft
    | some (line, rest) => addLines fuel (← draft.add line) rest

end Draft

/-- A text after the byte order mark that it may begin with. -/
def afterMark : List Char → List Char
  | '\uFEFF' :: cs => cs
  | cs => cs

/-- The table that a document denotes. -/
def parse? (text : String) : Option Config.Value := do
  let cs := afterMark text.toList
  let draft ← Draft.addLines (cs.length + 1) Draft.start cs
  pure (.table (Entries.toValues draft.entries))

end CalendarDial.Toml
