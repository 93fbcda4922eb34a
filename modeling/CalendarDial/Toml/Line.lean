import CalendarDial.Toml.Quoted
import CalendarDial.Toml.Scalar
import CalendarDial.Toml.Tables

/-!
# Lines of TOML

A line says that a key has a value, or it is the header of a table or of a table in a list. A value
may itself contain others: a list in brackets, which can run over several lines, or a table in
braces, which cannot. Containers may lie in each other only so deep.
-/

namespace CalendarDial.Toml

open Config (Value)

/-- A key in its parts: those before the last, and the last. -/
structure Key where
  path : List String
  last : String

/-- All parts of a key. -/
def Key.parts (key : Key) : List String := key.path ++ [key.last]

/-- What a line says. -/
inductive Line where
  | setting (key : Key) (value : Value)
  | table (key : Key)
  | item (key : Key)

/-- How many lists and tables may lie in each other, and how many parts a key may have. -/
def deepest : Nat := 79

/-- The character can be part of a key without quotes. -/
def isKeyChar (c : Char) : Bool := c.isAlphanum || c = '_' || c = '-'

/-- One part of a key with the blanks around it, and what follows. -/
def readPart (cs : List Char) : Option (String × List Char) := do
  let cs := skipBlanks cs
  let (part, rest) ← match readLineText cs with
    | some found => some found
    | none =>
      let bare := cs.takeWhile isKeyChar
      if bare.isEmpty then none else some (bare, cs.dropWhile isKeyChar)
  pure (String.ofList part, skipBlanks rest)

/-- The parts of a key, joined by points, and what follows. The first argument bounds the number of
parts. -/
def readParts : Nat → List Char → Option (List String × List Char)
  | 0, _ => none
  | fuel + 1, cs => do
    let (first, rest) ← readPart cs
    match rest with
    | '.' :: rest => do
      let (others, rest) ← readParts fuel rest
      pure (first :: others, rest)
    | rest => pure ([first], rest)

/-- A key, and what follows. -/
def readKey (cs : List Char) : Option (Key × List Char) := do
  let (parts, rest) ← readParts deepest cs
  pure (⟨parts.dropLast, ← parts.getLast?⟩, rest)

mutual

/-- The value at the front of a text, and what follows. The first argument bounds the number of
steps, the second the number of containers that may be opened. -/
def readValue : Nat → Nat → List Char → Option (Value × List Char)
  | 0, _, _ => none
  | fuel + 1, depth, cs =>
    match cs with
    | '[' :: rest =>
      if depth = 0 then none
      else (readItems fuel (depth - 1) rest).map fun (items, rest) => (.list items, rest)
    | '{' :: rest =>
      if depth = 0 then none
      else
        match skipBlanks rest with
        | '}' :: rest => some (.table [], rest)
        | rest => (readEntries fuel (depth - 1) [] rest).map fun (entries, rest) =>
          (.table (Entries.toValues entries), rest)
    | '"' :: _ => (readText cs).map fun (text, rest) => (.text (String.ofList text), rest)
    | '\'' :: _ => (readText cs).map fun (text, rest) => (.text (String.ofList text), rest)
    | _ => readWord cs

/-- The items of a list up to its closing bracket, and what follows. A comma may follow the last. -/
def readItems : Nat → Nat → List Char → Option (List Value × List Char)
  | 0, _, _ => none
  | fuel + 1, depth, cs => do
    match ← skipSpace false cs with
    | ']' :: rest => pure ([], rest)
    | cs => do
      let (first, rest) ← readValue fuel depth cs
      match ← skipSpace false rest with
      | ']' :: rest => pure ([first], rest)
      | ',' :: rest => do
        let (others, rest) ← readItems fuel depth rest
        pure (first :: others, rest)
      | _ => none

/-- The entries of a table up to its closing brace, added to those before them, and what follows. -/
def readEntries : Nat → Nat → Entries → List Char → Option (Entries × List Char)
  | 0, _, _, _ => none
  | fuel + 1, depth, entries, cs => do
    let (key, rest) ← readKey cs
    match rest with
    | '=' :: rest => do
      let (value, rest) ← readValue fuel depth (skipBlanks rest)
      let entries ← entries.addValue key.path key.last value
      match skipBlanks rest with
      | '}' :: rest => pure (entries, rest)
      | ',' :: rest => readEntries fuel depth entries rest
      | _ => none
    | _ => none

end

/-- The header at the front of a text, and what follows. -/
def readHeader : List Char → Option (Line × List Char)
  | '[' :: '[' :: cs => do
    match ← readKey cs with
    | (key, ']' :: ']' :: rest) => pure (.item key, rest)
    | _ => none
  | '[' :: cs => do
    match ← readKey cs with
    | (key, ']' :: rest) => pure (.table key, rest)
    | _ => none
  | _ => none

/-- The key and the value at the front of a text, and what follows. -/
def readSetting (cs : List Char) : Option (Line × List Char) := do
  match ← readKey cs with
  | (key, '=' :: rest) => do
    let (value, rest) ← readValue (2 * rest.length + 2) deepest (skipBlanks rest)
    pure (.setting key value, rest)
  | _ => none

/-- The next line that says something, and the lines after it; nothing when there are no more. The
text begins where a line does. -/
def readLine (cs : List Char) : Option (Option (Line × List Char)) := do
  match ← skipSpace false cs with
  | [] => pure none
  | '[' :: rest => do
    let (line, rest) ← readHeader ('[' :: rest)
    pure (some (line, ← afterLine? rest))
  | cs => do
    let (line, rest) ← readSetting cs
    pure (some (line, ← afterLine? rest))

end CalendarDial.Toml
