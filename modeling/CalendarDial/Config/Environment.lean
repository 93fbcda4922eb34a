import CalendarDial.Config.Value
import CalendarDial.Json.Coded
import CalendarDial.Text.Characters
import CalendarDial.Toml.Quoted

/-!
# Settings from the environment

A variable whose name begins with the program's own, in any case, is a setting. The rest of the name
is taken in lower case, and a double underscore or a point leads into a table. What stands in the
variable is read as a truth value, a table in braces, a list in brackets, a text in double quotes
that would stand for one in TOML, or a number; whatever cannot be read in this way is a text as it
stands.
-/

namespace CalendarDial.Config

namespace Environment

/-- The blanks of ASCII. -/
def isSpace (c : Char) : Bool :=
  c = ' ' || c = '\t' || c = '\n' || c = '\r' || c = '\x0c'

/-- The character ends a bare value. -/
def isSeparator (c : Char) : Bool := c = ',' || c = '{' || c = '}' || c = '[' || c = ']'

/-- The character can stand in a bare key. -/
def isKeyChar (c : Char) : Bool := c.isAlphanum || c = '_' || c = '-'

/-- A text after its blanks. -/
def skip (cs : List Char) : List Char := cs.dropWhile isSpace

/-- The digits of a text after an optional sign of the given kind. -/
def digitsAfter (sign : Char) : List Char → List Char
  | c :: cs => if c = sign then cs else c :: cs
  | [] => []

/-- The value of a bare text: a number when it is one that 64 bits hold, with or without a sign, and
otherwise the text itself. A text with a point in it may be a fraction, which no setting can be. -/
def bare (cs : List Char) : Value :=
  let unsigned := digitsAfter '+' cs
  let negated := digitsAfter '-' cs
  if !unsigned.isEmpty && unsigned.all Char.isDigit &&
      decide (Text.ofDigits unsigned ≤ Json.greatest64) then
    .int (Text.ofDigits unsigned)
  else if !negated.isEmpty && negated.all Char.isDigit && decide (negated.length < cs.length) &&
      decide (Instant.Representable (-(Text.ofDigits negated))) then
    .int (-(Text.ofDigits negated))
  else
    .text (String.ofList cs)

/-- The rest of a text after a constant. -/
def afterConstant (constant : String) (cs : List Char) : Option (List Char) :=
  if constant.toList.isPrefixOf cs then some (cs.drop constant.length) else none

/-- The key at the front of a text, bare or in double quotes, and what follows. -/
def readKey (cs : List Char) : Option (List Char × List Char) :=
  match cs with
  | '"' :: _ => Toml.readLineText cs
  | _ =>
    let key := cs.takeWhile isKeyChar
    if key.isEmpty then none else some (key, cs.dropWhile isKeyChar)

/-- The table with the given entries, later ones in place of earlier ones with the same key. -/
def ofEntries (entries : List (String × Value)) : Value :=
  .table (entries.foldl (fun table (key, value) => put key value table) [])

mutual

/-- The value at the front of a text, and what follows it. The first argument bounds the number of
steps. -/
def value : Nat → List Char → Option (Value × List Char)
  | 0, _ => none
  | fuel + 1, cs =>
    let cs := skip cs
    let found : Option (Value × List Char) :=
      match afterConstant "true" cs with
      | some rest => some (.bool true, rest)
      | none =>
        match afterConstant "false" cs with
        | some rest => some (.bool false, rest)
        | none =>
          match cs with
          | '{' :: rest => (entries fuel rest).map fun (found, rest) => (ofEntries found, rest)
          | '[' :: rest => (items fuel rest).map fun (found, rest) => (.list found, rest)
          | '"' :: _ =>
            (Toml.readLineText cs).map fun (text, rest) => (.text (String.ofList text), rest)
          | '\'' :: _ :: '\'' :: rest => some (.other, rest)
          | '\'' :: _ => none
          | _ =>
            some (bare (Text.trim (cs.takeWhile (!isSeparator ·))),
              cs.dropWhile (!isSeparator ·))
    found.map fun (found, rest) => (found, skip rest)

/-- The items of a list up to its closing bracket, and what follows. -/
def items : Nat → List Char → Option (List Value × List Char)
  | 0, _ => none
  | fuel + 1, cs =>
    match cs with
    | ']' :: rest => some ([], rest)
    | _ => do
      let (first, rest) ← value fuel cs
      match rest with
      | ',' :: rest => do
        let (others, rest) ← items fuel rest
        pure (first :: others, rest)
      | ']' :: rest => pure ([first], rest)
      | _ => none

/-- The entries of a table up to its closing brace, and what follows. -/
def entries : Nat → List Char → Option (List (String × Value) × List Char)
  | 0, _ => none
  | fuel + 1, cs =>
    match cs with
    | '}' :: rest => some ([], rest)
    | _ => do
      let (key, rest) ← readKey (skip cs)
      match skip rest with
      | '=' :: rest => do
        let (first, rest) ← value fuel rest
        let entry := (String.ofList key, first)
        match rest with
        | ',' :: rest => do
          let (others, rest) ← entries fuel rest
          pure (entry :: others, rest)
        | '}' :: rest => pure ([entry], rest)
        | _ => none
      | _ => none

end

/-- The value of a variable. -/
def read (text : String) : Value :=
  let cs := text.toList
  match value (2 * cs.length + 2) cs with
  | some (found, []) => found
  | _ => .text text

/-- The beginning of the names of all variables that are settings, in upper case. -/
def programName : List Char := "CALFACE_".toList

/-- The keys that lead to a setting, from the rest of the name of its variable in lower case. A
double underscore separates keys just as a point does. -/
def keys : List Char → List (List Char)
  | [] => [[]]
  | '_' :: '_' :: rest => [] :: keys rest
  | '.' :: rest => [] :: keys rest
  | c :: rest =>
    match keys rest with
    | key :: others => (c :: key) :: others
    | [] => [[c]]

/-- A value inside one table for each key. -/
def nest (value : Value) : List (List Char) → Value
  | [] => value
  | key :: others => .table [(String.ofList key, nest value others)]

/-- The layer that one variable gives, if it is a setting. A name in which some key is empty is
none. -/
def layer? (name text : String) : Option Value :=
  let cs := Text.trim name.toList
  if (cs.take programName.length).map Char.toUpper = programName then
    let keys := keys (Text.trim ((cs.drop programName.length).map Char.toLower))
    if keys.any List.isEmpty then none else some (nest (read text) keys)
  else
    none

end Environment

/-- The layer that the variables of an environment give, later ones over earlier ones. -/
def ofEnvironment (environment : List (String × String)) : Value :=
  (environment.filterMap fun (name, text) => Environment.layer? name text).foldl Value.merge
    (.table [])

end CalendarDial.Config
