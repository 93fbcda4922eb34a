import CalendarDial.Text.Digits
import CalendarDial.Toml.Space

/-!
# Quoted text in TOML

A text in double quotes has escapes, a text in single quotes is taken as it stands. Either can be
written between three quotes on each side and then runs over several lines: a line end right after
the opening is dropped, and a backslash at the end of a line drops the space up to the next
character. Up to two quotes may stand next to the closing ones and belong to the text.
-/

namespace CalendarDial.Toml

/-- The character that an escape of one letter stands for. -/
def escaped? : Char → Option Char
  | 'b' => some '\x08'
  | 't' => some '\t'
  | 'n' => some '\n'
  | 'f' => some '\x0c'
  | 'r' => some '\r'
  | '"' => some '"'
  | '\\' => some '\\'
  | _ => none

/-- The character with the number that hexadecimal digits denote. -/
def character? (digits : List Char) : Option Char := do
  let values ← digits.mapM Text.hexValue?
  let number := values.foldl (fun number value => number * 16 + value) 0
  if number.isValidChar then some (Char.ofNat number) else none

/-- The text that a spelling with escapes stands for. -/
def meaning? : List Char → Option (List Char)
  | [] => some []
  | '\\' :: 'u' :: a :: b :: c :: d :: rest => do
    let first ← character? [a, b, c, d]
    pure (first :: (← meaning? rest))
  | '\\' :: 'U' :: a :: b :: c :: d :: e :: f :: g :: h :: rest => do
    let first ← character? [a, b, c, d, e, f, g, h]
    pure (first :: (← meaning? rest))
  | '\\' :: c :: rest => do
    let first ← escaped? c
    pure (first :: (← meaning? rest))
  | c :: rest => do pure (c :: (← meaning? rest))

/-- The spelling up to the closing quote, and what follows. With escapes, a backslash takes the next
character with it. -/
def lineSpelling (quote : Char) (escapes : Bool) : List Char → Option (List Char × List Char)
  | [] => none
  | c :: cs =>
    if c = quote then some ([], cs)
    else if escapes ∧ c = '\\' then
      match cs with
      | [] => none
      | d :: cs => (lineSpelling quote escapes cs).map fun (inner, rest) => (c :: d :: inner, rest)
    else (lineSpelling quote escapes cs).map fun (inner, rest) => (c :: inner, rest)

/-- The spelling up to the three closing quotes, and what follows. -/
def linesSpelling (quote : Char) (escapes : Bool) : List Char → Option (List Char × List Char)
  | [] => none
  | c :: cs =>
    if c = quote ∧ cs.take 2 = [quote, quote] then
      let more := ((cs.drop 2).take 2).takeWhile (· = quote)
      some (more, cs.drop (2 + more.length))
    else if escapes ∧ c = '\\' then
      match cs with
      | [] => none
      | d :: cs =>
        (linesSpelling quote escapes cs).map fun (inner, rest) => (c :: d :: inner, rest)
    else (linesSpelling quote escapes cs).map fun (inner, rest) => (c :: inner, rest)

/-- The text consists of plain characters and line ends. -/
def plainLines : List Char → Bool
  | [] => true
  | '\r' :: '\n' :: cs => plainLines cs
  | c :: cs => (c = '\n' || isPlain c) && plainLines cs

/-- The spelling without the space after backslashes at line ends. The flag says that such a
backslash came last. -/
def joinLines (joining : Bool) : List Char → List Char
  | [] => []
  | '\\' :: c :: cs =>
    if (afterLineEnd? (skipBlanks (c :: cs))).isSome then joinLines true (c :: cs)
    else '\\' :: c :: joinLines false cs
  | c :: cs =>
    if joining && (isBlank c || c = '\n' || c = '\r') then joinLines true cs
    else c :: joinLines false cs

/-- A quoted text on one line, and what follows. -/
def readLineText : List Char → Option (List Char × List Char)
  | '"' :: cs => do
    let (spelling, rest) ← lineSpelling '"' true cs
    if spelling.all isPlain then pure (← meaning? spelling, rest) else none
  | '\'' :: cs => do
    let (spelling, rest) ← lineSpelling '\'' false cs
    if spelling.all isPlain then pure (spelling, rest) else none
  | _ => none

/-- A quoted text on one line or several, and what follows. -/
def readText : List Char → Option (List Char × List Char)
  | '"' :: '"' :: '"' :: cs => do
    let (spelling, rest) ← linesSpelling '"' true ((afterLineEnd? cs).getD cs)
    if plainLines spelling then pure (← meaning? (joinLines false spelling), rest) else none
  | '\'' :: '\'' :: '\'' :: cs => do
    let (spelling, rest) ← linesSpelling '\'' false ((afterLineEnd? cs).getD cs)
    if plainLines spelling then pure (spelling, rest) else none
  | cs => readLineText cs

end CalendarDial.Toml
