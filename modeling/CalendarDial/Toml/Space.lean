/-!
# Space in TOML

Inside a line there are spaces and tabs. A line ends with a line feed, which a carriage return may
precede, and a number sign makes the rest of a line a comment. Control characters other than the tab
have no place anywhere.
-/

namespace CalendarDial.Toml

/-- The blanks inside a line. -/
def isBlank (c : Char) : Bool := c = ' ' || c = '\t'

/-- The character can stand in a comment: it is a tab or no control character. -/
def isPlain (c : Char) : Bool := c = '\t' || (0x20 ≤ c.toNat && c.toNat ≠ 0x7F)

/-- A text after its blanks. -/
def skipBlanks (cs : List Char) : List Char := cs.dropWhile isBlank

/-- A text after the end of a line. -/
def afterLineEnd? : List Char → Option (List Char)
  | '\n' :: cs => some cs
  | '\r' :: '\n' :: cs => some cs
  | _ => none

/-- A text after the comment that it may begin with. -/
def skipComment : List Char → List Char
  | '#' :: cs => cs.dropWhile isPlain
  | cs => cs

/-- A text after the rest of a line on which nothing more is said. -/
def afterLine? (cs : List Char) : Option (List Char) :=
  match skipComment (skipBlanks cs) with
  | [] => some []
  | rest => afterLineEnd? rest

/-- A text after blanks, line ends and comments. There is none if a comment has a control character
in it. -/
def skipSpace (inComment : Bool) : List Char → Option (List Char)
  | [] => some []
  | c :: cs =>
    if c = '\n' ∨ (c = '\r' ∧ cs.head? = some '\n') then skipSpace false cs
    else if inComment then
      if isPlain c then skipSpace true cs else none
    else if isBlank c then skipSpace false cs
    else if c = '#' then skipSpace true cs
    else some (c :: cs)

end CalendarDial.Toml
