import CalendarDial.Json.Number

/-!
# The structure and the symbols of a JSON text

A tree keeps the strings and numbers of a JSON text as they are spelled: a string without its
quotes and with its escapes, a number digit by digit. What a spelling means is a separate question,
because a text may contain spellings that mean nothing, such as half of a surrogate pair or a number
beyond every float, and is no worse for it as long as nobody asks for their value.

The text is read character by character. Outside strings a blank or a punctuation mark ends a word,
and a word has to be the name of a constant or the spelling of a number. Inside a string every
escape has to be a known one, a Unicode escape has to have its four hexadecimal digits, and control
characters are refused; what an escape stands for is not looked at.
-/

namespace CalendarDial.Json

/-- A JSON text without its blanks, with strings and numbers as spelled. -/
inductive Tree where
  | null
  | bool (value : Bool)
  | number (spelling : List Char)
  | string (spelling : List Char)
  | array (items : List Tree)
  | object (members : List (List Char × Tree))

/-- The symbols from which a JSON text is built. -/
inductive Token where
  | openArray
  | closeArray
  | openObject
  | closeObject
  | comma
  | colon
  | null
  | bool (value : Bool)
  | number (spelling : List Char)
  | string (spelling : List Char)
deriving DecidableEq

/-- The four blanks of JSON. -/
def isBlank (c : Char) : Bool := c = ' ' || c = '\t' || c = '\n' || c = '\r'

/-- The symbol that a punctuation mark is. -/
def punctuation? : Char → Option Token
  | '[' => some .openArray
  | ']' => some .closeArray
  | '{' => some .openObject
  | '}' => some .closeObject
  | ',' => some .comma
  | ':' => some .colon
  | _ => none

/-- The symbol that a word is. -/
def Token.ofWord? (word : List Char) : Option Token :=
  if word = "null".toList then some .null
  else if word = "true".toList then some (.bool true)
  else if word = "false".toList then some (.bool false)
  else (NumberParts.read word).map fun _ => .number word

namespace Lexer

/-- Where in the text the reading stands. What has been read of a word or of a string is kept last
character first. -/
inductive Place where
  | between
  | word (read : List Char)
  | string (read : List Char)
  | escape (read : List Char)
  | unicode (missing : Nat) (read : List Char)

/-- The symbols read so far, the last one first, and the place reached. -/
structure State where
  tokens : List Token
  place : Place

/-- The state before the first character. -/
def State.start : State := ⟨[], .between⟩

/-- Takes a character that stands outside words and strings. -/
def openWith (tokens : List Token) (c : Char) : State :=
  if isBlank c then ⟨tokens, .between⟩
  else if c = '"' then ⟨tokens, .string []⟩
  else match punctuation? c with
    | some token => ⟨token :: tokens, .between⟩
    | none => ⟨tokens, .word [c]⟩

/-- The character can be part of a word. -/
def continuesWord (c : Char) : Bool :=
  !(isBlank c || c = '"' || (punctuation? c).isSome)

/-- Takes one more character. -/
def step (state : State) (c : Char) : Option State :=
  match state.place with
  | .between => some (openWith state.tokens c)
  | .word read =>
    if continuesWord c then some { state with place := .word (c :: read) }
    else (Token.ofWord? read.reverse).map fun token => openWith (token :: state.tokens) c
  | .string read =>
    if c = '"' then some ⟨.string read.reverse :: state.tokens, .between⟩
    else if c = '\\' then some { state with place := .escape (c :: read) }
    else if c.toNat < 32 then none
    else some { state with place := .string (c :: read) }
  | .escape read =>
    if c = 'u' then some { state with place := .unicode 3 (c :: read) }
    else if "\"\\/bfnrt".toList.contains c then some { state with place := .string (c :: read) }
    else none
  | .unicode missing read =>
    if (Text.hexValue? c).isNone then none
    else match missing with
      | 0 => some { state with place := .string (c :: read) }
      | missing + 1 => some { state with place := .unicode missing (c :: read) }

/-- The symbols, if the text ends outside a string. -/
def finish (state : State) : Option (List Token) :=
  match state.place with
  | .between => some state.tokens.reverse
  | .word read => (Token.ofWord? read.reverse).map fun token => (token :: state.tokens).reverse
  | _ => none

end Lexer

/-- The symbols of a text, if it has nothing else in it. -/
def tokens? (text : List Char) : Option (List Token) :=
  (text.foldlM Lexer.step Lexer.State.start).bind Lexer.finish

end CalendarDial.Json
