import CalendarDial.Text.Digits

/-!
# Strings in JSON

A string is spelled with escapes for the quote, the backslash and the control characters, five of
which have escapes of one letter; every other character stands for itself. Reading also accepts an
escaped slash and four-digit escapes of any UTF-16 unit, as long as surrogates come in pairs.
-/

namespace CalendarDial.Json

/-- The spelling of one character. -/
def spellChar (c : Char) : List Char :=
  if c = '"' then ['\\', '"']
  else if c = '\\' then ['\\', '\\']
  else if c = '\n' then ['\\', 'n']
  else if c = '\r' then ['\\', 'r']
  else if c = '\t' then ['\\', 't']
  else if c = '\x08' then ['\\', 'b']
  else if c = '\x0c' then ['\\', 'f']
  else if c.toNat < 32 then '\\' :: 'u' :: Text.paddedHex 4 c.toNat
  else [c]

/-- The spelling of a string, without the quotes around it. -/
def spell (text : List Char) : List Char := text.flatMap spellChar

/-- The character that an escape of one letter stands for. -/
def escaped? : Char → Option Char
  | '"' => some '"'
  | '\\' => some '\\'
  | '/' => some '/'
  | 'b' => some '\x08'
  | 'f' => some '\x0c'
  | 'n' => some '\n'
  | 'r' => some '\r'
  | 't' => some '\t'
  | _ => none

/-- The UTF-16 unit that four hexadecimal digits name. -/
def unit? (a b c d : Char) : Option Nat := do
  let a ← Text.hexValue? a
  let b ← Text.hexValue? b
  let c ← Text.hexValue? c
  let d ← Text.hexValue? d
  pure (((a * 16 + b) * 16 + c) * 16 + d)

/-- The unit is the first half of a surrogate pair. -/
def isLeading (unit : Nat) : Bool := 0xD800 ≤ unit && unit < 0xDC00

/-- The unit is the second half of a surrogate pair. -/
def isTrailing (unit : Nat) : Bool := 0xDC00 ≤ unit && unit < 0xE000

/-- The text that a spelling stands for. There is none when a surrogate has no partner. -/
def meaning? : List Char → Option (List Char)
  | [] => some []
  | '\\' :: 'u' :: a :: b :: c :: d :: '\\' :: 'u' :: e :: f :: g :: h :: rest => do
    let first ← unit? a b c d
    if isLeading first then
      let second ← unit? e f g h
      if isTrailing second then
        let tail ← meaning? rest
        pure (Char.ofNat (0x10000 + (first - 0xD800) * 0x400 + (second - 0xDC00)) :: tail)
      else
        none
    else if isTrailing first then
      none
    else
      let tail ← meaning? ('\\' :: 'u' :: e :: f :: g :: h :: rest)
      pure (Char.ofNat first :: tail)
  | '\\' :: 'u' :: a :: b :: c :: d :: rest => do
    let first ← unit? a b c d
    if isLeading first || isTrailing first then
      none
    else
      let tail ← meaning? rest
      pure (Char.ofNat first :: tail)
  | '\\' :: c :: rest => do
    let first ← escaped? c
    let tail ← meaning? rest
    pure (first :: tail)
  | c :: rest => do
    let tail ← meaning? rest
    pure (c :: tail)

end CalendarDial.Json
