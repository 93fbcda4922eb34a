import CalendarDial.Json.Lexer

/-!
# Writing JSON

The compact form has no blanks at all. The spread form puts every item and every member on a line of
its own, two blanks further in than the container, and a blank after the colon; an empty container
stays on one line.
-/

namespace CalendarDial.Json

/-- A string between its quotes. -/
def quoted (spelling : List Char) : List Char := '"' :: spelling ++ ['"']

/-- Parts with commas between them. -/
def separated (separator : List Char) : List (List Char) → List Char
  | [] => []
  | [part] => part
  | part :: parts => part ++ separator ++ separated separator parts

namespace Tree

mutual

/-- The compact form of a tree. -/
def compact : Tree → List Char
  | null => "null".toList
  | bool true => "true".toList
  | bool false => "false".toList
  | number spelling => spelling
  | string spelling => quoted spelling
  | array items => '[' :: separated [','] (compactItems items) ++ [']']
  | object members => '{' :: separated [','] (compactMembers members) ++ ['}']

/-- The compact forms of the items of an array. -/
def compactItems : List Tree → List (List Char)
  | [] => []
  | item :: items => item.compact :: compactItems items

/-- The compact forms of the members of an object. -/
def compactMembers : List (List Char × Tree) → List (List Char)
  | [] => []
  | (key, value) :: members => (quoted key ++ ':' :: value.compact) :: compactMembers members

end

/-- A new line with so many levels of indentation. -/
def newLine (level : Nat) : List Char := '\n' :: List.replicate (2 * level) ' '

mutual

/-- The spread form of a tree inside so many containers. -/
def spread (level : Nat) : Tree → List Char
  | array [] => ['[', ']']
  | object [] => ['{', '}']
  | array items =>
    '[' :: newLine (level + 1) ++
      separated (',' :: newLine (level + 1)) (spreadItems (level + 1) items) ++
      newLine level ++ [']']
  | object members =>
    '{' :: newLine (level + 1) ++
      separated (',' :: newLine (level + 1)) (spreadMembers (level + 1) members) ++
      newLine level ++ ['}']
  | null => "null".toList
  | bool true => "true".toList
  | bool false => "false".toList
  | number spelling => spelling
  | string spelling => quoted spelling

/-- The spread forms of the items of an array. -/
def spreadItems (level : Nat) : List Tree → List (List Char)
  | [] => []
  | item :: items => item.spread level :: spreadItems level items

/-- The spread forms of the members of an object. -/
def spreadMembers (level : Nat) : List (List Char × Tree) → List (List Char)
  | [] => []
  | (key, value) :: members =>
    (quoted key ++ ':' :: ' ' :: value.spread level) :: spreadMembers level members

end

end Tree

end CalendarDial.Json
