import CalendarDial.Json.Lexer

/-!
# From symbols to a tree

The symbols are taken one at a time. What is kept are the containers that are still open, the
innermost first, each with what has been completed in it, and the kind of symbol that may come next.
However deep a text is nested, reading it is one pass.
-/

namespace CalendarDial.Json

namespace Parser

/-- An open container: its completed parts, the last one first, and in an object the key whose value
is being read. -/
inductive Container where
  | array (items : List Tree)
  | object (members : List (List Char × Tree)) (key : List Char)

/-- What may come next. After an opening bracket the container may be closed at once; after a comma
it may not. -/
inductive Expectation where
  | value
  | firstItem
  | firstKey (members : List (List Char × Tree))
  | key (members : List (List Char × Tree))
  | colon
  | separator
  | nothing (result : Tree)

/-- The open containers, the innermost first, and what may come next. -/
structure State where
  containers : List Container
  expectation : Expectation

/-- The state before the first symbol. -/
def State.start : State := ⟨[], .value⟩

/-- The state after a value has been completed. -/
def complete (containers : List Container) (value : Tree) : State :=
  match containers with
  | [] => ⟨[], .nothing value⟩
  | .array items :: outer => ⟨.array (value :: items) :: outer, .separator⟩
  | .object members key :: outer => ⟨.object ((key, value) :: members) key :: outer, .separator⟩

/-- Takes a symbol that has to begin a value. -/
def beginValue (containers : List Container) : Token → Option State
  | .null => some (complete containers .null)
  | .bool value => some (complete containers (.bool value))
  | .number spelling => some (complete containers (.number spelling))
  | .string spelling => some (complete containers (.string spelling))
  | .openArray => some ⟨.array [] :: containers, .firstItem⟩
  | .openObject => some ⟨containers, .firstKey []⟩
  | _ => none

/-- Takes a symbol that has to be a key. -/
def beginMember (containers : List Container) (members : List (List Char × Tree)) :
    Token → Option State
  | .string key => some ⟨.object members key :: containers, .colon⟩
  | _ => none

/-- Takes a symbol after a completed part of the innermost container. -/
def separate (containers : List Container) (token : Token) : Option State :=
  match containers, token with
  | .array _ :: _, .comma => some ⟨containers, .value⟩
  | .array items :: outer, .closeArray => some (complete outer (.array items.reverse))
  | .object members _ :: outer, .comma => some ⟨outer, .key members⟩
  | .object members _ :: outer, .closeObject => some (complete outer (.object members.reverse))
  | _, _ => none

/-- Takes one more symbol. -/
def step (state : State) (token : Token) : Option State :=
  match state.expectation with
  | .value => beginValue state.containers token
  | .firstItem =>
    match state.containers, token with
    | .array _ :: outer, .closeArray => some (complete outer (.array []))
    | containers, token => beginValue containers token
  | .firstKey members =>
    match token with
    | .closeObject => some (complete state.containers (.object []))
    | token => beginMember state.containers members token
  | .key members => beginMember state.containers members token
  | .colon => if token = .colon then some ⟨state.containers, .value⟩ else none
  | .separator => separate state.containers token
  | .nothing _ => none

/-- The tree, if the symbols end with a complete value. -/
def finish (state : State) : Option Tree :=
  match state.expectation with
  | .nothing result => some result
  | _ => none

end Parser

/-- The tree of a list of symbols, if they are those of one value. -/
def Tree.ofTokens? (tokens : List Token) : Option Tree :=
  (tokens.foldlM Parser.step Parser.State.start).bind Parser.finish

/-- The tree of a JSON text. -/
def Tree.parse? (text : List Char) : Option Tree := (tokens? text).bind Tree.ofTokens?

end CalendarDial.Json
