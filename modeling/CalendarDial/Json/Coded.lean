import CalendarDial.Instant
import CalendarDial.Json.Parser
import CalendarDial.Json.Printer
import CalendarDial.Json.Quoted

/-!
# Values as JSON

A type is coded when its values can be written as trees and read back from them. Reading is strict:
integers have to be spelled as integers and lie in their range, a record may name each of its fields
once only, and a missing field is an error unless it has a default. A record can also be given as an
array of its fields in order. Names that a record does not know are passed over, whatever their
values are.

Two kinds of record look at everything they contain before they pick their fields, and so refuse
members that mean nothing or are nested too deeply even under unknown names. For their sake reading
is told how many containers are around the tree.
-/

namespace CalendarDial.Json

/-- How many containers may lie inside each other in a text that is looked at as a whole. -/
def deepestNesting : Nat := 127

/-- Values that are written as trees and read from trees with the given number of containers around
them. -/
class Coded (α : Type) where
  toTree : α → Tree
  ofTree? : Nat → Tree → Option α

namespace Tree

/-- The tree of an integer. -/
def ofInt (n : Int) : Tree := number (Text.signed n)

/-- The tree of a natural number. -/
def ofNat (n : Nat) : Tree := number (Text.digits n)

/-- The tree of a text. -/
def ofText (text : String) : Tree := string (spell text.toList)

/-- The tree of an object with the given members. -/
def ofMembers (members : List (String × Tree)) : Tree :=
  object (members.map fun (name, value) => (spell name.toList, value))

/-- The integer in the given range that a tree denotes. -/
def int? (least greatest : Int) : Tree → Option Int
  | number spelling => do
    let parts ← NumberParts.read spelling
    let n ← parts.int?
    if least ≤ n ∧ n ≤ greatest then some n else none
  | _ => none

/-- The instant that a tree denotes. -/
def instant? (tree : Tree) : Option Int := tree.int? Instant.least Instant.greatest

/-- The natural number up to the given bound that a tree denotes. -/
def nat? (greatest : Nat) (tree : Tree) : Option Nat :=
  (tree.int? 0 greatest).map Int.toNat

/-- The truth value that a tree denotes. -/
def bool? : Tree → Option Bool
  | bool value => some value
  | _ => none

/-- The text that a tree denotes. -/
def text? : Tree → Option (List Char)
  | string spelling => meaning? spelling
  | _ => none

/-- The choice among named alternatives that a tree denotes: the name as a text, or an object with
the name as its only key and null as the value. -/
def choice? {α : Type} (alternatives : List (String × α)) (tree : Tree) : Option α := do
  let name ← match tree with
    | string spelling => meaning? spelling
    | object [(key, null)] => meaning? key
    | _ => none
  (alternatives.find? fun (alternative, _) => alternative.toList = name).map (·.2)

/-- The values of the named fields of a record, in the order of the names, where they are present.
In an object every key has to mean something, and none of the names may be there twice. An array
gives the first fields in order and may not be longer than the list of names. -/
def fields? (names : List String) : Tree → Option (List (Option Tree))
  | object members => do
    let named ← members.mapM fun (key, value) => (meaning? key).map fun name => (name, value)
    names.mapM fun name =>
      match named.filter fun (key, _) => key = name.toList with
      | [] => some none
      | [(_, value)] => some (some value)
      | _ => none
  | array items =>
    if items.length ≤ names.length then some (names.mapIdx fun i _ => items[i]?) else none
  | _ => none

mutual

/-- How many containers lie inside each other in a tree, the outermost included. -/
def nesting : Tree → Nat
  | array items => 1 + nestingOfItems items
  | object members => 1 + nestingOfMembers members
  | _ => 0

/-- The greatest nesting among the items of an array. -/
def nestingOfItems : List Tree → Nat
  | [] => 0
  | item :: items => max item.nesting (nestingOfItems items)

/-- The greatest nesting among the values of an object. -/
def nestingOfMembers : List (List Char × Tree) → Nat
  | [] => 0
  | (_, value) :: members => max value.nesting (nestingOfMembers members)

end

mutual

/-- Every string and every key in the tree means something, and every number is finite when it is
taken by its leading digits. -/
def meaningful : Tree → Bool
  | number spelling => ((NumberParts.read spelling).map NumberParts.leadingFinite).getD false
  | string spelling => (meaning? spelling).isSome
  | array items => meaningfulItems items
  | object members => meaningfulMembers members
  | _ => true

/-- Every item of an array is meaningful. -/
def meaningfulItems : List Tree → Bool
  | [] => true
  | item :: items => item.meaningful && meaningfulItems items

/-- Every key and every value of an object is meaningful. -/
def meaningfulMembers : List (List Char × Tree) → Bool
  | [] => true
  | (key, value) :: members =>
    (meaning? key).isSome && value.meaningful && meaningfulMembers members

end

/-- A tree inside so many containers can be looked at as a whole. -/
def readable (around : Nat) (tree : Tree) : Bool :=
  tree.meaningful && decide (around + tree.nesting ≤ deepestNesting)

end Tree

instance {α : Type} [Coded α] : Coded (List α) where
  toTree values := .array (values.map Coded.toTree)
  ofTree? around
    | .array items => items.mapM (Coded.ofTree? (around + 1))
    | _ => none

/-- A value as compact JSON text. -/
def encode {α : Type} [Coded α] (value : α) : String :=
  String.ofList (Coded.toTree value).compact

/-- The value that a JSON text denotes. -/
def decode? (α : Type) [Coded α] (text : String) : Option α :=
  (Tree.parse? text.toList).bind (Coded.ofTree? 0)

end CalendarDial.Json
