import CalendarDial.Outcome

/-!
# Options on the command line

Arguments are read from the left. An option has a long name after two hyphens, and some have a
letter too; letters can share one hyphen. A value follows as the next argument, or in the same one,
after a long name with an equals sign in between. A value that is an argument of its own cannot
begin with a hyphen, unless that is all of it. Two hyphens alone end the options, and there is
nothing else that could come after them.

Each option may be given once. That, and whether a value makes sense, is looked at when the value is
known to be complete: at once when it was in the same argument, and otherwise when the next option
or the end of the arguments is reached. Asking for help or for the version ends the reading, so it
matters what comes first.
-/

namespace CalendarDial.Command

/-- The options. -/
inductive OptionName where
  | help
  | version
  | verbose
  | config
  | input
  | time
  | engine
  | json
deriving DecidableEq

namespace OptionName

/-- The long name of an option. -/
def long : OptionName → String
  | help => "help"
  | version => "version"
  | verbose => "verbose"
  | config => "config"
  | input => "input"
  | time => "at"
  | engine => "engine"
  | json => "json"

/-- The letter of an option. -/
def letter? : OptionName → Option Char
  | help => some 'h'
  | version => some 'V'
  | verbose => some 'v'
  | config => some 'c'
  | input => some 'i'
  | _ => none

/-- The option has a value. -/
def hasValue : OptionName → Bool
  | config | input | time | engine => true
  | _ => false

end OptionName

/-- The engine with the given name. -/
def engineNamed? (name : String) : Option Engine :=
  [Engine.constraint, Engine.greedy].find? (·.name = name)

/-- The value makes sense for the option: a path is not empty, and an engine is known. -/
def OptionName.accepts (value : String) : OptionName → Bool
  | config | input => value ≠ ""
  | engine => (engineNamed? value).isSome
  | _ => true

/-- Why the reading of arguments ends early. -/
inductive Stop where
  | help
  | version
  | misuse
deriving DecidableEq

/-- What one argument is by its form. -/
inductive Argument where
  | plain
  | endOfOptions
  | long (name : List Char) (attached : Option (List Char))
  | letters (letters : List Char)
deriving DecidableEq

namespace Argument

/-- A long name, with a value after the first equals sign. -/
def ofLong (cs : List Char) : Argument :=
  let name := cs.takeWhile (· ≠ '=')
  .long name (if name.length < cs.length then some (cs.drop (name.length + 1)) else none)

/-- The form of an argument. A hyphen alone is nothing special. -/
def ofText (text : String) : Argument :=
  match text.toList with
  | ['-', '-'] => .endOfOptions
  | '-' :: '-' :: cs => ofLong cs
  | ['-'] => .plain
  | '-' :: cs => .letters cs
  | _ => .plain

end Argument

/-- What has been read: the options with their values, and the option whose value is not known to be
complete, with the value if it has been seen. -/
structure Reading where
  given : List (OptionName × String)
  pending : Option (OptionName × Option String)

namespace Reading

/-- The reading before the first argument. -/
def start : Reading := ⟨[], none⟩

/-- The value that an option was given. -/
def value? (name : OptionName) (reading : Reading) : Option String :=
  (reading.given.find? fun (given, _) => given = name).map (·.2)

/-- The option was given. -/
def has (name : OptionName) (reading : Reading) : Bool := (reading.value? name).isSome

/-- Takes an option with its complete value. -/
def accept (reading : Reading) (name : OptionName) (value : String) : Except Stop Reading :=
  if name = .help then .error .help
  else if name = .version then .error .version
  else if reading.has name || !name.accepts value then .error .misuse
  else .ok { reading with given := (name, value) :: reading.given }

/-- Takes the pending option, if there is one. -/
def settle (reading : Reading) : Except Stop Reading :=
  match reading.pending with
  | none => .ok reading
  | some (_, none) => .error .misuse
  | some (name, some value) => { reading with pending := none }.accept name value

/-- Takes an option, with a value if one is in the same argument. -/
def option (reading : Reading) (name : OptionName) (attached : Option (List Char)) :
    Except Stop Reading := do
  let reading ← reading.settle
  match name.hasValue, attached with
  | true, some value => reading.accept name (String.ofList value)
  | true, none => pure { reading with pending := some (name, none) }
  | false, some _ => .error .misuse
  | false, none => reading.accept name ""

/-- Takes the letters of one argument. What follows the letter of an option with a value is that
value, after an equals sign if there is one. -/
def letters (options : List OptionName) (reading : Reading) : List Char → Except Stop Reading
  | [] => .ok reading
  | c :: cs =>
    match options.find? (·.letter? = some c) with
    | none => .error .misuse
    | some name =>
      if name.hasValue then
        match cs with
        | [] => reading.option name none
        | '=' :: value => reading.option name (some value)
        | value => reading.option name (some value)
      else do
        letters options (← reading.option name none) cs

/-- Reads arguments up to the first one that belongs to no option, and gives the rest. -/
def arguments (options : List OptionName) (reading : Reading) :
    List String → Except Stop (Reading × List String)
  | [] => .ok (reading, [])
  | text :: texts =>
    match Argument.ofText text with
    | .endOfOptions => if texts.isEmpty then .ok (reading, []) else .error .misuse
    | .long name attached =>
      match options.find? (·.long.toList = name) with
      | none => .error .misuse
      | some name => do arguments options (← reading.option name attached) texts
    | .letters cs => do arguments options (← reading.letters options cs) texts
    | .plain =>
      match reading.pending with
      | some (name, none) =>
        arguments options { reading with pending := some (name, some text) } texts
      | _ => .ok (reading, text :: texts)

end Reading

end CalendarDial.Command
