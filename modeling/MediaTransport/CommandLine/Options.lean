/-!
# Options

The arguments of a command are options and positional arguments in any order.
An option is written `--name value` or `--name=value`, a switch `--name`.  What
follows `--` is positional.  A separate value must not look like an option.

Only the form is read here: which options there are, which take a value, and
which may be repeated.  A request for help ends the reading.
-/

namespace MediaTransport.CommandLine

/-- The arguments that a command takes. -/
structure Grammar where
  /-- The options with a value. -/
  valued : List String
  /-- Those of them that may be repeated. -/
  repeatable : List String := []
  /-- The options without a value. -/
  switches : List String := []
  /-- The number of positional arguments. -/
  positionals : Nat := 0

/-- The arguments that were given. -/
structure Arguments where
  /-- The options with their values, in order. -/
  values : List (String × String) := []
  /-- The switches. -/
  switches : List String := []
  /-- The positional arguments, in order. -/
  positionals : List String := []

/-- What a list of arguments is. -/
inductive Reading where
  /-- A request for help. -/
  | help
  /-- An error of the caller. -/
  | invalid
  /-- Arguments of the right form. -/
  | given (a : Arguments)

/-- Whether an argument has the form of an option. -/
def looksLikeOption (argument : String) : Bool :=
  match argument.toList with
  | '-' :: _ :: _ => true
  | _ => false

/-- The name after two dashes and the value after an equals sign, if there is
one. -/
def splitOption (text : List Char) : String × Option String :=
  let name := String.ofList (text.takeWhile (· != '='))
  match text.dropWhile (· != '=') with
  | [] => (name, none)
  | _ :: value => (name, some (String.ofList value))

/-- The arguments with the value of an option, unless it may not be given
again. -/
def Grammar.addValue? (g : Grammar) (a : Arguments) (name value : String) : Option Arguments :=
  if g.valued.contains name
      && (g.repeatable.contains name || !(a.values.any (·.1 == name))) then
    some { a with values := a.values ++ [(name, value)] }
  else none

/-- The arguments with a switch, unless it may not be given again. -/
def Grammar.addSwitch? (g : Grammar) (a : Arguments) (name : String) : Option Arguments :=
  if g.switches.contains name && !a.switches.contains name then
    some { a with switches := a.switches ++ [name] }
  else none

/-- The arguments with a positional one, unless there are enough. -/
def Grammar.addPositional? (g : Grammar) (a : Arguments) (value : String) : Option Arguments :=
  if a.positionals.length < g.positionals then
    some { a with positionals := a.positionals ++ [value] }
  else none

/-- Reads arguments that are all positional. -/
def Grammar.readPositionals (g : Grammar) (a : Arguments) : List String → Reading
  | [] => .given a
  | argument :: rest =>
    match g.addPositional? a argument with
    | some a => g.readPositionals a rest
    | none => .invalid

/-- Reads the arguments that follow some others. -/
def Grammar.readFrom (g : Grammar) (a : Arguments) : List String → Reading
  | [] => .given a
  | argument :: rest =>
    if argument = "--" then g.readPositionals a rest
    else if argument = "--help" ∨ argument = "-h" then .help
    else if !looksLikeOption argument then
      match g.addPositional? a argument with
      | some a => g.readFrom a rest
      | none => .invalid
    else
      match argument.toList with
      | '-' :: '-' :: text =>
        match splitOption text with
        | (name, some value) =>
          match g.addValue? a name value with
          | some a => g.readFrom a rest
          | none => .invalid
        | (name, none) =>
          if g.switches.contains name then
            match g.addSwitch? a name with
            | some a => g.readFrom a rest
            | none => .invalid
          else
            match rest with
            | [] => .invalid
            | value :: rest =>
              if looksLikeOption value then .invalid
              else
                match g.addValue? a name value with
                | some a => g.readFrom a rest
                | none => .invalid
      | _ => .invalid

/-- Reads the arguments of a command. -/
def Grammar.read (g : Grammar) (arguments : List String) : Reading :=
  g.readFrom {} arguments

/-- The values of an option, in order. -/
def Arguments.all (a : Arguments) (name : String) : List String :=
  (a.values.filter (·.1 == name)).map (·.2)

/-- The value of an option. -/
def Arguments.value? (a : Arguments) (name : String) : Option String :=
  (a.all name).head?

/-- The value of an option as it is read, or a default when it is not given. -/
def Arguments.valueOr? {α : Type} (a : Arguments) (name : String) (read : String → Option α)
    (default : α) : Option α :=
  match a.value? name with
  | none => some default
  | some value => read value

end MediaTransport.CommandLine
