import TapeSalvage.Command.Failure

/-!
The arguments of a command: options with and without a value, and operands. A value follows its
option as the next argument or after an equals sign; after a letter it may follow at once. Two
hyphens end the options. Of several values the last one counts, and the first argument that is
wrong decides how reading fails.
-/
namespace TapeSalvage.Command

/-- An option that a command knows. Only options with a value have a letter. -/
structure OptionForm where
  name : String
  takesValue : Bool
  letter : Option Char

inductive Shape where
  | terminator
  | long (name : String) (value : Option String)
  | short (letter : Char) (attached : List Char)
  | operand

/-- The shape of an argument. An equals sign cannot be the first character of a name. -/
def Shape.of (argument : String) : Shape :=
  match argument.toList with
  | ['-', '-'] => .terminator
  | '-' :: '-' :: first :: rest =>
    if rest.contains '=' then
      let name := (first :: rest).takeWhile (· != '=')
      let value := ((first :: rest).dropWhile (· != '=')).drop 1
      .long (String.ofList name) (some (String.ofList value))
    else .long (String.ofList (first :: rest)) none
  | '-' :: letter :: attached => .short letter attached
  | _ => .operand

/-- Arguments as they were read. Values and operands stand last first while reading goes on. -/
structure Arguments where
  values : List (String × String)
  flags : List String
  operands : List String

namespace Arguments

def empty : Arguments := ⟨[], [], []⟩

def value? (arguments : Arguments) (name : String) : Option String := arguments.values.lookup name

def operand? (arguments : Arguments) : Option String := arguments.operands.head?

def isSet (arguments : Arguments) (flag : String) : Bool := arguments.flags.contains flag

def looksLikeOption (argument : String) : Bool :=
  match argument.toList with
  | '-' :: _ :: _ => true
  | _ => false

inductive Next where
  | further (arguments : Arguments)
  /-- The option of this name needs the next argument as its value. -/
  | value (name : String)
  /-- All that follows are operands. -/
  | operands
  | failure (cause : Failure)

def takeOption (arguments : Arguments) (form? : Option OptionForm) (attached : Option String) :
    Next :=
  match form?, attached with
  | none, _ => .failure .optionUnknown
  | some form, some value =>
    if form.takesValue then
      .further { arguments with values := (form.name, value) :: arguments.values }
    else .failure .optionValue
  | some form, none =>
    if form.takesValue then .value form.name
    else .further { arguments with flags := form.name :: arguments.flags }

def take (forms : List OptionForm) (arguments : Arguments) (argument : String) : Next :=
  match Shape.of argument with
  | .terminator => .operands
  | .long name value => arguments.takeOption (forms.find? (·.name == name)) value
  | .short letter attached =>
    let value := if attached.isEmpty then none else some (String.ofList attached)
    arguments.takeOption (forms.find? (·.letter == some letter)) value
  | .operand => .further { arguments with operands := argument :: arguments.operands }

def readFrom (forms : List OptionForm) (arguments : Arguments) :
    List String → Except Failure Arguments
  | [] => .ok { arguments with operands := arguments.operands.reverse }
  | argument :: rest =>
    match arguments.take forms argument with
    | .failure cause => .error cause
    | .operands => .ok { arguments with operands := arguments.operands.reverse ++ rest }
    | .further arguments => readFrom forms arguments rest
    | .value name =>
      match rest with
      | [] => .error .optionValue
      | value :: rest =>
        if looksLikeOption value then .error .optionValue
        else readFrom forms { arguments with values := (name, value) :: arguments.values } rest

def read (forms : List OptionForm) (words : List String) : Except Failure Arguments :=
  readFrom forms .empty words

def choose {β : Type} (option : String) (choices : List (String × β)) (fallback : β) :
    Option String → Except Failure β
  | none => .ok fallback
  | some value =>
    match choices.lookup value with
    | some choice => .ok choice
    | none => .error (.choiceInvalid option value (choices.map (·.1)))

def decimal (digits : List Char) : Nat :=
  digits.foldl (fun value digit => 10 * value + (digit.toNat - '0'.toNat)) 0

/-- A number written in decimal digits only, or the fallback if none was asked for. -/
def count (option : String) (fallback : Int) : Option String → Except Failure Int
  | none => .ok fallback
  | some value =>
    let digits := value.toList
    if digits.isEmpty || !digits.all Char.isDigit then .error (.numberInvalid option value)
    else .ok (decimal digits)

end Arguments

end TapeSalvage.Command
