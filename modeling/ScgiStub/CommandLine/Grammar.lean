/-! # Arguments of a command

A command takes options with long names, each with one value, and positional
values. The value of an option is attached with `=` or is the next argument, and
an option is done with when the next one starts.
-/

namespace ScgiStub.CommandLine

/-- Why a command line runs no command. The first two are asked for. -/
inductive Stop where
  | help (topic : Option String)
  | version
  | unknownArgument
  | unknownCommand
  /-- An option without its value, or a path without a character. -/
  | missingValue
  | malformedValue
  | valueForFlag
  | repeatedOption
  | missingArgument
  deriving DecidableEq, Repr

/-- How an argument looks. -/
inductive Word where
  | separator
  | long (name : String) (value? : Option String)
  /-- A row of flags with this one in front. -/
  | short (flag : Char)
  | plain
  deriving DecidableEq, Repr

def Word.ofArgument (argument : String) : Word :=
  match argument.toList with
  | ['-', '-'] => .separator
  | '-' :: '-' :: cs =>
    let value? := match cs.dropWhile (· ≠ '=') with
      | [] => none
      | _ :: value => some (String.ofList value)
    .long (String.ofList (cs.takeWhile (· ≠ '='))) value?
  | '-' :: c :: _ => .short c
  | _ => .plain

structure Grammar (ι α : Type) where
  name : String
  option? : String → Option ι
  positionals : List ι
  assign : ι → String → α → Except Stop α

/-- A parameter that has not been assigned yet. -/
inductive Pending (ι : Type) where
  | none
  | awaiting (parameter : ι)
  | given (parameter : ι) (value : String)
  deriving DecidableEq, Repr

namespace Grammar

variable {ι α : Type} (g : Grammar ι α)

def settle (made : α) : Pending ι → Except Stop α
  | .none => .ok made
  | .awaiting _ => .error .missingValue
  | .given parameter value => g.assign parameter value made

def readPositionals (made : α) (pending : Pending ι) (free : List ι) :
    List String → Except Stop α
  | [] => g.settle made pending
  | argument :: arguments =>
    match free with
    | [] => .error .unknownArgument
    | parameter :: free => do
      let made ← g.settle made pending
      readPositionals made (.given parameter argument) free arguments

def read (made : α) (pending : Pending ι) (free : List ι) : List String → Except Stop α
  | [] => g.settle made pending
  | argument :: arguments =>
    match Word.ofArgument argument with
    | .separator => g.readPositionals made pending free arguments
    | .short 'h' | .long "help" none => do
      let _ ← g.settle made pending
      .error (.help g.name)
    | .short _ => .error .unknownArgument
    | .long "help" (some _) => .error .valueForFlag
    | .long name value? =>
      match g.option? name, value? with
      | none, _ => .error .unknownArgument
      | some option, none => do
        read (← g.settle made pending) (.awaiting option) free arguments
      | some option, some value => do
        let made ← g.assign option value (← g.settle made pending)
        read made .none free arguments
    | .plain =>
      match pending, free with
      | .awaiting option, free => read made (.given option argument) free arguments
      | _, [] => .error .unknownArgument
      | pending, parameter :: free => do
        read (← g.settle made pending) (.given parameter argument) free arguments

end Grammar

end ScgiStub.CommandLine
