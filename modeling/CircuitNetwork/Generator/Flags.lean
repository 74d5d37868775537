import CircuitNetwork.Text.Numeral
import CircuitNetwork.Text.Quoted

namespace CircuitNetwork

/-!
# Command line flags

A flag is a name behind one dash or two, and its value stands behind an equals
sign or is the next argument. Reading ends at the first argument that is no flag,
and behind two dashes that stand alone; what is left over are plain arguments.
-/

/-- The flags with an integer. -/
inductive NumberFlag where
  | addressBits
  | width
  | size
  | offset
  | readPorts
  | columns
  deriving Repr, DecidableEq, Inhabited

/-- The flags with a text. -/
inductive TextFlag where
  | configFile
  | logLevel
  | output
  deriving Repr, DecidableEq, Inhabited

/-- A flag with its value. -/
inductive Setting where
  | number (flag : NumberFlag) (value : Int64)
  | text (flag : TextFlag) (value : String)
  deriving Repr, DecidableEq, Inhabited

/-- The flags that there are. -/
inductive Flag where
  | number (flag : NumberFlag)
  | text (flag : TextFlag)
  deriving Repr, DecidableEq, Inhabited

/-- What is wrong with the flags of a command line. -/
inductive FlagError where
  | malformed (argument : String)
  | undefined (name : String)
  | helpRequested
  | missingValue (name : String)
  | invalidValue (value name : String) (error : Text.NumeralError)
  deriving Repr, DecidableEq, Inhabited

/-- The wording of a flag error. -/
def FlagError.text : FlagError → String
  | malformed argument => "bad flag syntax: " ++ argument
  | undefined name => "flag provided but not defined: -" ++ name
  | helpRequested => "flag: help requested"
  | missingValue name => "flag needs an argument: -" ++ name
  | invalidValue value name error =>
      "invalid value " ++ Text.quote value ++ " for flag -" ++ name ++ ": " ++
        match error with
        | .malformed => "parse error"
        | .outOfRange => "value out of range"

namespace Flag

/-- The flag with a name. -/
def ofName? : String → Option Flag
  | "abits" => some (.number .addressBits)
  | "width" => some (.number .width)
  | "size" => some (.number .size)
  | "offset" => some (.number .offset)
  | "rd" => some (.number .readPorts)
  | "columns" => some (.number .columns)
  | "config" => some (.text .configFile)
  | "v" => some (.text .logLevel)
  | "o" => some (.text .output)
  | _ => none

/-- The flag with a name that must be known. Two names ask for help. -/
def ofName (name : String) : Except FlagError Flag :=
  match ofName? name with
  | some flag => .ok flag
  | none =>
      if name = "h" || name = "help" then .error .helpRequested else .error (.undefined name)

/-- Give a flag its value. -/
def assign (flag : Flag) (name value : String) : Except FlagError Setting :=
  match flag with
  | .text flag => .ok (.text flag value)
  | .number flag =>
      match Text.parseInteger value with
      | .ok parsed => .ok (.number flag parsed)
      | .error error => .error (.invalidValue value name error)

end Flag

/-- What an argument is on its own. -/
inductive Argument where
  | plain
  | terminator
  | malformed
  | flag (name : String) (value : Option String)
  deriving Repr, DecidableEq, Inhabited

namespace Argument

/-- Split what follows the dashes at its first equals sign. -/
def ofBody (body : List Char) : Argument :=
  match body with
  | [] => malformed
  | first :: _ =>
      if first = '-' || first = '=' then
        malformed
      else
        let name := String.ofList (body.takeWhile (· ≠ '='))
        match body.dropWhile (· ≠ '=') with
        | [] => flag name none
        | _ :: value => flag name (some (String.ofList value))

/-- Look at an argument. A dash alone is a plain argument. -/
def ofText (text : String) : Argument :=
  match text.toList with
  | ['-', '-'] => terminator
  | '-' :: '-' :: body => ofBody body
  | ['-'] => plain
  | '-' :: body => ofBody body
  | _ => plain

end Argument

namespace Setting

/-- Read the flags at the start of a command line, in order, and the arguments after them. -/
def read : List String → Except FlagError (List Setting × List String)
  | [] => .ok ([], [])
  | argument :: rest =>
      match Argument.ofText argument with
      | .plain => .ok ([], argument :: rest)
      | .terminator => .ok ([], rest)
      | .malformed => .error (.malformed argument)
      | .flag name value? => do
          let flag ← Flag.ofName name
          match value?, rest with
          | some value, rest =>
              let setting ← flag.assign name value
              let (settings, arguments) ← read rest
              return (setting :: settings, arguments)
          | none, [] => .error (.missingValue name)
          | none, value :: rest =>
              let setting ← flag.assign name value
              let (settings, arguments) ← read rest
              return (setting :: settings, arguments)

/-- The value of the last setting of a text flag. -/
def lastText? (flag : TextFlag) (settings : List Setting) : Option String :=
  settings.reverse.findSome? fun
    | .text found value => if found = flag then some value else none
    | .number .. => none

end Setting

end CircuitNetwork
