import CircuitNetwork.Generator.Directory
import CircuitNetwork.Generator.Flags
import CircuitNetwork.Netlist.Memory

namespace CircuitNetwork

/-!
# Configurations

A configuration starts from defaults. A file may set any part of it, as its
decoder says, and the flags of the command line come last. How files are decoded
is left open here.
-/

/-- What to generate, how to arrange it and where to write it. No output file stands for standard
output. -/
structure Config where
  memory : MemorySpec := { addressBits := 4, width := 8, size := 16, readPorts := 1 }
  logLevel : String := "warning"
  columns : Int64 := 16
  output : String := ""
  deriving Repr, DecidableEq, Inhabited

/-- What can be wrong with a command line and the file that it names. -/
inductive ConfigError where
  | flags (error : FlagError)
  | file (path : String) (problem : FileProblem)
  | decode (path report : String)
  | unexpected (arguments : List String)
  deriving Repr, DecidableEq, Inhabited

/-- The wording of an error in a configuration. -/
def ConfigError.text : ConfigError → String
  | flags error => error.text
  | file path problem => "open " ++ path ++ ": " ++ problem.text
  | decode path report => path ++ ": decode config: " ++ report
  | unexpected arguments => "unexpected arguments: [" ++ " ".intercalate arguments ++ "]"

/-- An open file. A directory can be opened as well, but has no text. -/
structure OpenFile where
  path : String
  text? : Option String
  deriving Repr, DecidableEq, Inhabited

/-- Why nothing is decoded: there is no document up to the end of the text, or there is a problem to
report. -/
inductive DecodeError where
  | endOfText
  | problem (report : String)
  deriving Repr, DecidableEq, Inhabited

/-- How a file is put into a configuration. A failure may leave some of its parts set. -/
abbrev Decoder := OpenFile → Config → Config × Option DecodeError

namespace Config

/-- Override a part of a configuration. The name of the file is no part of it. -/
def override (config : Config) : Setting → Config
  | .number .addressBits value => { config with memory.addressBits := value }
  | .number .width value => { config with memory.width := value }
  | .number .size value => { config with memory.size := value }
  | .number .offset value => { config with memory.offset := value }
  | .number .readPorts value => { config with memory.readPorts := value }
  | .number .columns value => { config with columns := value }
  | .text .configFile _ => config
  | .text .logLevel value => { config with logLevel := value }
  | .text .output value => { config with output := value }

/-- How the files of a command line are read: a path leads to the text of a file, or to a directory,
which has none. -/
abbrev FileReader := String → Except FileProblem (Option String)

/-- Set a configuration from an open file. A file without a document changes nothing. -/
def load (decode : Decoder) (file : OpenFile) (config : Config) : Except ConfigError Config :=
  match decode file config with
  | (_, some (.problem report)) => .error (.decode file.path report)
  | (config, _) => .ok config

/-- The defaults, with the settings of a file if one is named. -/
def ofFile (decode : Decoder) (read : FileReader) (path : String) : Except ConfigError Config :=
  if path = "" then
    .ok {}
  else
    match read path with
    | .error problem => .error (.file path problem)
    | .ok text? => load decode ⟨path, text?⟩ {}

/-- The configuration that a command line gives. Arguments that are left over are an error, but the
configuration is complete. -/
def ofArgumentsWith
    (decode : Decoder)
    (read : FileReader)
    (arguments : List String) :
    Except ConfigError (Config × Option ConfigError) :=
  match Setting.read arguments with
  | .error error => .error (.flags error)
  | .ok (settings, rest) => do
      let config ← ofFile decode read ((Setting.lastText? .configFile settings).getD "")
      let leftOver := if rest.isEmpty then none else some (.unexpected rest)
      return (settings.foldl override config, leftOver)

end Config

end CircuitNetwork
