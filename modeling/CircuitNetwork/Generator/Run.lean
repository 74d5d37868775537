import CircuitNetwork.Generator.Blueprint
import CircuitNetwork.Generator.ConfigFile
import CircuitNetwork.Generator.Log

namespace CircuitNetwork

/-!
# Generating memories

A run takes a command line, generates the blueprint of a memory and writes its
records to a file or to standard output. The messages logged before a failure
are kept, and nothing is written unless all records are complete. The decoder of
configuration files and the filter of the logger are parameters of a run.
-/

/-- Why a run fails. -/
inductive RunError where
  | config (error : ConfigError)
  | unknownLevel (name : String)
  | synthesis (failure : Failure)
  | output (path : String) (problem : FileProblem)
  deriving Repr, DecidableEq, Inhabited

/-- The failure that stands for the error of a run. -/
def RunError.failure : RunError → Failure
  | config error => .ofReason (.remark error.text)
  | unknownLevel name => .ofReason (.remark ("unknown log level " ++ Text.quote name))
  | synthesis failure => failure
  | output path problem => .ofReason (.remark ("open " ++ path ++ ": " ++ problem.text))

/-- The text of a memory specification in a message. -/
def MemorySpec.text (spec : MemorySpec) : String :=
  let fields := [
    ("ABits", spec.addressBits),
    ("Width", spec.width),
    ("Size", spec.size),
    ("Offset", spec.offset),
    ("RdPorts", spec.readPorts),
    ("WrPorts", spec.writePorts)]
  let shown := fields.map fun (name, value) => name ++ ":" ++ toString value.toInt
  "\x7b" ++ " ".intercalate shown ++ "\x7d"

/-- An operation that logs messages, which stay if it fails. -/
abbrev Logged := EStateM RunError (List Message)

namespace Generator

/-- Log a message. -/
def log (level : Level) (text : String) : Logged Unit :=
  modify (· ++ [⟨level, text⟩])

/-- The outcome of a step of the synthesis. -/
def ofSynthesis {α : Type} : Except Failure α → Logged α
  | .ok value => pure value
  | .error failure => throw (.synthesis failure)

/-- The text of the records of a configured memory. -/
def produce (config : Config) : Logged String := do
  log .debug ("memory: " ++ config.memory.text)
  let blueprint ← ofSynthesis (Blueprint.ofSpec config.memory config.columns.toInt)
  log .info ("synthesized " ++ toString blueprint.arena.members.length ++ " entities")
  let groups ← ofSynthesis blueprint.groups
  groups.entries.forM fun (signal, collection) =>
    log .debug ("signal " ++ signal.text ++ ": " ++ toString collection.groups.length ++ " groups")
  let records ← ofSynthesis blueprint.records
  return Blueprint.render records

/-- What a run did: its error, the messages at enabled levels, what it printed, and the files. -/
structure Outcome where
  error : Option RunError := none
  messages : List Message := []
  printed : String := ""
  directory : Directory := {}
  deriving Inhabited

/-- The configuration of a run. Arguments that are left over end it. -/
def configure
    (decode : Decoder)
    (read : Config.FileReader)
    (arguments : List String) :
    Except RunError (Config × Level) :=
  match Config.ofArgumentsWith decode read arguments with
  | .error error => .error (.config error)
  | .ok (_, some error) => .error (.config error)
  | .ok (config, none) =>
      match Level.ofName? config.logLevel with
      | some level => .ok (config, level)
      | none => .error (.unknownLevel config.logLevel)

/-- Write a text where a configuration says. -/
def deliver
    (directory : Directory)
    (config : Config)
    (messages : List Message)
    (text : String) :
    Outcome :=
  if config.output = "" then
    { messages := messages, printed := text, directory := directory }
  else
    match directory.create config.output text with
    | .ok directory => { messages := messages, directory := directory }
    | .error problem =>
        { error := some (.output config.output problem)
          messages := messages
          directory := directory }

/-- Generate a memory as the arguments say, with the files as they are decoded and the messages that
the logger keeps at a level. -/
def runWith
    (decode : Decoder)
    (keep : Level → List Message → List Message)
    (directory : Directory)
    (arguments : List String) :
    Outcome :=
  match configure decode directory.lookup arguments with
  | .error error => { error := some error, directory := directory }
  | .ok (config, level) =>
      match (produce config).run [] with
      | .error error messages =>
          { error := some error, messages := keep level messages, directory := directory }
      | .ok text messages => deliver directory config (keep level messages) text

/-- Generate a memory as the arguments say. -/
def run : Directory → List String → Outcome :=
  runWith Config.decodeYaml Message.kept

end Generator

end CircuitNetwork
