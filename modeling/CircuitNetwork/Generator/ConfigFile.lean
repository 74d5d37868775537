import CircuitNetwork.Generator.Config
import CircuitNetwork.Yaml.Document
import CircuitNetwork.Yaml.Fields

namespace CircuitNetwork.Config

/-!
# Configuration files

The decoder of configuration files that the generator runs with. A file is refused
as a whole, with all that is wrong in it, and a value that is null or absent leaves
a part as it is. What is proved of configurations holds of any decoder.
-/

/-- Put the value of a node into a part of a configuration, with all that does not fit. -/
abbrev Update (σ : Type) := Yaml.Node → σ → Except Yaml.Malformed (σ × List Yaml.Refusal)

/-- Set a part to what a node gives. -/
def put {σ α : Type} (set : α → σ → σ) (state : σ) : Yaml.Taken α → σ × List Yaml.Refusal
  | .nothing => (state, [])
  | .value value => (set value state, [])
  | .refused refusals => (state, refusals)

/-- The integer that a number stands for: one of 64 bits itself, and a real number its whole part. -/
def integerOf (meaning : Yaml.Meaning) (_ : String) : Option Int64 :=
  match meaning with
  | .integer value => if value < 0x8000000000000000 then some (Int64.ofInt value) else none
  | .real whole => whole
  | _ => none

/-- Set an integer. -/
def updateInteger {σ : Type} (set : Int64 → σ → σ) : Update σ := fun node state =>
  (node.take "int" integerOf).map (put set state)

/-- Set a text. -/
def updateText {σ : Type} (set : String → σ → σ) : Update σ := fun node state =>
  node.takeText.map (put set state)

/-- Set one field of a record. -/
def updateField
    {σ : Type}
    (record : String)
    (field? : String → Option (Update σ))
    (field : Yaml.Field)
    (state : σ) :
    Except Yaml.Malformed (σ × List Yaml.Refusal) :=
  match field with
  | .refused refusals => .ok (state, refusals)
  | .value line name node again =>
      match field? name with
      | none => .ok (state, [.unknownField line name record])
      | some update =>
          if again then .ok (state, [.repeatedField line name record]) else update node state

/-- Set fields of a record, in order. -/
def updateFields
    {σ : Type}
    (record : String)
    (field? : String → Option (Update σ)) :
    List Yaml.Field → σ → Except Yaml.Malformed (σ × List Yaml.Refusal)
  | [], state => .ok (state, [])
  | field :: rest, state => do
      let (state, refusals) ← updateField record field? field state
      let (state, more) ← updateFields record field? rest state
      return (state, refusals ++ more)

/-- Set a record from a mapping. -/
def updateRecord {σ : Type} (record : String) (field? : String → Option (Update σ)) : Update σ :=
  fun node state =>
    match node.target with
    | .mapping .. => do updateFields record field? (← node.fields) state
    | _ => (node.take record fun _ _ => none).map (put (fun (_ : Unit) => id) state)

/-- The fields of a memory specification in a file. -/
def memoryField? : String → Option (Update MemorySpec)
  | "abits" => some (updateInteger fun value spec => { spec with addressBits := value })
  | "width" => some (updateInteger fun value spec => { spec with width := value })
  | "size" => some (updateInteger fun value spec => { spec with size := value })
  | "offset" => some (updateInteger fun value spec => { spec with offset := value })
  | "rd_ports" => some (updateInteger fun value spec => { spec with readPorts := value })
  | "wr_ports" => some (updateInteger fun value spec => { spec with writePorts := value })
  | _ => none

/-- Set the memory of a configuration. -/
def updateMemory : Update Config := fun node config => do
  let (memory, refusals) ← updateRecord "netlist.MemSpec" memoryField? node config.memory
  return ({ config with memory := memory }, refusals)

/-- The fields of a configuration in a file. -/
def field? : String → Option (Update Config)
  | "memory" => some updateMemory
  | "log_level" => some (updateText fun value config => { config with logLevel := value })
  | "columns" => some (updateInteger fun value config => { config with columns := value })
  | "output" => some (updateText fun value config => { config with output := value })
  | _ => none

/-- Set a configuration from a document. -/
def updateAll : Update Config := updateRecord "main.config" field?

/-- The wording of what does not fit in a document. -/
def refusalText (refusals : List Yaml.Refusal) : String :=
  "yaml: unmarshal errors:" ++ String.join (refusals.map fun refusal => "\n  " ++ refusal.text)

/-- Set a configuration from a document. -/
def decodeNode (node : Yaml.Node) (config : Config) : Config × Option DecodeError :=
  match updateAll node config with
  | .error report => (config, some (.problem ("yaml: " ++ report.text)))
  | .ok (config, []) => (config, none)
  | .ok (config, refusals) => (config, some (.problem (refusalText refusals)))

/-- Set a configuration from the document in a file. -/
def decodeYaml : Decoder := fun file config =>
  match file.text? with
  | none =>
      let reason := "read " ++ file.path ++ ": " ++ FileProblem.isDirectory.text
      (config, some (.problem ("yaml: input error: " ++ reason)))
  | some text =>
      match Yaml.parse text with
      | .error report => (config, some (.problem ("yaml: " ++ report.text)))
      | .ok none => (config, some .endOfText)
      | .ok (some node) => decodeNode node config

/-- The configuration that a command line gives, with its file decoded. -/
def ofArguments : FileReader → List String → Except ConfigError (Config × Option ConfigError) :=
  ofArgumentsWith decodeYaml

end CircuitNetwork.Config
