import CircuitNetwork.Generator.Run

/-!
# The command line

Reads the configuration file that the arguments name, generates the memory and
writes what the run produced. Messages go to standard error.
-/

namespace CircuitNetwork.CommandLine

/-- The configuration file that the arguments name, as far as it can be read. -/
def configFile (arguments : List String) : IO (Except FileProblem (Option String)) := do
  match Setting.read arguments with
  | .error _ => return .error .missing
  | .ok (settings, _) =>
      try
        return .ok (some (← IO.FS.readFile ((Setting.lastText? .configFile settings).getD "")))
      catch
        | .inappropriateType .. => return .ok none
        | _ => return .error .missing

/-- Print a message to standard error. -/
def report (message : Message) : IO Unit :=
  IO.eprintln (message.level.name ++ ": " ++ message.text)

/-- Write the text of a run to its output file, or print it. -/
def write (config : Config) (text : String) : IO Unit :=
  if config.output = "" then IO.print text else IO.FS.writeFile config.output text

end CircuitNetwork.CommandLine

open CircuitNetwork CommandLine in
/-- Generate a memory as the arguments say. -/
def main (arguments : List String) : IO UInt32 := do
  let fail (error : RunError) : IO UInt32 := do
    report ⟨.error, error.failure.text⟩
    return 1
  let file ← configFile arguments
  match Generator.configure Config.decodeYaml (fun _ => file) arguments with
  | .error error => fail error
  | .ok (config, level) =>
      match (Generator.produce config).run [] with
      | .error error messages =>
          (Message.kept level messages).forM report
          fail error
      | .ok text messages =>
          (Message.kept level messages).forM report
          try
            write config text
            return 0
          catch problem =>
            report ⟨.error, toString problem⟩
            return 1
