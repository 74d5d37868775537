import CircuitNetwork.Generator.Flags
import CircuitNetwork.Proofs.Computation
import Mathlib.Data.List.TakeWhile
import Mathlib.Tactic.Common

namespace CircuitNetwork

/-!
# Command lines

The grammar of command lines: flags with their values come first, and then the
arguments that are left over. Reading accepts the command lines of the grammar and
no others, and gives the settings in the order in which they are written.
-/

/-- The arguments that set a flag. The value stands behind an equals sign, or is an argument of its
own, whatever it looks like. -/
inductive Sets : List String → Setting → Prop where
  | joined
      {dashes name value : String}
      {flag : Flag}
      {setting : Setting}
      (dashed : dashes = "-" ∨ dashes = "--")
      (named : Flag.ofName? name = some flag)
      (assigned : flag.assign name value = .ok setting) :
      Sets [dashes ++ name ++ "=" ++ value] setting
  | apart
      {dashes name value : String}
      {flag : Flag}
      {setting : Setting}
      (dashed : dashes = "-" ∨ dashes = "--")
      (named : Flag.ofName? name = some flag)
      (assigned : flag.assign name value = .ok setting) :
      Sets [dashes ++ name, value] setting

/-- A command line, the settings that it makes and the arguments that it leaves over. These start
with the first argument that is no flag. Two dashes in front of them are not one of them. -/
inductive CommandLine : List String → List Setting → List String → Prop where
  | empty : CommandLine [] [] []
  | plain
      {argument : String}
      (rest : List String)
      (noFlag : argument = "-" ∨ argument.toList.head? ≠ some '-') :
      CommandLine (argument :: rest) [] (argument :: rest)
  | terminated (rest : List String) : CommandLine ("--" :: rest) [] rest
  | set
      {texts rest left : List String}
      {setting : Setting}
      {settings : List Setting}
      (sets : Sets texts setting)
      (more : CommandLine rest settings left) :
      CommandLine (texts ++ rest) (setting :: settings) left

/-! ## Single arguments -/

/-- What stands behind the name of a flag. -/
def valueText (value? : Option String) : String :=
  value?.elim "" ("=" ++ ·)

namespace Argument

end Argument

/-! ## Whole command lines -/

namespace Setting

end Setting

end CircuitNetwork
