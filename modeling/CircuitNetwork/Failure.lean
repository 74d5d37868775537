import CircuitNetwork.Netlist.Bit
import CircuitNetwork.Text.Quoted
import CircuitNetwork.Wire.Color

namespace CircuitNetwork

/-!
# Failures

What can go wrong, as values. A fault is classified and names its subject. A
reason is any other failure that an operation reports. A misuse breaks the rules
of an operation, and a crash is a reference to something that does not exist;
these two end the operation at once and are never taken for its answer.

Each cause has its wording in one place, and the labels of the operations that
a failure passed through stand in front of it, the outermost first.
-/

/-- The classes of faults. -/
inductive ErrorKind where
  | unsupported
  | unconnected
  | invariantViolation
  | other (code : Int)
  deriving Repr, DecidableEq, Inhabited

namespace ErrorKind

/-- The class with a given number. -/
def ofCode (code : Int) : ErrorKind :=
  if code = 1 then unsupported
  else if code = 2 then unconnected
  else if code = 3 then invariantViolation
  else other code

/-- The printed form of a class. -/
def label : ErrorKind → String
  | unsupported => "unsupported"
  | unconnected => "unconnected"
  | invariantViolation => "invariant violation"
  | other _ => "unknown error kind"

end ErrorKind

/-- A classified failure. The subject names the offending parameter or entity and may be empty. -/
structure Fault where
  kind : ErrorKind
  subject : String
  message : String
  deriving Repr, DecidableEq, Inhabited

/-- The text of a fault. An empty subject is left out. -/
def Fault.text (fault : Fault) : String :=
  if fault.subject = "" then
    fault.kind.label ++ ": " ++ fault.message
  else
    fault.kind.label ++ ": " ++ fault.subject ++ ": " ++ fault.message

/-- A failure without a class. -/
inductive Reason where
  | invalidBit (text : String)
  | invalidNet (number : Int)
  | literalTooWide (width : Nat)
  | notLiteral (index : Nat) (bits : List Bit)
  | emptyParameter
  | parameterOutOfRange (digits : String)
  | invalidParameter (digits : String)
  | missingParameter (cell name : String)
  | negativeParameter (cell name : String)
  | missingConnection (cell name : String)
  | connectionWidth (cell name : String) (found expected : Nat)
  | notMemory (cell : String)
  | noProducer (bits : List Bit)
  | operandChoice
  | missingFirst
  | missingOutput
  | invalidComparator (symbol : String)
  | invalidOperation (symbol : String)
  | noEntities
  | duplicateEntity (entity : String)
  | remark (text : String)
  deriving Repr, DecidableEq, Inhabited

/-- The wording of a reason. -/
def Reason.text : Reason → String
  | invalidBit text => "invalid bit value " ++ Text.quote text
  | invalidNet number => "invalid net number " ++ toString number
  | literalTooWide width => "literal too wide: " ++ toString width ++ " bits"
  | notLiteral index bits =>
      "bit " ++ toString index ++ " of " ++ Bit.vectorText bits ++ " is not a 0/1 literal"
  | emptyParameter => "empty parameter"
  | parameterOutOfRange digits => "parameter value " ++ Text.quote digits ++ " out of range"
  | invalidParameter digits => "invalid parameter value " ++ Text.quote digits
  | missingParameter cell name => "cell " ++ cell ++ ": missing parameter " ++ name
  | negativeParameter cell name => "cell " ++ cell ++ ": negative parameter " ++ name
  | missingConnection cell name => "cell " ++ cell ++ ": missing connection " ++ name
  | connectionWidth cell name found expected =>
      "cell " ++ cell ++ ": connection " ++ name ++ " has " ++ toString found ++
        " bits, expected " ++ toString expected
  | notMemory cell => "cell type " ++ cell ++ " is not a memory"
  | noProducer bits => "no producer for bits " ++ Bit.vectorText bits
  | operandChoice => "exactly one of second signal and constant must be set"
  | missingFirst => "missing first signal"
  | missingOutput => "missing output signal"
  | invalidComparator symbol => "invalid comparator " ++ Text.quote symbol
  | invalidOperation symbol => "invalid operation " ++ Text.quote symbol
  | noEntities => "empty entity list"
  | duplicateEntity entity => "duplicate entity " ++ entity
  | remark text => text

/-- A broken rule of an operation. -/
inductive Misuse where
  | fewEndpoints
  | nullEndpoint
  | connectionColor (color : ColorCode)
  | wireColor (color : ColorCode)
  | malformedDecider (reason : Reason)
  | malformedArithmetic (reason : Reason)
  | alreadyPlaced (entity : String)
  | unknownInput
  | negativeRepeat
  | invalidComparator (symbol : String)
  | invalidOperator (symbol : String)
  deriving Repr, DecidableEq, Inhabited

/-- The wording of a misuse. -/
def Misuse.text : Misuse → String
  | fewEndpoints => "MakeConnection: at least two endpoints required"
  | nullEndpoint => "MakeConnection: nil endpoint"
  | connectionColor color => "MakeConnection: invalid wire color " ++ color.name
  | wireColor color => "invalid wire color " ++ color.name
  | malformedDecider reason => "NewDecider: " ++ reason.text
  | malformedArithmetic reason => "NewArithmetic: " ++ reason.text
  | alreadyPlaced entity => "entity " ++ entity ++ " already in an arena"
  | unknownInput => "input not registered in bench"
  | negativeRepeat => "strings: negative Repeat count"
  | invalidComparator symbol => "invalid comparator " ++ symbol
  | invalidOperator symbol => "invalid operator " ++ symbol

/-- A reference to something that does not exist. -/
inductive Crash where
  | unknownObject
  | unknownGroup
  | nullNode
  | nullEndpoint
  | nullEntity
  | impossibleLength
  | tooDeep
  deriving Repr, DecidableEq, Inhabited

/-- What went wrong. -/
inductive Cause where
  | fault (fault : Fault)
  | reason (reason : Reason)
  | misuse (misuse : Misuse)
  | crash (crash : Crash)
  deriving Repr, DecidableEq, Inhabited

namespace Cause

/-- An ordinary failure is an answer of the operation; the others end it. -/
def isOrdinary : Cause → Bool
  | fault _ | reason _ => true
  | misuse _ | crash _ => false

/-- The wording of a cause. A crash has none. -/
def text : Cause → String
  | fault found => found.text
  | reason found => found.text
  | misuse found => found.text
  | crash _ => ""

end Cause

/-- A cause with the labels of the operations it passed through, the outermost first. -/
structure Failure where
  context : List String := []
  cause : Cause
  deriving Repr, DecidableEq, Inhabited

namespace Failure

/-- A fault on its own. -/
def ofFault (fault : Fault) : Failure := { cause := .fault fault }

/-- A reason on its own. -/
def ofReason (reason : Reason) : Failure := { cause := .reason reason }

/-- A misuse on its own. -/
def ofMisuse (misuse : Misuse) : Failure := { cause := .misuse misuse }

/-- A crash on its own. -/
def ofCrash (crash : Crash) : Failure := { cause := .crash crash }

/-- An ordinary failure takes the label of an operation it passes through. -/
def within (label : String) (failure : Failure) : Failure :=
  if failure.cause.isOrdinary then
    { failure with context := label :: failure.context }
  else
    failure

/-- The full text: the labels and the cause, divided by colons. -/
def text (failure : Failure) : String :=
  ": ".intercalate (failure.context ++ [failure.cause.text])

/-- Whether a failure is, below its labels, a fault of the given class. -/
def isKind (failure : Failure) (kind : ErrorKind) : Bool :=
  match failure.cause with
  | .fault fault => fault.kind = kind
  | _ => false

end Failure

end CircuitNetwork
