namespace CircuitNetwork

/-!
# Log levels

A message has a level, and only the messages at or above a chosen level are kept.
-/

/-- The levels of messages, from the least to the greatest. -/
inductive Level where
  | debug
  | info
  | warning
  | error
  | fatal
  deriving Repr, DecidableEq, Inhabited

namespace Level

/-- The name of a level. -/
def name : Level → String
  | debug => "debug"
  | info => "info"
  | warning => "warning"
  | error => "error"
  | fatal => "fatal"

/-- All levels in order. -/
def all : List Level := [debug, info, warning, error, fatal]

/-- The level with a name. -/
def ofName? (name : String) : Option Level :=
  all.find? (·.name = name)

/-- The place of a level in the order. -/
def rank : Level → Nat
  | debug => 0
  | info => 1
  | warning => 2
  | error => 3
  | fatal => 4

end Level

/-- A message with its level. -/
structure Message where
  level : Level
  text : String
  deriving Repr, DecidableEq, Inhabited

/-- The messages at or above a level. -/
def Message.kept (least : Level) (messages : List Message) : List Message :=
  messages.filter fun message => least.rank ≤ message.level.rank

end CircuitNetwork
