namespace CircuitNetwork

/-!
# JSON values

Values keep the order in which an object lists its members. A number that is
written as a plain integer is kept as that integer, and any other number as the
text that writes it: only integers are ever computed with.
-/

/-- A JSON value. -/
inductive Json where
  | null
  | bool (value : Bool)
  | int (value : Int)
  | decimal (text : String)
  | str (text : String)
  | arr (items : List Json)
  | obj (members : List (String × Json))
  deriving Repr, Inhabited

namespace Json

/-- The value of an object's member; the last one counts if a name is listed twice. -/
def member? : Json → String → Option Json
  | obj members, name => members.reverse.lookup name
  | _, _ => none

/-- The array of the images of a list's elements. -/
def ofList {α : Type} (encode : α → Json) (items : List α) : Json :=
  arr (items.map encode)

/-- The image of a value, or null where there is none. -/
def ofOption {α : Type} (encode : α → Json) : Option α → Json
  | some value => encode value
  | none => null

/-- A natural number. -/
def nat (value : Nat) : Json :=
  int value

end Json

end CircuitNetwork
