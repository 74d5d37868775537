namespace CircuitNetwork

/-!
# Wire colors

A wire is red or green. A connection may ask for either color or for both at
once, so requests carry a color code: one for red, two for green, three for
both. Other codes have a printed form and are refused.
-/

/-- The two kinds of wire. -/
inductive Color where
  | red
  | green
  deriving Repr, DecidableEq, Inhabited

namespace Color

/-- Both colors, in the order in which they are wired and written. -/
def all : List Color := [red, green]

/-- The printed form of a color. -/
def name : Color → String
  | red => "red"
  | green => "green"

end Color

/-- The number that a request gives for a color. -/
structure ColorCode where
  code : Int
  deriving Repr, DecidableEq, Inhabited

namespace ColorCode

/-- The code for red. -/
def red : ColorCode := ⟨1⟩

/-- The code for green. -/
def green : ColorCode := ⟨2⟩

/-- The code for red and green together. -/
def both : ColorCode := ⟨3⟩

/-- The printed form of a color code. -/
def name (color : ColorCode) : String :=
  if color = red then "red"
  else if color = green then "green"
  else if color = both then "both"
  else "color(" ++ toString color.code ++ ")"

/-- The one color that a code stands for. -/
def single? (color : ColorCode) : Option Color :=
  if color = red then some .red
  else if color = green then some .green
  else none

/-- The colors of the wires that a connection with this code lays. -/
def wires? (color : ColorCode) : Option (List Color) :=
  if color = both then some Color.all
  else color.single?.map ([·])

end ColorCode

end CircuitNetwork
