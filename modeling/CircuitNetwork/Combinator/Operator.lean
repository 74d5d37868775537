namespace CircuitNetwork

/-!
# Arithmetic

The operations of an arithmetic combinator, on 32 bit counts with wrap-around.
Division and remainder go toward zero, and by zero they give zero, as does a
negative exponent. Shift amounts count modulo 32.
-/

/-- An operation on two counts. -/
inductive Operator where
  | add
  | sub
  | mul
  | div
  | mod
  | pow
  | shiftLeft
  | shiftRight
  | and
  | or
  | xor
  deriving Repr, DecidableEq, Inhabited

/-- A power on the way: what was multiplied so far, and the power that is left to multiply it by. -/
structure Power where
  total : Int32
  base : Int32
  exponent : Int32
  deriving Repr, DecidableEq, Inhabited

namespace Power

/-- Take the last binary digit from the exponent. A one multiplies the total, and the base is
squared for the digits that are left. -/
def round (power : Power) : Power where
  total := if power.exponent &&& 1 ≠ 0 then power.total * power.base else power.total
  base := power.base * power.base
  exponent := power.exponent >>> 1

theorem toInt_exponent_round
    (power : Power) :
    power.round.exponent.toInt = power.exponent.toInt / 2 := by
  have halved : (power.exponent >>> 1).toBitVec = power.exponent.toBitVec.sshiftRight 1 := rfl
  rw [round, Int32.toInt, halved, BitVec.toInt_sshiftRight, Int.shiftRight_eq_div_pow]
  rfl

/-- Take all digits from a positive exponent. -/
def finish (power : Power) : Power :=
  if 0 < power.exponent then power.round.finish else power
  termination_by power.exponent.toInt.toNat
  decreasing_by
    rename_i positive
    have left : 0 < power.exponent.toInt := Int32.lt_iff_toInt_lt.mp positive
    rw [toInt_exponent_round]
    omega

end Power

namespace Operator

/-- The written form of an operation. -/
def symbol : Operator → String
  | add => "+"
  | sub => "-"
  | mul => "*"
  | div => "/"
  | mod => "%"
  | pow => "^"
  | shiftLeft => "<<"
  | shiftRight => ">>"
  | and => "AND"
  | or => "OR"
  | xor => "XOR"

/-- The operation with a given written form. -/
def ofSymbol? : String → Option Operator
  | "+" => some add
  | "-" => some sub
  | "*" => some mul
  | "/" => some div
  | "%" => some mod
  | "^" => some pow
  | "<<" => some shiftLeft
  | ">>" => some shiftRight
  | "AND" => some and
  | "OR" => some or
  | "XOR" => some xor
  | _ => none

/-- The value of an operation. -/
def apply : Operator → Int32 → Int32 → Int32
  | add, a, b => a + b
  | sub, a, b => a - b
  | mul, a, b => a * b
  | div, a, b => if b = 0 then 0 else a / b
  | mod, a, b => if b = 0 then 0 else a % b
  | pow, a, b => if b < 0 then 0 else (Power.finish ⟨1, a, b⟩).total
  | shiftLeft, a, b => a <<< b
  | shiftRight, a, b => a >>> b
  | and, a, b => a &&& b
  | or, a, b => a ||| b
  | xor, a, b => a ^^^ b

end Operator

end CircuitNetwork
