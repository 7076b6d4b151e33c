import TrainWatch.Library.Json
import Mathlib.Data.Int.Log
import Mathlib.Data.Rat.Floor

/-! # The values that the scripts read and hand on

`json.loads` makes an integer of a number without fraction and exponent, and the nearest
double of every other.  Python compares numbers by value, and truth values as one and
zero; `json.dump` writes the shortest decimal that is read back as the same double.
-/

namespace TrainWatch.Python

open TrainWatch.Library

/-! ## Doubles -/

/-- A double that is a number; zero has two signs. -/
inductive Double where
  | finite (negative : Bool) (magnitude : ℚ)
  | infinite (negative : Bool)
deriving DecidableEq, Repr

/-- The nearest integer, the even one of two. -/
def roundHalfEven (x : ℚ) : ℤ :=
  let below := ⌊x⌋
  if x - below < 1 / 2 then below
  else if 1 / 2 < x - below then below + 1
  else below + below % 2

namespace Double

/-- The double nearest to a magnitude: 53 binary digits, fewer near zero. -/
def nearest (negative : Bool) (magnitude : ℚ) : Double :=
  let unit : ℚ := 2 ^ max (Int.log 2 magnitude - 52) (-1074)
  let rounded := roundHalfEven (magnitude / unit) * unit
  if rounded < 2 ^ 1024 then .finite negative rounded else .infinite negative

/-- A decimal of so many digits, and its power of ten, that is read back as the magnitude. -/
def readBack (magnitude : ℚ) (count : ℕ) : Option (ℕ × ℤ) :=
  let power := Int.log 10 magnitude - count + 1
  let scaled := magnitude / 10 ^ power
  -- at a power of two the nearest decimal can be the only one that is not read back
  let candidates := [(roundHalfEven scaled).toNat, ⌊scaled⌋.toNat, ⌊scaled⌋.toNat + 1]
  (candidates.find? fun (decimal : ℕ) =>
    nearest false (decimal * 10 ^ power) = finite false magnitude).map (·, power)

def shortest (magnitude : ℚ) :
    ℕ × ℤ := ((List.range' 1 17).findSome? (readBack magnitude)).getD (0, 0)

/-- Significant digits with the decimal point after `point` of them, as `repr` sets it. -/
def pointed (digits : List Char) (point : ℤ) : List Char :=
  if -4 < point ∧ point ≤ 16 then
    if point ≤ 0 then '0' :: '.' :: List.replicate (-point).toNat '0' ++ digits
    else if digits.length ≤ point then digits ++ List.replicate (point.toNat - digits.length) '0' ++
      ['.', '0']
    else digits.take point.toNat ++ '.' :: digits.drop point.toNat
  else
    let mantissa := digits.take 1 ++ (if digits.length ≤ 1 then [] else '.' :: digits.drop 1)
    let power := Nat.toDigits 10 (point - 1).natAbs
    mantissa ++ 'e' :: (if point ≤ 0 then '-' else '+') :: (if power.length < 2 then '0' :: power
      else power)

def reprMagnitude (magnitude : ℚ) : List Char :=
  if magnitude = 0 then ['0', '.', '0']
  else
    let (decimal, power) := shortest magnitude
    let digits := Nat.toDigits 10 decimal
    pointed (digits.reverse.dropWhile (· = '0')).reverse (digits.length + power)

def text : Double → String
  | finite negative magnitude => (if negative then "-" else "") ++ String.ofList
      (reprMagnitude magnitude)
  | infinite negative => if negative then "-Infinity" else "Infinity"

end Double

/-! ## Numbers -/

inductive Number where
  | int (value : ℤ)
  | float (value : Double)
deriving DecidableEq, Repr

/-- What numbers are compared by. -/
inductive Exact where
  | finite (value : ℚ)
  | infinite (negative : Bool)
deriving DecidableEq, Repr

namespace Number

def ofLiteral (literal : NumberLiteral) : Number :=
  match literal.fraction, literal.exponent with
  | [], none => .int (if literal.negative then -literal.whole else literal.whole)
  | fraction, exponent =>
    let digits := literal.whole * 10 ^ fraction.length + Exponent.ofDigits fraction
    let power := (exponent.map Exponent.value).getD 0 - fraction.length
    .float (.nearest literal.negative (digits * 10 ^ power))

def exact : Number → Exact
  | int value => .finite value
  | float (.finite negative magnitude) => .finite (if negative then -magnitude else magnitude)
  | float (.infinite negative) => .infinite negative

/-- As `json.dump` writes it. -/
def text : Number → String
  | int value => toString value
  | float value => value.text

end Number

/-! ## Scalars -/

/-- A value that is neither a list nor a dictionary. -/
inductive Scalar where
  | none
  | bool (value : Bool)
  | number (value : Number)
  | str (value : String)
deriving DecidableEq, Repr

namespace Scalar

def ofJson : Json → Option Scalar
  | .null => some none
  | .boolean value => some (bool value)
  | .number literal => some (number (.ofLiteral literal))
  | .text value => some (str value)
  | _ => Option.none

def exact : Scalar → Option Exact
  | bool value => some (.finite (if value then 1 else 0))
  | number value => some value.exact
  | _ => Option.none

/-- Python's `==`. -/
def equals (scalar other : Scalar) : Bool :=
  match scalar.exact, other.exact with
  | some value, some value' => value = value'
  | _, _ => scalar = other

@[simp] theorem equals_self (scalar : Scalar) : scalar.equals scalar = true := by
  cases value : scalar.exact with
  | none => simp [equals, value]
  | some value => simp [equals, value]

/-- 50.8290 equals 50.829, one equals true, and no number equals a text. -/
example :
    let degrees (fraction : List (Fin 10)) :=
      Scalar.number (.ofLiteral ⟨false, 50, fraction, Option.none⟩)
    (degrees [8, 2, 9, 0]).equals (degrees [8, 2, 9]) ∧
      (Scalar.number (.int 1)).equals (.bool true) ∧ ¬ (degrees [5]).equals (.str "50.5") := by
  decide +kernel

end Scalar

end TrainWatch.Python
