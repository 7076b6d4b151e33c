import Mathlib.Algebra.Ring.Int.Defs
import Mathlib.Data.List.Basic

/-! # The part of `java.lang` the services compute with

A nullable reference is an `Option`, a method that can throw returns in
`Except JavaException`.  Texts are Lean strings; numbers are parsed from them as
`Integer.parseInt` and `Long.parseLong` do, digits of other scripts included.
-/

namespace TrainWatch.Java

universe u v

inductive JavaException where
  | nullPointerException
  | numberFormatException (input : Option String)
  | dateTimeException
  | dateTimeParseException (text : String)
  | illegalArgumentException
deriving DecidableEq, Repr

/-- Dereferencing, unboxing, or handing over to a method that rejects null. -/
def nonNull {α : Type u} : Option α → Except JavaException α
  | some value => .ok value
  | none => .error .nullPointerException

@[simp] theorem nonNull_some {α : Type u} (value : α) : nonNull (some value) = .ok value := rfl

@[simp] theorem nonNull_none {α : Type u} :
    nonNull (none : Option α) = .error .nullPointerException := rfl

theorem nonNull_eq_ok {α : Type u} {reference : Option α} {value : α} :
    nonNull reference = .ok value ↔ reference = some value := by
  cases reference <;> simp

theorem bind_eq_ok {α β : Type u} {first : Except JavaException α}
    {second : α → Except JavaException β} {result : β} :
    first >>= second = .ok result ↔ ∃ value, first = .ok value ∧ second value = .ok result := by
  cases first <;> simp [bind, Except.bind]

@[simp] theorem ok_bind {α β : Type u} (value : α) (second : α → Except JavaException β) :
    (Except.ok value : Except JavaException α) >>= second = second value := rfl

@[simp] theorem error_bind {α β : Type u} (thrown : JavaException)
    (second : α → Except JavaException β) :
    (Except.error thrown : Except JavaException α) >>= second = .error thrown := rfl

@[simp] theorem pure_eq_ok {α : Type u} (value : α) :
    (pure value : Except JavaException α) = .ok value := rfl

/-- The operand of a string concatenation. -/
def concatOperand (text : Option String) : String := text.getD "null"

/-- The zero digits of the scripts with decimal digits in the basic plane, in code point order. -/
def Character.decimalZeros : List Nat :=
  [0x0030, 0x0660, 0x06F0, 0x07C0, 0x0966, 0x09E6, 0x0A66, 0x0AE6, 0x0B66, 0x0BE6, 0x0C66, 0x0CE6,
   0x0D66, 0x0E50, 0x0ED0, 0x0F20, 0x1040, 0x1090, 0x17E0, 0x1810, 0x1946, 0x19D0, 0x1A80, 0x1A90,
   0x1B50, 0x1BB0, 0x1C40, 0x1C50, 0xA620, 0xA8D0, 0xA900, 0xA9D0, 0xAA50, 0xABF0, 0xFF10]

/-- The value of a digit of one of the scripts with these zeros. -/
def decimalDigit (zeros : List Nat) (c : Char) : Option Nat :=
  (zeros.find? fun first => first ≤ c.toNat && c.toNat < first + 10).map (c.toNat - ·)

def Character.digit (c : Char) : Option Nat := decimalDigit decimalZeros c

def decimalNumber (digit : Char → Option Nat) (digits : List Char) : Option Nat :=
  digits.foldlM (fun value c => (digit c).map (10 * value + ·)) 0

def parseDigits (digits : List Char) : Option Nat := decimalNumber Character.digit digits

/-- An optional sign and at least one digit. -/
def parseSigned (text : String) : Option Int :=
  match text.toList with
  | [] | ['-'] | ['+'] => none
  | '-' :: digits => (parseDigits digits).map fun value => -(value : Int)
  | '+' :: digits => (parseDigits digits).map fun value => (value : Int)
  | digits => (parseDigits digits).map fun value => (value : Int)

/-- A signed decimal number that fits the two's complement width. -/
def parseWithin (bits : Nat) (text : Option String) : Except JavaException Int :=
  match text.bind parseSigned with
  | some value =>
    if -2 ^ (bits - 1) ≤ value ∧ value < 2 ^ (bits - 1) then .ok value
    else .error (.numberFormatException text)
  | none => .error (.numberFormatException text)

def Integer.parseInt (text : Option String) : Except JavaException Int := parseWithin 32 text

def Long.parseLong (text : Option String) : Except JavaException Int := parseWithin 64 text

/-- `true` for the word true in any case, `false` for every other text and for null. -/
def Boolean.valueOf (text : Option String) : Bool :=
  match text with
  | some text => text.toList.map Char.toLower == ['t', 'r', 'u', 'e']
  | none => false

example : Integer.parseInt (some "-12") = .ok (-12) := by decide

example : Integer.parseInt (some "2147483648") =
    .error (.numberFormatException (some "2147483648")) := by decide

end TrainWatch.Java
