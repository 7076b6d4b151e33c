import Mathlib.Data.List.Infix

/-! # JSON values and their compact text

An object is a list of members; where a name stands twice a reader sees the last.  The
text has no blanks between tokens and escapes in strings what has to be escaped: the
quotation mark, the backslash and the control characters.
-/

namespace TrainWatch.Library

/-- The letter, the sign if one is written, and at least one digit. -/
structure Exponent where
  capital : Bool
  minus : Option Bool
  digits : List (Fin 10)
  nonempty : digits ≠ []
deriving DecidableEq, Repr

/-- The parts of a number's text; without a digit behind the point there is no point. -/
structure NumberLiteral where
  negative : Bool
  whole : Nat
  fraction : List (Fin 10)
  exponent : Option Exponent
deriving DecidableEq, Repr

namespace Exponent

def digitChars (digits : List (Fin 10)) : List Char :=
  digits.map fun digit => Nat.digitChar digit.val

def chars (exponent : Exponent) : List Char :=
  (if exponent.capital then 'E' else 'e') ::
    (match exponent.minus with
    | none => []
    | some minus => [if minus then '-' else '+']) ++ digitChars exponent.digits

def ofDigits (digits : List (Fin 10)) : Nat :=
  digits.foldl (fun value digit => 10 * value + digit.val) 0

def value (exponent : Exponent) : Int :=
  if exponent.minus = some true then -ofDigits exponent.digits else ofDigits exponent.digits

end Exponent

namespace NumberLiteral

open Exponent

def digits (literal : NumberLiteral) : List Char :=
  (if literal.negative then ['-'] else []) ++ Nat.toDigits 10 literal.whole ++
    (match literal.fraction with
    | [] => []
    | fraction => '.' :: digitChars fraction) ++
    (literal.exponent.map chars).getD []

theorem isDigit_of_digitChars {digits : List (Fin 10)} {c : Char} (member : c ∈ digitChars digits) :
    c.isDigit := by
  have all : ∀ digit : Fin 10, (Nat.digitChar digit.val).isDigit := by decide
  obtain ⟨digit, _, rfl⟩ := List.mem_map.mp member
  exact all digit

theorem plain (literal : NumberLiteral) :
    ∀ c ∈ literal.digits, c.isDigit ∨ c ∈ ['+', '-', '.', 'e', 'E'] := by
  intro c member
  simp only [digits, List.mem_append] at member
  -- the sign, the whole part, the fraction and the exponent, in this order
  obtain ((sign | isWhole) | fraction) | exponent := member
  · split at sign
    · cases List.mem_singleton.mp sign
      exact .inr (by simp)
    · cases sign
  · exact .inl (Nat.isDigit_of_mem_toDigits (by omega) (by omega) isWhole)
  · split at fraction
    · cases fraction
    · obtain rfl | digit := List.mem_cons.mp fraction
      · exact .inr (by simp)
      · exact .inl (isDigit_of_digitChars digit)
  · cases given : literal.exponent with
    | none =>
      rw [given] at exponent
      cases exponent
    | some parts =>
      rw [given, Option.map_some, Option.getD_some, chars, List.cons_append, List.mem_cons,
        List.mem_append] at exponent
      obtain rfl | sign | digit := exponent
      · split
        · exact .inr (by simp)
        · exact .inr (by simp)
      · split at sign
        · cases sign
        · cases List.mem_singleton.mp sign
          split
          · exact .inr (by simp)
          · exact .inr (by simp)
      · exact .inl (isDigit_of_digitChars digit)

end NumberLiteral

mutual

inductive Json where
  | null
  | boolean (value : Bool)
  | number (literal : NumberLiteral)
  | text (value : String)
  | array (items : List Json)
  | object (members : List Member)

inductive Member where
  | mk (name : String) (value : Json)

end

namespace Json

def nameOf : Member → String
  | .mk name _ => name

def valueOf : Member → Json
  | .mk _ value => value

/-- The member of an object with the name; the last one, if there are several. -/
def get? (json : Json) (name : String) : Option Json :=
  match json with
  | .object members => (members.reverse.find? fun member => nameOf member = name).map valueOf
  | _ => none

def ofNullable : Option String → Json
  | none => .null
  | some value => .text value

def hexDigit (value : Nat) : Char := (Nat.digitChar value)

def escapeChar (c : Char) : List Char :=
  if c = '"' then ['\\', '"']
  else if c = '\\' then ['\\', '\\']
  else if c.toNat < 0x20 then ['\\', 'u', '0', '0', hexDigit (c.toNat / 16),
    hexDigit (c.toNat % 16)]
  else [c]

def quoted (text : String) : List Char := '"' :: text.toList.flatMap escapeChar ++ ['"']

mutual

def render : Json → List Char
  | .null => ['n', 'u', 'l', 'l']
  | .boolean true => ['t', 'r', 'u', 'e']
  | .boolean false => ['f', 'a', 'l', 's', 'e']
  | .number literal => literal.digits
  | .text value => quoted value
  | .array items => '[' :: renderItems items ++ [']']
  | .object members => '{' :: renderMembers members ++ ['}']

def renderItems : List Json → List Char
  | [] => []
  | [item] => render item
  | item :: next :: items => render item ++ ',' :: renderItems (next :: items)

def renderMembers : List Member → List Char
  | [] => []
  | [member] => renderMember member
  | member :: next :: members => renderMember member ++ ',' :: renderMembers (next :: members)

def renderMember : Member → List Char
  | .mk name value => quoted name ++ ':' :: render value

end

/-! ## What stands in the text of an object -/

theorem renderMember_within {member : Member} {members : List Member} (listed : member ∈ members) :
    renderMember member <:+: renderMembers members := by
  induction members with
  | nil => cases listed
  | cons first rest inductionHypothesis =>
    cases rest with
    | nil =>
      cases List.mem_singleton.mp listed
      exact List.infix_refl _
    | cons next rest =>
      -- the text of the first member is in front of the comma, that of the others behind it
      rw [renderMembers]
      obtain rfl | later := List.mem_cons.mp listed
      · exact (List.prefix_append _ _).isInfix
      · exact (inductionHypothesis later).trans
          ((List.suffix_cons _ _).trans (List.suffix_append _ _)).isInfix

theorem mem_of_get? {json value : Json} {name : String} (found : json.get? name = some value) :
    ∃ members, json = .object members ∧ .mk name value ∈ members := by
  cases json with
  | object members =>
    refine ⟨members, rfl, ?_⟩
    obtain ⟨member, here, rfl⟩ := Option.map_eq_some_iff.mp found
    have named : nameOf member = name := by simpa using List.find?_some here
    have listed := List.mem_reverse.mp (List.mem_of_find?_eq_some here)
    obtain ⟨name', value'⟩ := member
    cases named
    exact listed
  | null => cases found
  | boolean value => cases found
  | number literal => cases found
  | text value => cases found
  | array items => cases found

/-- The quoted name of a member and the text of its value stand in the text of the object. -/
theorem infix_of_get? {json value : Json} {name : String} (found : json.get? name = some value) :
    quoted name <:+: render json ∧ render value <:+: render json := by
  obtain ⟨members, rfl, listed⟩ := mem_of_get? found
  have inside : renderMembers members <:+: render (.object members) := by
    rw [render, List.cons_append]
    exact ((List.prefix_append _ _).isInfix).trans (List.suffix_cons _ _).isInfix
  have whole := (renderMember_within listed).trans inside
  rw [renderMember] at whole
  -- the member's text is its quoted name, a colon and the text of its value
  constructor
  · exact (List.prefix_append _ _).isInfix.trans whole
  · exact ((List.suffix_cons _ _).trans (List.suffix_append _ _)).isInfix.trans whole

theorem infix_quoted {text : String} (plain : text.toList.flatMap escapeChar = text.toList) :
    text.toList <:+: quoted text := by
  rw [quoted, plain]
  exact ((List.prefix_append _ _).isInfix).trans (List.suffix_cons _ _).isInfix

end Json

end TrainWatch.Library
