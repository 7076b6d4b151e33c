import TrainWatch.Java.Lang
import Mathlib.Data.List.DropRight

/-! # Texts as US-ASCII bytes, and texts without blanks around them

A character outside the charset is written as a question mark; a byte outside it is read
as the replacement character.  `trim` takes off everything up to the space at both ends,
control characters included.
-/

namespace TrainWatch.Java

def isAscii (c : Char) : Bool := c.toNat < 128

def encodeAscii (c : Char) : UInt8 := if isAscii c then c.toNat.toUInt8 else 63

def decodeAscii (byte : UInt8) : Char :=
  if byte.toNat < 128 then Char.ofNat byte.toNat else '\uFFFD'

theorem decode_encode {c : Char} (ascii : isAscii c) : decodeAscii (encodeAscii c) = c := by
  have small : c.toNat < 128 := by simpa [isAscii] using ascii
  have same : (c.toNat.toUInt8).toNat = c.toNat := by
    rw [Nat.toUInt8_eq, UInt8.toNat_ofNat']
    omega
  rw [encodeAscii, if_pos ascii, decodeAscii, same, if_pos small, Char.ofNat_toNat]

theorem isAscii_decode_encode (c : Char) : isAscii (decodeAscii (encodeAscii c)) := by
  cases ascii : isAscii c with
  | true => rw [decode_encode ascii, ascii]
  | false =>
    rw [encodeAscii, ascii]
    rfl

/-- A character once it has been written and read. -/
def asAscii (c : Char) : Char := decodeAscii (encodeAscii c)

theorem asAscii_of_not {c : Char} (other : isAscii c = false) : asAscii c = '?' := by
  rw [asAscii, encodeAscii, other]
  rfl

theorem asAscii_cases (c : Char) : asAscii c = c ∨ asAscii c = '?' := by
  cases ascii : isAscii c with
  | true => exact .inl (decode_encode ascii)
  | false => exact .inr (asAscii_of_not ascii)

theorem map_asAscii {text : List Char} (ascii : ∀ c ∈ text, isAscii c) : text.map asAscii = text :=
  (List.map_congr_left fun c member => decode_encode (ascii c member)).trans (List.map_id _)

def textAsAscii (text : String) : String := String.ofList (text.toList.map asAscii)

theorem textAsAscii_of_ascii {text : String} (ascii : ∀ c ∈ text.toList, isAscii c) :
    textAsAscii text = text := by
  rw [textAsAscii, map_asAscii ascii, String.ofList_toList]

theorem textAsAscii_eq_iff {text : String} (ascii : ∀ c ∈ text.toList, isAscii c)
    (noMark : '?' ∉ text.toList) (other : String) :
    textAsAscii other = text ↔ other = text := by
  constructor
  · intro same
    have letters : other.toList.map asAscii = text.toList := by
      rw [← same, textAsAscii, String.toList_ofList]
    have kept : other.toList.map asAscii = other.toList := by
      refine (List.map_congr_left fun c member => ?_).trans (List.map_id _)
      obtain kept | replaced := asAscii_cases c
      · exact kept
      · refine absurd ?_ noMark
        rw [← letters, ← replaced]
        exact List.mem_map_of_mem member
    rw [← String.ofList_toList (s := other), ← kept, letters, String.ofList_toList]
  · rintro rfl
    exact textAsAscii_of_ascii ascii

theorem decode_cases (byte : UInt8) : isAscii (decodeAscii byte) ∨ decodeAscii byte = '\uFFFD' := by
  rw [decodeAscii]
  split
  · rename_i small
    left
    have all : ∀ code < 128, isAscii (Char.ofNat code) := by decide
    exact all _ small
  · exact .inr rfl

/-! ## Blanks at the ends -/

def blank (c : Char) : Bool := c.toNat ≤ 32

def trimmed (text : List Char) : List Char := (text.dropWhile blank).rdropWhile blank

def trim (text : String) : String := String.ofList (trimmed text.toList)

theorem blank_asAscii (c : Char) : blank (asAscii c) = blank c := by
  cases ascii : isAscii c with
  | true => rw [asAscii, decode_encode ascii]
  | false =>
    have large : ¬ c.toNat ≤ 32 := by
      have notSmall : ¬ c.toNat < 128 := by simpa [isAscii] using ascii
      omega
    rw [asAscii_of_not ascii]
    exact (decide_eq_false large).symm

theorem trimmed_map_asAscii (text : List Char) :
    trimmed (text.map asAscii) = (trimmed text).map asAscii := by
  have same : blank ∘ asAscii = blank := funext blank_asAscii
  rw [trimmed, trimmed, List.dropWhile_map, same, List.rdropWhile, List.rdropWhile,
    ← List.map_reverse, List.dropWhile_map, same,
    ← List.map_reverse]

theorem trim_textAsAscii (text : String) : trim (textAsAscii text) = textAsAscii (trim text) := by
  rw [trim, textAsAscii, textAsAscii, trim, String.toList_ofList, String.toList_ofList,
    trimmed_map_asAscii]

theorem trimmed_idem (text : List Char) : trimmed (trimmed text) = trimmed text := by
  have front : (trimmed text).dropWhile blank = trimmed text := by
    rw [List.dropWhile_eq_self_iff]
    intro nonempty
    -- the first letter left at the end was there before the blanks behind it went
    have shorter : trimmed text <+: text.dropWhile blank := List.rdropWhile_prefix _ _
    have longer : 0 < (text.dropWhile blank).length := Nat.lt_of_lt_of_le nonempty shorter.length_le
    rw [shorter.getElem nonempty]
    simpa using List.dropWhile_get_zero_not blank text longer
  rw [trimmed, front, trimmed, List.rdropWhile_idempotent]

theorem trim_idem (text : String) : trim (trim text) = trim text := by
  simp only [trim, String.toList_ofList, trimmed_idem]

theorem mem_trimmed {text : List Char} {c : Char} (member : c ∈ trimmed text) : c ∈ text :=
  (List.dropWhile_sublist _).subset ((List.rdropWhile_prefix _ _).subset member)

theorem mem_trim {text : String} {c : Char} (member : c ∈ (trim text).toList) :
    c ∈ text.toList := by
  rw [trim, String.toList_ofList] at member
  exact mem_trimmed member

end TrainWatch.Java
