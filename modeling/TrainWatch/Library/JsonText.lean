import TrainWatch.Library.Json

/-! # Where a word stands in the text of a JSON value

The text of a value separates its names and texts by punctuation, and escapes what could be
taken for it.  So a word of letters stands in the text exactly if it stands in one of the
names or texts, and a name with the quotation mark behind it exactly where a member is.
-/

namespace TrainWatch.Library

universe u

/-- A part without the separator lies on one side of it. -/
theorem infix_append_cons {α : Type u} {word before after : List α} {sep : α}
    (absent : sep ∉ word) :
    word <:+: before ++ sep :: after ↔ word <:+: before ∨ word <:+: after := by
  constructor
  · intro inside
    obtain first | second | ⟨front, back, rfl, isSuffix, isPrefix⟩ :=
      List.infix_append_iff.mp inside
    · exact .inl first
    · obtain starts | later := List.infix_cons_iff.mp second
      · cases word with
        | nil => exact .inl (List.nil_infix)
        | cons c rest =>
          rw [(List.cons_prefix_cons.mp starts).1] at absent
          exact absurd List.mem_cons_self absent
      · exact .inr later
    · cases back with
      | nil => exact .inl (by rw [List.append_nil]; exact isSuffix.isInfix)
      | cons c rest =>
        rw [(List.cons_prefix_cons.mp isPrefix).1] at absent
        exact absurd (List.mem_append_right front List.mem_cons_self) absent
  · rintro (first | second)
    · exact first.trans (List.prefix_append _ _).isInfix
    · exact second.trans ((List.suffix_cons _ _).trans (List.suffix_append _ _)).isInfix

theorem infix_skip {α : Type u} {c : α} {rest before after : List α} (absent : c ∉ before) :
    c :: rest <:+: before ++ after ↔ c :: rest <:+: after := by
  induction before with
  | nil => rfl
  | cons d before inductionHypothesis =>
    rw [List.mem_cons, not_or] at absent
    rw [List.cons_append, List.infix_cons_iff, inductionHypothesis absent.2, List.cons_prefix_cons]
    simp [absent.1]

namespace Json

mutual

/-- The names and texts of a value, at every depth. -/
def strings : Json → List String
  | .text value => [value]
  | .array items => stringsOfItems items
  | .object members => stringsOfMembers members
  | _ => []

def stringsOfItems : List Json → List String
  | [] => []
  | item :: items => strings item ++ stringsOfItems items

def stringsOfMembers : List Member → List String
  | [] => []
  | member :: members => stringsOfMember member ++ stringsOfMembers members

def stringsOfMember : Member → List String
  | .mk name value => name :: strings value

end

mutual

def allMembers : Json → List Member
  | .array items => allMembersOfItems items
  | .object members => allMembersOfMembers members
  | _ => []

def allMembersOfItems : List Json → List Member
  | [] => []
  | item :: items => allMembers item ++ allMembersOfItems items

def allMembersOfMembers : List Member → List Member
  | [] => []
  | member :: members => allMembersOfMember member ++ allMembersOfMembers members

def allMembersOfMember : Member → List Member
  | .mk name value => .mk name value :: allMembers value

end

theorem mem_allMembersOfMembers_of_mem {member inside : Member} {members : List Member}
    (listed : member ∈ members)
    (here : inside ∈ allMembersOfMember member) : inside ∈ allMembersOfMembers members := by
  induction members with
  | nil => cases listed
  | cons first rest inductionHypothesis =>
    rw [allMembersOfMembers, List.mem_append]
    obtain rfl | later := List.mem_cons.mp listed
    · exact .inl here
    · exact .inr (inductionHypothesis later)

theorem mem_allMembersOfMembers {member : Member} {members : List Member}
    (listed : member ∈ members) :
    member ∈ allMembersOfMembers members := by
  obtain ⟨name, value⟩ := member
  exact mem_allMembersOfMembers_of_mem listed List.mem_cons_self

theorem mem_allMembers_of_mem {name : String} {value : Json} {members : List Member}
    (listed : .mk name value ∈ members)
    {inside : Member} (inValue : inside ∈ allMembers value) :
    inside ∈ allMembers (.object members) := by
  rw [allMembers]
  exact mem_allMembersOfMembers_of_mem listed (List.mem_cons_of_mem _ inValue)

/-! ## Words -/

def punctuation : List Char := ['"', '\\', '{', '}', '[', ']', ',', ':']

def escapeCharacters : List Char :=
  ['\\', '"', 'u', '0', '1', '2', '3', '4', '5', '6', '7', '8', '9', 'a', 'b', 'c', 'd', 'e', 'f']

/-- A character that is written as it is and separates nothing. -/
def Plain (c : Char) : Prop := c ∉ punctuation ∧ ¬ c.toNat < 0x20

instance (c : Char) : Decidable (Plain c) := inferInstanceAs (Decidable (_ ∧ _))

/-- Plain characters, the first of which is in no escape sequence. -/
def Word : List Char → Prop
  | [] => False
  | c :: rest => c ∉ escapeCharacters ∧ ∀ d ∈ c :: rest, Plain d

instance : (word : List Char) → Decidable (Word word)
  | [] => inferInstanceAs (Decidable False)
  | _ :: _ => @instDecidableAnd _ _ inferInstance (List.decidableBAll _ _)

theorem hexDigit_mem {value : Nat} (small : value < 16) : hexDigit value ∈ escapeCharacters := by
  have all : ∀ value : Fin 16, hexDigit value.val ∈ escapeCharacters := by decide
  exact all ⟨value, small⟩

theorem escapeChar_cases (c : Char) :
    (escapeChar c = [c] ∧ c ≠ '"' ∧ c ≠ '\\') ∨
      (¬ Plain c ∧ (∃ rest, escapeChar c = '\\' :: rest) ∧ ∀ d ∈ escapeChar c,
        d ∈ escapeCharacters) := by
  unfold escapeChar
  split
  · rename_i quote
    subst quote
    exact .inr ⟨by decide, ⟨_, rfl⟩, by simp [escapeCharacters]⟩
  · rename_i notQuote
    split
    · rename_i backslash
      subst backslash
      exact .inr ⟨by decide, ⟨_, rfl⟩, by simp [escapeCharacters]⟩
    · rename_i notBackslash
      split
      · rename_i control
        refine .inr ⟨fun plain => plain.2 control, ⟨_, rfl⟩, ?_⟩
        have upper := hexDigit_mem (by omega : c.toNat / 16 < 16)
        have lower := hexDigit_mem (by omega : c.toNat % 16 < 16)
        simp only [List.forall_mem_cons, List.not_mem_nil, false_imp_iff, implies_true, and_true]
        exact ⟨by decide, by decide, by decide, by decide, upper, lower⟩
      · exact .inl ⟨rfl, notQuote, notBackslash⟩

section Escapes

variable {word text tail : List Char}

theorem prefix_escape_iff (plain : ∀ c ∈ word, Plain c) :
    word <+: text.flatMap escapeChar ↔ word <+: text := by
  induction text generalizing word with
  | nil => rfl
  | cons c text inductionHypothesis =>
    cases word with
    | nil => simp
    | cons d word =>
      have first := plain d List.mem_cons_self
      rw [List.flatMap_cons]
      obtain ⟨same, _⟩ | ⟨notPlain, ⟨rest, escaped⟩, _⟩ := escapeChar_cases c
      · rw [same, List.singleton_append, List.cons_prefix_cons, List.cons_prefix_cons,
          inductionHypothesis fun e member => plain e (List.mem_cons_of_mem _ member)]
      · rw [escaped, List.cons_append, List.cons_prefix_cons, List.cons_prefix_cons]
        -- the word has no backslash, and not the character that is escaped
        refine iff_of_false ?_ ?_
        · rintro ⟨rfl, _⟩
          exact first.1 (by decide)
        · rintro ⟨rfl, _⟩
          exact notPlain first

/-- Escaping neither makes nor breaks a word. -/
theorem infix_escape_iff (isWord : Word word) :
    word <:+: text.flatMap escapeChar ↔ word <:+: text := by
  cases word with
  | nil => exact absurd isWord (by simp [Word])
  | cons first rest =>
    obtain ⟨notEscape, plain⟩ := isWord
    induction text with
    | nil => rfl
    | cons c text inductionHypothesis =>
      have starts : _ <+: (c :: text).flatMap escapeChar ↔ _ := prefix_escape_iff plain
      rw [List.flatMap_cons] at starts ⊢
      obtain ⟨same, _⟩ | ⟨notPlain, _, escapes⟩ := escapeChar_cases c
      · rw [same, List.singleton_append] at starts ⊢
        rw [List.infix_cons_iff, List.infix_cons_iff, starts, inductionHypothesis]
      · have different : first ≠ c := by
          rintro rfl
          exact notPlain (plain first List.mem_cons_self)
        rw [infix_skip fun member => notEscape (escapes first member), inductionHypothesis,
          List.infix_cons_iff,
          List.cons_prefix_cons]
        simp [different]

theorem prefix_name_iff {after : List Char} (plain : ∀ c ∈ word, Plain c) :
    word ++ '"' :: after <+: text.flatMap escapeChar ++ '"' :: tail ↔
      word = text ∧ after <+: tail := by
  induction text generalizing word with
  | nil =>
    cases word with
    | nil => simp
    | cons d word =>
      have first := plain d List.mem_cons_self
      rw [List.flatMap_nil, List.nil_append, List.cons_append, List.cons_prefix_cons]
      refine iff_of_false ?_ (by simp)
      rintro ⟨rfl, _⟩
      exact first.1 (by decide)
  | cons c text inductionHypothesis =>
    rw [List.flatMap_cons, List.append_assoc]
    -- a character stands for itself, or its escape sequence starts with a backslash
    obtain ⟨same, notQuote, _⟩ | ⟨notPlain, ⟨rest, escaped⟩, _⟩ := escapeChar_cases c
    · rw [same, List.singleton_append]
      cases word with
      | nil =>
        rw [List.nil_append, List.cons_prefix_cons]
        exact iff_of_false (fun both => notQuote both.1.symm) (by simp)
      | cons d word =>
        rw [List.cons_append, List.cons_prefix_cons,
          inductionHypothesis fun e member => plain e (List.mem_cons_of_mem _ member),
            List.cons.injEq, and_assoc]
    · rw [escaped, List.cons_append]
      cases word with
      | nil =>
        rw [List.nil_append, List.cons_prefix_cons]
        exact iff_of_false (fun both => absurd both.1 (by decide)) (by simp)
      | cons d word =>
        have first := plain d List.mem_cons_self
        rw [List.cons_append, List.cons_prefix_cons, List.cons.injEq]
        refine iff_of_false ?_ ?_
        · rintro ⟨rfl, _⟩
          exact first.1 (by decide)
        · rintro ⟨⟨rfl, _⟩, _⟩
          exact notPlain first

theorem infix_name_iff {after : List Char} (isWord : Word word) :
    word ++ '"' :: after <:+: text.flatMap escapeChar ++ '"' :: tail ↔
      (word <:+ text ∧ after <+: tail) ∨ word ++ '"' :: after <:+: tail := by
  cases word with
  | nil => exact absurd isWord (by simp [Word])
  | cons first rest =>
    obtain ⟨notEscape, plain⟩ := isWord
    induction text with
    | nil =>
      have notQuote : first ≠ '"' := by
        rintro rfl
        exact notEscape (by decide)
      rw [List.flatMap_nil, List.nil_append, List.cons_append, List.infix_cons_iff,
        List.cons_prefix_cons]
      simp [notQuote]
    | cons c text inductionHypothesis =>
      have starts : _ ++ '"' :: after <+: (c :: text).flatMap escapeChar ++ '"' :: tail ↔
        _ := prefix_name_iff plain
      rw [List.flatMap_cons, List.append_assoc] at starts ⊢
      -- an escape sequence cannot be entered: the word's first character is in none
      obtain ⟨same, _⟩ | ⟨notPlain, _, escapes⟩ := escapeChar_cases c
      · rw [same, List.singleton_append] at starts ⊢
        rw [List.infix_cons_iff, starts, inductionHypothesis, List.suffix_cons_iff, or_and_right,
          or_assoc]
      · have different : first ≠ c := by
          rintro rfl
          exact notPlain (plain first List.mem_cons_self)
        rw [List.cons_append] at inductionHypothesis ⊢
        rw [infix_skip fun member => notEscape (escapes first member), inductionHypothesis,
          List.suffix_cons_iff]
        simp [different]

end Escapes

/-! ## Words in the text of a value -/

/-- A word that is no part of a number or a literal. -/
structure Marker (word : List Char) : Prop where
  isWord : Word word
  noNumber : ∃ c ∈ word, ¬ (c.isDigit ∨ c ∈ ['+', '-', '.', 'e', 'E'])
  noLiteral : ∀ literal ∈ [['n', 'u', 'l', 'l'], ['t', 'r', 'u', 'e'], ['f', 'a', 'l', 's', 'e']],
    ¬ word <:+: literal

theorem Word.not_infix_nil {word : List Char} (isWord : Word word) : ¬ word <:+: [] := by
  intro empty
  rw [List.infix_nil.mp empty] at isWord
  exact isWord

theorem Word.not_mem {word : List Char} (isWord : Word word) {c : Char} (mark : c ∈ punctuation) :
    c ∉ word := by
  intro member
  cases word with
  | nil => cases member
  | cons first rest => exact (isWord.2 c member).1 mark

section Texts

variable {word : List Char}

/-- What is written between two marks is all that can hold a word. -/
theorem Marker.infix_between_iff (marker : Marker word) {first last : Char}
    (isMark : first ∈ punctuation)
    (isMark' : last ∈ punctuation) (text : List Char) :
    word <:+: first :: text ++ [last] ↔ word <:+: text := by
  have opened : word <:+: [] ++ first :: (text ++ [last]) ↔
    _ := infix_append_cons (marker.isWord.not_mem isMark)
  rw [List.nil_append] at opened
  rw [List.cons_append, opened, infix_append_cons (marker.isWord.not_mem isMark')]
  simp [marker.isWord.not_infix_nil]

theorem Marker.infix_quoted_iff (marker : Marker word) (text : String) :
    word <:+: quoted text ↔ word <:+: text.toList := by
  rw [quoted, marker.infix_between_iff (by decide) (by decide), infix_escape_iff marker.isWord]

mutual

/-- A word stands in the text of a value if and only if it stands in one of its names or texts. -/
theorem Marker.infix_render_iff (marker : Marker word) :
    (json : Json) → (word <:+: render json ↔ ∃ text ∈ strings json, word <:+: text.toList)
  | .null => by
    have absent := marker.noLiteral _ (by decide : ['n', 'u', 'l', 'l'] ∈ _)
    simp [render, strings, absent]
  | .boolean true => by
    have absent := marker.noLiteral _ (by decide : ['t', 'r', 'u', 'e'] ∈ _)
    simp [render, strings, absent]
  | .boolean false => by
    have absent := marker.noLiteral _ (by decide : ['f', 'a', 'l', 's', 'e'] ∈ _)
    simp [render, strings, absent]
  | .number literal => by
    obtain ⟨c, member, notPart⟩ := marker.noNumber
    have absent : ¬ word <:+: literal.digits := fun inside =>
      notPart (literal.plain c (inside.subset member))
    simp [render, strings, absent]
  | .text value => by
    rw [render, marker.infix_quoted_iff]
    simp [strings]
  | .array items => by
    rw [render, marker.infix_between_iff (by decide) (by decide),
      infix_renderItems_iff marker items]
    simp [strings]
  | .object members => by
    rw [render, marker.infix_between_iff (by decide) (by decide),
      infix_renderMembers_iff marker members]
    simp [strings]

theorem Marker.infix_renderItems_iff (marker : Marker word) :
    (items : List Json) →
    (word <:+: renderItems items ↔ ∃ text ∈ stringsOfItems items, word <:+: text.toList)
  | [] => by simp [renderItems, stringsOfItems, marker.isWord.not_infix_nil]
  | [item] => by
    rw [renderItems, infix_render_iff marker item]
    simp [stringsOfItems]
  | item :: next :: items => by
    rw [renderItems, infix_append_cons (marker.isWord.not_mem (by decide)),
      infix_render_iff marker item,
      infix_renderItems_iff marker (next :: items)]
    simp only [stringsOfItems, List.mem_append, or_and_right, exists_or]

theorem Marker.infix_renderMembers_iff (marker : Marker word) :
    (members : List Member) → (word <:+: renderMembers members ↔ ∃ text ∈ stringsOfMembers members,
      word <:+: text.toList)
  | [] => by simp [renderMembers, stringsOfMembers, marker.isWord.not_infix_nil]
  | [member] => by
    rw [renderMembers, infix_renderMember_iff marker member]
    simp [stringsOfMembers]
  | member :: next :: members => by
    rw [renderMembers, infix_append_cons (marker.isWord.not_mem (by decide)),
      infix_renderMember_iff marker member,
      infix_renderMembers_iff marker (next :: members)]
    simp only [stringsOfMembers, List.mem_append, or_and_right, exists_or]

theorem Marker.infix_renderMember_iff (marker : Marker word) :
    (member : Member) →
    (word <:+: renderMember member ↔ ∃ text ∈ stringsOfMember member, word <:+: text.toList)
  | .mk name value => by
    rw [renderMember, infix_append_cons (marker.isWord.not_mem (by decide)),
      marker.infix_quoted_iff,
      infix_render_iff marker value]
    simp [stringsOfMember]

end

end Texts

/-! ## Names in the text of a value -/

section Names

variable {word : List Char}

/-- The end of a name, with what stands between it and a text. -/
def nameMarker (word : List Char) : List Char := word ++ ['"', ':', '"']

/-- A member with a text whose name ends in the word. -/
def Names (word : List Char) (member : Member) : Prop :=
  ∃ name text, member = .mk name (.text text) ∧ word <:+ name.toList

theorem not_mem_nameMarker (isWord : Word word) {mark : Char} (isMark : mark ∈ punctuation)
    (other : mark ∉ ['"', ':', '"']) :
    mark ∉ nameMarker word := by
  rw [nameMarker, List.mem_append, not_or]
  exact ⟨isWord.not_mem isMark, other⟩

theorem nameMarker_infix_cons_iff (isWord : Word word) {mark : Char} (isMark : mark ∈ punctuation)
    {tail : List Char} :
    nameMarker word <:+: mark :: tail ↔ nameMarker word <:+: tail := by
  cases word with
  | nil => exact absurd isWord (by simp [Word])
  | cons first rest =>
    have different : first ∉ [mark] := by
      intro same
      have plain := isWord.2 first List.mem_cons_self
      rw [List.mem_singleton.mp same] at plain
      exact plain.1 isMark
    rw [nameMarker, List.cons_append]
    exact infix_skip different

@[simp] theorem nameMarker_ne_nil (word : List Char) : nameMarker word ≠ [] := by
  simp [nameMarker]

theorem nameMarker_absent {text : List Char} (noQuote : '"' ∉ text) :
    ¬ nameMarker word <:+: text := by
  intro inside
  have quote : '"' ∈ nameMarker word := by simp [nameMarker]
  exact noQuote (inside.subset quote)

theorem nameMarker_infix_quoted_iff (isWord : Word word) (text : String) (tail : List Char) :
    nameMarker word <:+: quoted text ++ tail ↔
      (word <:+ text.toList ∧ [':', '"'] <+: tail) ∨ nameMarker word <:+: tail := by
  have shape : quoted text ++ tail = '"' :: (text.toList.flatMap escapeChar ++ '"' :: tail) := by
    simp [quoted]
  rw [shape, nameMarker_infix_cons_iff isWord (by decide), nameMarker]
  exact infix_name_iff isWord

theorem quote_prefix_render_iff (json : Json) : ['"'] <+: render json ↔
    ∃ text, json = .text text := by
  cases json with
  | text value => simp [render, quoted]
  | null => simp [render]
  | boolean value => cases value <;> simp [render]
  | array items => simp [render]
  | object members => simp [render]
  | number literal =>
    refine iff_of_false ?_ (by simp)
    intro starts
    have plain := literal.plain '"' (starts.subset List.mem_cons_self)
    exact absurd plain (by decide)

theorem nameMarker_infix_between_iff (isWord : Word word) {first last : Char}
    (isMark : first ∈ punctuation ∧ first ∉ ['"', ':', '"'])
    (isMark' : last ∈ punctuation ∧ last ∉ ['"', ':', '"'])
    (text : List Char) :
    nameMarker word <:+: first :: text ++ [last] ↔ nameMarker word <:+: text := by
  rw [List.cons_append, nameMarker_infix_cons_iff isWord isMark.1,
    infix_append_cons (not_mem_nameMarker isWord isMark'.1 isMark'.2)]
  simp

mutual

/-- The end of a name in front of a text stands in the text of a value if and only if the value has
    such a member. -/
theorem nameMarker_infix_render_iff (isWord : Word word) :
    (json : Json) → (nameMarker word <:+: render json ↔
      ∃ member ∈ allMembers json, Names word member)
  | .null => iff_of_false (nameMarker_absent (by decide)) (by simp [allMembers])
  | .boolean true => iff_of_false (nameMarker_absent (by decide)) (by simp [allMembers])
  | .boolean false => iff_of_false (nameMarker_absent (by decide)) (by simp [allMembers])
  | .number literal => by
    have noQuote : '"' ∉ literal.digits := fun member => absurd (literal.plain _ member) (by decide)
    exact iff_of_false (nameMarker_absent noQuote) (by simp [allMembers])
  | .text value => by
    have alone := nameMarker_infix_quoted_iff isWord value []
    rw [List.append_nil] at alone
    rw [render, alone]
    simp [allMembers]
  | .array items => by
    rw [render, nameMarker_infix_between_iff isWord (by decide) (by decide),
      nameMarker_infix_renderItems_iff isWord items]
    simp [allMembers]
  | .object members => by
    rw [render, nameMarker_infix_between_iff isWord (by decide) (by decide),
      nameMarker_infix_renderMembers_iff isWord members]
    simp [allMembers]

theorem nameMarker_infix_renderItems_iff (isWord : Word word) : (items : List Json) →
    (nameMarker word <:+: renderItems items ↔ ∃ member ∈ allMembersOfItems items, Names word member)
  | [] => by simp [renderItems, allMembersOfItems]
  | [item] => by
    rw [renderItems, nameMarker_infix_render_iff isWord item]
    simp [allMembersOfItems]
  | item :: next :: items => by
    rw [renderItems, infix_append_cons (not_mem_nameMarker isWord (by decide) (by decide)),
      nameMarker_infix_render_iff isWord item, nameMarker_infix_renderItems_iff isWord
        (next :: items)]
    simp only [allMembersOfItems, List.mem_append, or_and_right, exists_or]

theorem nameMarker_infix_renderMembers_iff (isWord : Word word) : (members : List Member) →
    (nameMarker word <:+: renderMembers members ↔ ∃ member ∈ allMembersOfMembers members,
      Names word member)
  | [] => by simp [renderMembers, allMembersOfMembers]
  | [member] => by
    rw [renderMembers, nameMarker_infix_renderMember_iff isWord member]
    simp [allMembersOfMembers]
  | member :: next :: members => by
    rw [renderMembers, infix_append_cons (not_mem_nameMarker isWord (by decide) (by decide)),
      nameMarker_infix_renderMember_iff isWord member, nameMarker_infix_renderMembers_iff isWord
        (next :: members)]
    simp only [allMembersOfMembers, List.mem_append, or_and_right, exists_or]

theorem nameMarker_infix_renderMember_iff (isWord : Word word) : (member : Member) →
    (nameMarker word <:+: renderMember member ↔ ∃ inside ∈ allMembersOfMember member,
      Names word inside)
  | .mk name value => by
    rw [renderMember, nameMarker_infix_quoted_iff isWord, nameMarker_infix_cons_iff isWord
      (by decide),
      nameMarker_infix_render_iff isWord value, List.cons_prefix_cons, quote_prefix_render_iff]
    have here : (word <:+ name.toList ∧ ':' = ':' ∧ ∃ text, value = .text text) ↔ Names word
        (.mk name value) := by
      constructor
      · rintro ⟨ends, _, text, rfl⟩
        exact ⟨name, text, rfl, ends⟩
      · rintro ⟨_, text, same, ends⟩
        cases same
        exact ⟨ends, rfl, text, rfl⟩
    rw [here]
    simp [allMembersOfMember]

end

end Names

end Json

end TrainWatch.Library
