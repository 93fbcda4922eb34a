import CalendarDial.Json.Quoted

/-!
# Every text survives as a JSON string

A character is spelled as itself, as an escape of one letter, or as an escape of four digits, which
then name a control character and no half of a surrogate pair. Each of the three stands for the
character whatever follows, so the spelling of a text stands for the text.
-/

namespace CalendarDial.Json

variable {rest tail : List Char}

/-- A character that is no backslash stands for itself, and the reading goes on behind it. -/
theorem meaning?_plain (c : Char) (plain : c ≠ '\\') (read : meaning? rest = some tail) :
    meaning? (c :: rest) = some (c :: tail) := by
  rw [meaning?.eq_def]
  split <;> simp_all

/-- An escape of one letter stands for its character. The letter is not the one that announces four
digits. -/
theorem meaning?_escaped (c meant : Char) (letter : escaped? c = some meant)
    (read : meaning? rest = some tail) : meaning? ('\\' :: c :: rest) = some (meant :: tail) := by
  have notUnicode : c ≠ 'u' := by
    rintro rfl
    exact nomatch letter
  rw [meaning?.eq_def]
  split <;> grind

/-- An escape of four digits that name no surrogate stands for one character, also when another
escape follows: only after a first half would the two be read together. -/
theorem meaning?_unicode (a b c d : Char) (first : Nat) (named : unit? a b c d = some first)
    (notLeading : isLeading first = false) (notTrailing : isTrailing first = false)
    (read : meaning? rest = some tail) :
    meaning? ('\\' :: 'u' :: a :: b :: c :: d :: rest) = some (Char.ofNat first :: tail) := by
  rw [meaning?.eq_def]
  split <;> grind

/-- The four hexadecimal digits of a control character name it. There are only 32 of them, and each
one is looked at. -/
theorem paddedHex_of_control (n : Nat) (control : n < 32) :
    ∃ c d, Text.paddedHex 4 n = ['0', '0', c, d] ∧ unit? '0' '0' c d = some n := by
  have every : ∀ n : Fin 32,
      Text.paddedHex 4 n.val =
        ['0', '0', Nat.digitChar (n.val / 16), Nat.digitChar (n.val % 16)] ∧
      unit? '0' '0' (Nat.digitChar (n.val / 16)) (Nat.digitChar (n.val % 16)) =
        some n.val := by decide +kernel
  exact ⟨_, _, every ⟨n, control⟩⟩

/-- A character is spelled in one of three ways. -/
inductive CharSpelling (c : Char) : List Char → Prop where
  | escaped (letter : Char) (meant : escaped? letter = some c) : CharSpelling c ['\\', letter]
  | unicode (third fourth : Char) (control : c.toNat < 32)
      (named : unit? '0' '0' third fourth = some c.toNat) :
      CharSpelling c ['\\', 'u', '0', '0', third, fourth]
  | plain (notQuote : c ≠ '"') (notBackslash : c ≠ '\\') (notControl : ¬ c.toNat < 32) :
      CharSpelling c [c]

/-- The spelling of a character is one of the three: a letter for those characters that have one,
digits for the other control characters, and the character itself for the rest. -/
theorem charSpelling_spellChar (c : Char) : CharSpelling c (spellChar c) := by
  unfold spellChar
  split
  · next same => exact same ▸ .escaped '"' rfl
  split
  · next same => exact same ▸ .escaped '\\' rfl
  split
  · next same => exact same ▸ .escaped 'n' rfl
  split
  · next same => exact same ▸ .escaped 'r' rfl
  split
  · next same => exact same ▸ .escaped 't' rfl
  split
  · next same => exact same ▸ .escaped 'b' rfl
  split
  · next same => exact same ▸ .escaped 'f' rfl
  split
  · next control =>
    obtain ⟨third, fourth, digits, named⟩ := paddedHex_of_control c.toNat control
    exact digits ▸ .unicode third fourth control named
  · next notQuote notBackslash _ _ _ _ _ notControl =>
    exact .plain notQuote notBackslash notControl

/-- The spelling of a character stands for it, whatever follows. Control characters lie below both
halves of surrogate pairs. -/
theorem meaning?_spellChar (c : Char) (read : meaning? rest = some tail) :
    meaning? (spellChar c ++ rest) = some (c :: tail) := by
  have spelled := charSpelling_spellChar c
  generalize spellChar c = spelling at spelled
  cases spelled with
  | escaped letter meant => exact meaning?_escaped letter c meant read
  | plain _ notBackslash _ => exact meaning?_plain c notBackslash read
  | unicode third fourth control named =>
    have leading : isLeading c.toNat = false := by
      simp only [isLeading, Bool.and_eq_false_iff, decide_eq_false_iff_not]
      omega
    have trailing : isTrailing c.toNat = false := by
      simp only [isTrailing, Bool.and_eq_false_iff, decide_eq_false_iff_not]
      omega
    have meant := meaning?_unicode _ _ _ _ c.toNat named leading trailing read
    rwa [Char.ofNat_toNat] at meant

/-- The spelling of a text stands for it, character by character from the end. -/
theorem meaning?_spell (text : List Char) : meaning? (spell text) = some text := by
  induction text with
  | nil => rfl
  | cons c text inductionHypothesis =>
    rw [spell, List.flatMap_cons]
    exact meaning?_spellChar c inductionHypothesis

end CalendarDial.Json
