import CalendarDial.Proofs.Json.Number
import CalendarDial.Proofs.Json.Quoted

/-!
# Reading the symbols of a text piece by piece

What is read from a piece of text does not depend on the text before it, if that ends outside
strings. A word is complete only when something else follows it or the text ends, so a piece may end
inside a word; the next piece then has to begin with a character that no word can hold. Blanks,
punctuation marks, the words of constants and integers, and strings are such pieces.
-/

namespace CalendarDial.Json

namespace Lexer

/-- The symbols that have been read if a word that is being read ends here, the last one first. -/
def State.completed? (state : State) : Option (List Token) :=
  match state.place with
  | .between => some state.tokens
  | .word read => (Token.ofWord? read.reverse).map (· :: state.tokens)
  | _ => none

/-- A text ends where all its symbols are completed, and then these are put in order. -/
theorem finish_eq (state : State) : finish state = state.completed?.map List.reverse := by
  obtain ⟨tokens, place⟩ := state
  cases place with
  | word read =>
    rw [finish, State.completed?, Option.map_map]
    rfl
  | _ => rfl

/-- A character that no word can hold ends the word before it, and is then read as it is between
words. -/
theorem step_of_completed (state : State) (tokens : List Token) (c : Char)
    (completed : state.completed? = some tokens) (ends : continuesWord c = false) :
    step state c = step ⟨tokens, .between⟩ c := by
  obtain ⟨earlier, place⟩ := state
  cases place with
  | between =>
    cases completed
    rfl
  | word read =>
    obtain ⟨token, found, rfl⟩ := Option.map_eq_some_iff.mp completed
    simp only [step, ends, Bool.false_eq_true, if_false, found, Option.map_some]
  | string read => cases completed
  | escape read => cases completed
  | unicode missing read => cases completed

/-- Outside words and strings the text is read as these symbols, whatever comes before it. It may
end inside a word, which counts as its last symbol. -/
def Reads (text : List Char) (tokens : List Token) : Prop :=
  ∀ before, ∃ state, text.foldlM step ⟨before, .between⟩ = some state ∧
    state.completed? = some (tokens.reverse ++ before)

/-- Nothing is read from no text. -/
theorem Reads.nil : Reads [] [] := fun before => ⟨⟨before, .between⟩, rfl, rfl⟩

/-- Two texts are read one after the other, if the second does not go on with a word of the first.
The first text may have ended inside a word. The next character then completes it, and goes on from
there as it does in the reading of the second text. -/
theorem Reads.append {first second : List Char} {firstTokens secondTokens : List Token}
    (one : Reads first firstTokens) (two : Reads second secondTokens)
    (apart : ∀ c ∈ second.head?, continuesWord c = false) :
    Reads (first ++ second) (firstTokens ++ secondTokens) := by
  intro before
  obtain ⟨middle, ran, completed⟩ := one before
  obtain ⟨last, ranOn, finished⟩ := two (firstTokens.reverse ++ before)
  rw [List.reverse_append, List.append_assoc, List.foldlM_append, ran]
  cases second with
  | nil =>
    cases ranOn
    exact ⟨middle, rfl, completed.trans finished⟩
  | cons c second =>
    refine ⟨last, ?_, finished⟩
    have same := step_of_completed middle _ c completed (apart c rfl)
    rw [List.foldlM_cons] at ranOn
    simp only [bind, Option.bind_some, List.foldlM_cons, same]
    exact ranOn

/-- A blank is passed over, so the rest is read as if it began here. -/
theorem Reads.blank {text : List Char} {tokens : List Token} (c : Char) (blank : isBlank c = true)
    (rest : Reads text tokens) : Reads (c :: text) tokens := by
  intro before
  obtain ⟨state, ran, completed⟩ := rest before
  refine ⟨state, ?_, completed⟩
  rw [List.foldlM_cons, step, openWith, if_pos blank]
  exact ran

/-- A punctuation mark is a symbol of its own, neither blank nor the quote that would open a
string. -/
theorem Reads.mark {text : List Char} {tokens : List Token} (c : Char) (token : Token)
    (mark : punctuation? c = some token) (rest : Reads text tokens) :
    Reads (c :: text) (token :: tokens) := by
  intro before
  obtain ⟨state, ran, completed⟩ := rest (token :: before)
  have notBlank : isBlank c = false := by
    unfold punctuation? at mark
    split at mark <;> first | rfl | cases mark
  have notQuote : c ≠ '"' := by
    rintro rfl
    cases mark
  refine ⟨state, ?_, ?_⟩
  · rw [List.foldlM_cons, step, openWith, notBlank, if_neg Bool.false_ne_true, if_neg notQuote,
      mark]
    exact ran
  · rw [completed, List.reverse_cons, List.append_assoc, List.singleton_append]

/-- Characters of words go on with the word that is being read, each put in front of those that came
earlier. -/
theorem foldlM_word (before : List Token) (read cs : List Char)
    (within : ∀ c ∈ cs, continuesWord c = true) :
    cs.foldlM step ⟨before, .word read⟩ = some ⟨before, .word (cs.reverse ++ read)⟩ := by
  induction cs generalizing read with
  | nil => rfl
  | cons c cs inductionHypothesis =>
    rw [List.forall_mem_cons] at within
    have goesOn : step ⟨before, .word read⟩ c = some ⟨before, .word (c :: read)⟩ := by
      simp only [step, within.1, if_true]
    rw [List.foldlM_cons, goesOn, List.reverse_cons, List.append_assoc]
    exact inductionHypothesis (c :: read) within.2

/-- A character that can be part of a word begins one, for it is no blank, no quote and no mark. -/
theorem openWith_of_continuesWord (tokens : List Token) (c : Char)
    (within : continuesWord c = true) : openWith tokens c = ⟨tokens, .word [c]⟩ := by
  simp only [continuesWord, Bool.not_eq_true', Bool.or_eq_false_iff, decide_eq_false_iff_not,
    Option.isSome_eq_false_iff, Option.isNone_iff_eq_none] at within
  obtain ⟨⟨notBlank, notQuote⟩, notMark⟩ := within
  rw [openWith, notBlank, if_neg Bool.false_ne_true, if_neg notQuote, notMark]

/-- A word is one symbol, completed where the text ends. -/
theorem reads_word (word : List Char) (token : Token) (made : Token.ofWord? word = some token)
    (within : ∀ c ∈ word, continuesWord c = true) : Reads word [token] := by
  intro before
  cases word with
  | nil => cases made
  | cons c cs =>
    rw [List.forall_mem_cons] at within
    refine ⟨⟨before, .word (cs.reverse ++ [c])⟩, ?_, ?_⟩
    · rw [List.foldlM_cons, step, openWith_of_continuesWord before c within.1]
      exact foldlM_word before [c] cs within.2
    · simp only [State.completed?, List.reverse_append, List.reverse_reverse,
        List.reverse_singleton, List.singleton_append, made, Option.map_some]

/-- The null constant is read from its name, a word that is known. -/
theorem reads_null : Reads "null".toList [.null] :=
  reads_word _ _ rfl (List.all_eq_true.mp rfl)

/-- The true constant is read from its name, a word that is known. -/
theorem reads_true : Reads "true".toList [.bool true] :=
  reads_word _ _ rfl (List.all_eq_true.mp rfl)

/-- The false constant is read from its name, a word that is known. -/
theorem reads_false : Reads "false".toList [.bool false] :=
  reads_word _ _ rfl (List.all_eq_true.mp rfl)

/-- What ends a word is no digit: it is a blank, a quote or a punctuation mark. -/
theorem isDigit_of_ends (c : Char) (ends : continuesWord c = false) : c.isDigit = false := by
  simp only [continuesWord, isBlank, Bool.not_eq_false', Bool.or_eq_true,
    decide_eq_true_eq] at ends
  obtain ((((rfl | rfl) | rfl) | rfl) | rfl) | mark := ends
  · rfl
  · rfl
  · rfl
  · rfl
  · rfl
  · unfold punctuation? at mark
    split at mark <;> first | rfl | cases mark

/-- A digit can be part of a word. -/
theorem continuesWord_of_isDigit (c : Char) (digit : c.isDigit = true) :
    continuesWord c = true := by
  cases within : continuesWord c with
  | true => rfl
  | false => exact absurd ((isDigit_of_ends c within).symm.trans digit) Bool.false_ne_true

/-- The spelling of an integer is a number. It is no name, since a name begins with a letter, and
none of its characters ends a word. -/
theorem reads_signed (n : Int) : Reads (Text.signed n) [.number (Text.signed n)] := by
  have noName : ∀ letter cs, letter ≠ '-' → letter.isDigit = false →
      Text.signed n ≠ letter :: cs := by
    intro letter cs notMinus notDigit same
    rcases Text.minus_or_digit_of_mem_signed n letter (same ▸ List.mem_cons_self) with minus | digit
    · exact notMinus minus
    · exact Bool.false_ne_true (notDigit.symm.trans digit)
  refine reads_word _ _ ?_ fun c present => ?_
  · have notNull : Text.signed n ≠ "null".toList := noName 'n' _ (by decide) (by decide)
    have notTrue : Text.signed n ≠ "true".toList := noName 't' _ (by decide) (by decide)
    have notFalse : Text.signed n ≠ "false".toList := noName 'f' _ (by decide) (by decide)
    rw [Token.ofWord?, if_neg notNull, if_neg notTrue, if_neg notFalse, NumberParts.read_signed,
      Option.map_some]
  · rcases Text.minus_or_digit_of_mem_signed n c present with rfl | digit
    · decide
    · exact continuesWord_of_isDigit c digit

/-- The letters of escapes are those that are known, so each of them ends its escape and the string
goes on. -/
theorem step_escape (before : List Token) (read : List Char) (letter c : Char)
    (meant : escaped? letter = some c) :
    step ⟨before, .escape read⟩ letter = some ⟨before, .string (letter :: read)⟩ := by
  unfold escaped? at meant
  split at meant <;> first | rfl | cases meant

/-- The digits of a unit are hexadecimal, for otherwise they would denote none. -/
theorem isSome_hexValue?_of_unit? (a b c d : Char) (n : Nat) (named : unit? a b c d = some n) :
    (Text.hexValue? a).isSome ∧ (Text.hexValue? b).isSome ∧ (Text.hexValue? c).isSome ∧
      (Text.hexValue? d).isSome := by
  simp only [unit?, Option.bind_eq_bind, Option.bind_eq_some_iff] at named
  obtain ⟨_, first, _, second, _, third, _, fourth, -⟩ := named
  simp only [first, second, third, fourth, Option.isSome_some, and_self]

/-- Four hexadecimal digits end an escape, and the string goes on behind them. -/
theorem foldlM_unicode (before : List Token) (read : List Char) (a b c d : Char) (n : Nat)
    (named : unit? a b c d = some n) :
    [a, b, c, d].foldlM step ⟨before, .unicode 3 read⟩ =
      some ⟨before, .string ([a, b, c, d].reverse ++ read)⟩ := by
  obtain ⟨first, second, third, fourth⟩ := isSome_hexValue?_of_unit? a b c d n named
  simp only [List.foldlM_cons, List.foldlM_nil, step, Option.isNone_eq_false_iff.mpr, first,
    second, third, fourth, Bool.false_eq_true, if_false, Option.bind_eq_bind, Option.bind_some]
  rfl

/-- The spelling of a character stays inside the string: whichever of the three forms it has, the
escape that it may open is over where it ends. -/
theorem foldlM_spellChar (before : List Token) (read : List Char) (c : Char) :
    (spellChar c).foldlM step ⟨before, .string read⟩ =
      some ⟨before, .string ((spellChar c).reverse ++ read)⟩ := by
  have spelled := charSpelling_spellChar c
  have opened : ∀ read, step ⟨before, .string read⟩ '\\' =
      some ⟨before, .escape ('\\' :: read)⟩ := fun _ => rfl
  generalize spellChar c = spelling at spelled
  cases spelled with
  | escaped letter meant =>
    rw [List.foldlM_cons, opened, Option.bind_eq_bind, Option.bind_some, List.foldlM_cons,
      step_escape before _ letter c meant]
    rfl
  | unicode third fourth control named =>
    have announced : ∀ read, step ⟨before, .escape read⟩ 'u' =
        some ⟨before, .unicode 3 ('u' :: read)⟩ := fun _ => rfl
    rw [List.foldlM_cons, opened, Option.bind_eq_bind, Option.bind_some, List.foldlM_cons,
      announced, Option.bind_eq_bind, Option.bind_some,
      foldlM_unicode before _ '0' '0' third fourth _ named]
    rfl
  | plain notQuote notBackslash notControl =>
    have kept : step ⟨before, .string read⟩ c = some ⟨before, .string (c :: read)⟩ := by
      simp only [step, if_neg notQuote, if_neg notBackslash, if_neg notControl]
    rw [List.foldlM_cons, kept]
    rfl

/-- The spelling of a text stays inside the string, character by character. -/
theorem foldlM_spell (before : List Token) (read text : List Char) :
    (spell text).foldlM step ⟨before, .string read⟩ =
      some ⟨before, .string ((spell text).reverse ++ read)⟩ := by
  induction text generalizing read with
  | nil => rfl
  | cons c text inductionHypothesis =>
    have first := foldlM_spellChar before read c
    rw [spell, List.flatMap_cons, List.foldlM_append, first, List.reverse_append, List.append_assoc]
    exact inductionHypothesis ((spellChar c).reverse ++ read)

/-- A text between its quotes is one symbol, because no character of its spelling ends the string
early. -/
theorem reads_quoted (text : List Char) :
    Reads (quoted (spell text)) [.string (spell text)] := by
  intro before
  refine ⟨⟨.string (spell text) :: before, .between⟩, ?_, rfl⟩
  have opened : step ⟨before, .between⟩ '"' = some ⟨before, .string []⟩ := rfl
  have closed : step ⟨before, .string (spell text).reverse⟩ '"' =
      some ⟨.string (spell text) :: before, .between⟩ := by
    simp only [step, if_true, List.reverse_reverse]
  rw [quoted, List.cons_append, List.foldlM_cons, opened, Option.bind_eq_bind, Option.bind_some,
    List.foldlM_append, foldlM_spell, List.append_nil, Option.bind_eq_bind, Option.bind_some,
    List.foldlM_cons, closed]
  rfl

end Lexer

end CalendarDial.Json
