import CalendarDial.Proofs.Json.Lexer
import CalendarDial.Proofs.Json.Parser

/-!
# A tree is read back from either of its forms

Both forms of a tree have its symbols and nothing else but blanks: between the parts of a container
stands one comma, and each part ends before it. That the strings and the numbers in the tree are
spelled as such is all that is asked of it.
-/

namespace CalendarDial.Json

/-- Between one part and the next stands the separator, and there is none after the last. -/
theorem separated_cons_cons (separator part next : List Char) (parts : List (List Char)) :
    separated separator (part :: next :: parts) =
      part ++ separator ++ separated separator (next :: parts) := by
  rw [separated]
  exact nofun

namespace Tree

/-- The compact items are each item in its compact form. -/
theorem compactItems_eq_map (items : List Tree) : compactItems items = items.map compact :=
  eq_map_of_cons compact compactItems rfl (fun _ _ => rfl) items

/-- The compact members are each key in quotes, a colon, and the value in its compact form. -/
theorem compactMembers_eq_map (members : List (List Char × Tree)) :
    compactMembers members =
      members.map fun member => quoted member.1 ++ ':' :: member.2.compact :=
  eq_map_of_cons _ compactMembers rfl (fun _ _ => rfl) members

/-- The spread items are each item in its spread form at the given level. -/
theorem spreadItems_eq_map (level : Nat) (items : List Tree) :
    spreadItems level items = items.map (spread level) :=
  eq_map_of_cons (spread level) (spreadItems level) rfl (fun _ _ => rfl) items

/-- The spread members are each key in quotes, a colon and a space, and the value in its spread
form. -/
theorem spreadMembers_eq_map (level : Nat) (members : List (List Char × Tree)) :
    spreadMembers level members =
      members.map fun member => quoted member.1 ++ ':' :: ' ' :: member.2.spread level :=
  eq_map_of_cons _ (spreadMembers level) rfl (fun _ _ => rfl) members

end Tree

namespace Lexer

/-- Blanks are passed over, one after the other. -/
theorem Reads.blanks {text : List Char} {tokens : List Token} (blanks : List Char)
    (blank : ∀ c ∈ blanks, isBlank c = true) (rest : Reads text tokens) :
    Reads (blanks ++ text) tokens := by
  induction blanks with
  | nil => exact rest
  | cons c blanks inductionHypothesis =>
    rw [List.forall_mem_cons] at blank
    exact (inductionHypothesis blank.2).blank c blank.1

/-- A blank ends a word. -/
theorem ends_of_isBlank (c : Char) (blank : isBlank c = true) : continuesWord c = false := by
  rw [continuesWord, blank]
  rfl

/-- A punctuation mark ends a word. -/
theorem ends_of_mark (c : Char) (token : Token) (mark : punctuation? c = some token) :
    continuesWord c = false := by
  rw [continuesWord, mark, Option.isSome_some, Bool.or_true]
  rfl

/-- Parts with commas and blanks between them are read part by part: whatever a part ends with, the
comma ends it. The induction is on the parts: what follows the first one begins with a comma. -/
theorem Reads.separated {α : Type} (blanks : List Char) (blank : ∀ c ∈ blanks, isBlank c = true)
    (text : α → List Char) (symbols : α → List Token) (parts : List α)
    (each : ∀ part ∈ parts, Reads (text part) (symbols part)) :
    Reads (separated (',' :: blanks) (parts.map text))
      ([Token.comma].intercalate (parts.map symbols)) := by
  induction parts with
  | nil => exact .nil
  | cons part parts inductionHypothesis =>
    obtain ⟨first, later⟩ := List.forall_mem_cons.mp each
    have rest := ((inductionHypothesis later).blanks blanks blank).mark ',' .comma rfl
    cases parts with
    | nil =>
      rwa [List.map_singleton, List.map_singleton, Json.separated, List.intercalate_singleton]
    | cons next parts =>
      have both := first.append rest fun c begins => by
        cases begins
        rfl
      rw [List.map_cons, List.map_cons, List.map_cons, List.map_cons, separated_cons_cons,
        List.append_assoc, List.intercalate_cons_cons, List.append_assoc]
      exact both

/-- Blanks and a closing mark after a text add one symbol. Whichever comes first ends a word that
the text may have ended inside of. -/
theorem Reads.close {text : List Char} {tokens : List Token} (blanks : List Char) (c : Char)
    (token : Token) (blank : ∀ c ∈ blanks, isBlank c = true) (mark : punctuation? c = some token)
    (inside : Reads text tokens) : Reads (text ++ (blanks ++ [c])) (tokens ++ [token]) := by
  have last := (Reads.nil.mark c token mark).blanks blanks blank
  refine inside.append last fun first begins => ?_
  cases blanks with
  | nil =>
    cases begins
    exact ends_of_mark c token mark
  | cons space blanks =>
    cases begins
    exact ends_of_isBlank _ (blank _ List.mem_cons_self)

end Lexer

namespace Tree

/-- Every string and every number in the tree is spelled as one. -/
inductive Spelled : Tree → Prop where
  | null : Spelled .null
  | bool (value : Bool) : Spelled (.bool value)
  | number (spelling : List Char) (one : Lexer.Reads spelling [.number spelling]) :
      Spelled (.number spelling)
  | string (spelling : List Char) (one : Lexer.Reads (quoted spelling) [.string spelling]) :
      Spelled (.string spelling)
  | array (items : List Tree) (each : ∀ item ∈ items, Spelled item) : Spelled (.array items)
  | object (members : List (List Char × Tree))
      (keys : ∀ member ∈ members, Lexer.Reads (quoted member.1) [.string member.1])
      (values : ∀ member ∈ members, Spelled member.2) : Spelled (.object members)

/-- A key, a colon, and the value after it. The key is a string in its quotes, so the colon does not
go on with it. -/
theorem reads_member (member : List Char × Tree) (blanks text : List Char)
    (blank : ∀ c ∈ blanks, isBlank c = true)
    (key : Lexer.Reads (quoted member.1) [.string member.1])
    (value : Lexer.Reads text member.2.tokens) :
    Lexer.Reads (quoted member.1 ++ ':' :: (blanks ++ text)) (memberTokens member) :=
  key.append ((value.blanks blanks blank).mark ':' .colon rfl) fun c begins => by
    cases begins
    rfl

/-- The compact form of a tree has its symbols. The induction is on the tree: the parts of a
container have theirs, commas stand between them, and the marks around them open and close it. -/
theorem reads_compact (tree : Tree) (spelled : tree.Spelled) :
    Lexer.Reads tree.compact tree.tokens := by
  induction spelled with
  | null => exact Lexer.reads_null
  | bool value =>
    cases value with
    | false => exact Lexer.reads_false
    | true => exact Lexer.reads_true
  | number spelling one => exact one
  | string spelling one => exact one
  | array items _ each =>
    have inside := Lexer.Reads.separated [] nofun compact tokens items each
    rw [compact, tokens, compactItems_eq_map, tokensOfItems_eq_map]
    exact (inside.close [] ']' .closeArray nofun rfl).mark '[' .openArray rfl
  | object members keys _ values =>
    have inside := Lexer.Reads.separated [] nofun
      (fun member => quoted member.1 ++ ':' :: member.2.compact) memberTokens members
      fun member present =>
        reads_member member [] _ nofun (keys member present) (values member present)
    rw [compact, tokens, compactMembers_eq_map, tokensOfMembers_eq_map]
    exact (inside.close [] '\x7d' .closeObject nofun rfl).mark '\x7b' .openObject rfl

/-- A new line is blank: a line break and spaces. -/
theorem isBlank_newLine (level : Nat) : ∀ c ∈ newLine level, isBlank c = true := by
  intro c present
  rcases List.mem_cons.mp present with rfl | space
  · rfl
  · rw [List.eq_of_mem_replicate space]
    rfl

/-- The spread form of a tree has its symbols. It differs from the compact one in blanks alone,
which stand before each part, before the closing mark and after a colon. -/
theorem reads_spread (tree : Tree) (spelled : tree.Spelled) (level : Nat) :
    Lexer.Reads (tree.spread level) tree.tokens := by
  induction spelled generalizing level with
  | null => exact Lexer.reads_null
  | bool value =>
    cases value with
    | false => exact Lexer.reads_false
    | true => exact Lexer.reads_true
  | number spelling one => exact one
  | string spelling one => exact one
  | array items _ each =>
    cases items with
    | nil => exact (Lexer.Reads.nil.mark ']' .closeArray rfl).mark '[' .openArray rfl
    | cons item items =>
      have inside := Lexer.Reads.separated (newLine (level + 1)) (isBlank_newLine (level + 1))
        (spread (level + 1)) tokens (item :: items)
        fun part present => each part present (level + 1)
      have closed := inside.close (newLine level) ']' .closeArray (isBlank_newLine level) rfl
      have opened := (closed.blanks _ (isBlank_newLine (level + 1))).mark '[' .openArray rfl
      rw [spread, tokens, spreadItems_eq_map, tokensOfItems_eq_map]
      · simpa only [List.cons_append, List.append_assoc] using opened
      · exact List.cons_ne_nil _ _
  | object members keys _ values =>
    cases members with
    | nil => exact (Lexer.Reads.nil.mark '\x7d' .closeObject rfl).mark '\x7b' .openObject rfl
    | cons member members =>
      have inside := Lexer.Reads.separated (newLine (level + 1)) (isBlank_newLine (level + 1))
        (fun member => quoted member.1 ++ ':' :: ' ' :: member.2.spread (level + 1)) memberTokens
        (member :: members) fun part present =>
          reads_member part [' '] _ (List.forall_mem_singleton.mpr rfl) (keys part present)
            (values part present (level + 1))
      have closed := inside.close (newLine level) '\x7d' .closeObject (isBlank_newLine level) rfl
      have opened := (closed.blanks _ (isBlank_newLine (level + 1))).mark '\x7b' .openObject rfl
      rw [spread, tokens, spreadMembers_eq_map, tokensOfMembers_eq_map]
      · simpa only [List.cons_append, List.append_assoc] using opened
      · exact List.cons_ne_nil _ _

/-- A text that has the symbols of a tree is parsed as the tree. Reading it from the start leaves
nothing open, so its symbols are those of the tree. -/
theorem parse?_of_reads (text : List Char) (tree : Tree) (reads : Lexer.Reads text tree.tokens) :
    parse? text = some tree := by
  obtain ⟨state, ran, completed⟩ := reads []
  have lexed : tokens? text = some tree.tokens := by
    rw [tokens?, Lexer.State.start, ran, Option.bind_some, Lexer.finish_eq, completed,
      List.append_nil, Option.map_some, List.reverse_reverse]
  rw [parse?, lexed, Option.bind_some, ofTokens?_tokens]

/-- A tree is parsed back from its compact form. -/
theorem parse?_compact (tree : Tree) (spelled : tree.Spelled) : parse? tree.compact = some tree :=
  parse?_of_reads _ tree (reads_compact tree spelled)

/-- A tree is parsed back from its spread form. -/
theorem parse?_spread (tree : Tree) (spelled : tree.Spelled) (level : Nat) :
    parse? (tree.spread level) = some tree :=
  parse?_of_reads _ tree (reads_spread tree spelled level)

end Tree

end CalendarDial.Json
