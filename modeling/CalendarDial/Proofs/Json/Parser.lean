import CalendarDial.Json.Parser

/-!
# A tree is parsed back from its symbols

The symbols of a tree are listed by recursion over it. Wherever a value is expected they complete
the tree, whatever containers are open; for an array and an object this is an induction over what
has been taken into the open container already. A whole tree is the case without open containers.
-/

namespace CalendarDial.Json

/-- What is made of a list element by element is its image. A recursion over trees needs such a
function written out beside it. -/
theorem eq_map_of_cons {α β : Type} (part : α → β) (parts : List α → List β)
    (nil : parts [] = [])
    (cons : ∀ element elements, parts (element :: elements) = part element :: parts elements)
    (elements : List α) : parts elements = elements.map part := by
  induction elements with
  | nil => exact nil
  | cons element elements inductionHypothesis => rw [cons, inductionHypothesis, List.map_cons]

namespace Tree

/-- What holds of a tree as soon as it holds of all its parts holds of every tree. -/
@[elab_as_elim]
theorem induction {motive : Tree → Prop} (null : motive .null)
    (bool : ∀ value, motive (.bool value)) (number : ∀ spelling, motive (.number spelling))
    (string : ∀ spelling, motive (.string spelling))
    (array : ∀ items, (∀ item ∈ items, motive item) → motive (.array items))
    (object : ∀ members, (∀ member ∈ members, motive member.2) → motive (.object members))
    (tree : Tree) : motive tree := by
  cases tree with
  | null => exact null
  | bool value => exact bool value
  | number spelling => exact number spelling
  | string spelling => exact string spelling
  | array items =>
    exact array items fun item _ => induction null bool number string array object item
  | object members =>
    exact object members fun member _ => induction null bool number string array object member.2
termination_by sizeOf tree
decreasing_by
  · have smaller := List.sizeOf_lt_of_mem ‹item ∈ items›
    simp only [Tree.array.sizeOf_spec]
    omega
  · have smaller := List.sizeOf_lt_of_mem ‹member ∈ members›
    obtain ⟨key, value⟩ := member
    simp only [Tree.object.sizeOf_spec, Prod.mk.sizeOf_spec] at smaller ⊢
    omega

mutual

/-- The symbols of a tree. Between its parts a container has commas. -/
def tokens : Tree → List Token
  | null => [.null]
  | bool value => [.bool value]
  | number spelling => [.number spelling]
  | string spelling => [.string spelling]
  | array items => .openArray :: [.comma].intercalate (tokensOfItems items) ++ [.closeArray]
  | object members =>
    .openObject :: [.comma].intercalate (tokensOfMembers members) ++ [.closeObject]

/-- The symbols of each item of an array. -/
def tokensOfItems : List Tree → List (List Token)
  | [] => []
  | item :: items => item.tokens :: tokensOfItems items

/-- The symbols of each member of an object. -/
def tokensOfMembers : List (List Char × Tree) → List (List Token)
  | [] => []
  | (key, value) :: members => (.string key :: .colon :: value.tokens) :: tokensOfMembers members

end

/-- The symbols of the items are those of each item, in turn. -/
theorem tokensOfItems_eq_map (items : List Tree) : tokensOfItems items = items.map tokens :=
  eq_map_of_cons tokens tokensOfItems rfl (fun _ _ => rfl) items

/-- The symbols of a member. -/
def memberTokens (member : List Char × Tree) : List Token :=
  .string member.1 :: .colon :: member.2.tokens

/-- The symbols of the members are those of each member, in turn. -/
theorem tokensOfMembers_eq_map (members : List (List Char × Tree)) :
    tokensOfMembers members = members.map memberTokens :=
  eq_map_of_cons memberTokens tokensOfMembers rfl (fun _ _ => rfl) members

end Tree

namespace Parser

/-- A value is expected next. -/
def State.AwaitsValue (state : State) : Prop :=
  state.expectation = .value ∨ state.expectation = .firstItem

/-- A key is expected next, after the given members. -/
def State.AwaitsKey (state : State) (before : List (List Char × Tree)) : Prop :=
  state.expectation = .key before ∨ state.expectation = .firstKey before

/-- Wherever a value is expected, it is completed by these symbols. -/
def Completes (value : Tree) (tokens : List Token) : Prop :=
  ∀ state : State, state.AwaitsValue →
    tokens.foldlM step state = some (complete state.containers value)

/-- Where a value is expected, a symbol begins one, unless it closes an empty array. This is the
only symbol that tells the start of an array from other places for values. -/
theorem step_of_awaitsValue (state : State) (token : Token) (awaits : state.AwaitsValue)
    (opens : token ≠ .closeArray) : step state token = beginValue state.containers token := by
  obtain ⟨containers, expectation⟩ := state
  rcases awaits with rfl | rfl
  · rfl
  · simp only [step]
    split
    · exact absurd rfl opens
    · rfl

/-- Where a key is expected, a string is one. -/
theorem step_of_awaitsKey (state : State) (before : List (List Char × Tree)) (key : List Char)
    (awaits : state.AwaitsKey before) :
    step state (.string key) = some ⟨.object before key :: state.containers, .colon⟩ := by
  obtain ⟨containers, expectation⟩ := state
  rcases awaits with rfl | rfl <;> rfl

/-- A single symbol completes its value. -/
theorem completes_singleton (value : Tree) (token : Token) (opens : token ≠ .closeArray)
    (whole : ∀ containers, beginValue containers token = some (complete containers value)) :
    Completes value [token] := by
  intro state awaits
  rw [List.foldlM_cons, step_of_awaitsValue state token awaits opens, whole]
  rfl

/-- The symbols of further items are taken into an open array, which then is closed. The induction
is on the items that follow, for any that are in the container already: each is completed, and the
comma after it asks for the next. -/
theorem foldlM_items (outer : List Container) (item : Tree) (items before : List Tree)
    (state : State) (awaits : state.AwaitsValue)
    (inside : state.containers = .array before :: outer)
    (each : ∀ part ∈ item :: items, Completes part part.tokens) :
    ([Token.comma].intercalate ((item :: items).map Tree.tokens) ++ [Token.closeArray]).foldlM step
        state =
      some (complete outer (.array (before.reverse ++ item :: items))) := by
  induction items generalizing item before state with
  | nil =>
    have first := each item List.mem_cons_self state awaits
    rw [List.map_singleton, List.intercalate_singleton, List.foldlM_append, first, inside,
      ← List.reverse_cons]
    rfl
  | cons next items inductionHypothesis =>
    obtain ⟨one, later⟩ := List.forall_mem_cons.mp each
    have first := one state awaits
    have rest := inductionHypothesis next (item :: before)
      ⟨.array (item :: before) :: outer, .value⟩ (.inl rfl) rfl later
    rw [List.reverse_cons, List.append_assoc, List.singleton_append] at rest
    rw [List.map_cons, List.map_cons, List.intercalate_cons_cons, List.append_assoc,
      List.append_assoc, List.foldlM_append, first, inside]
    exact rest

/-- The symbols of a member are taken where a key is expected: the key, the colon, and those that
complete its value. -/
theorem foldlM_member (before : List (List Char × Tree)) (member : List Char × Tree)
    (state : State) (awaits : state.AwaitsKey before)
    (completes : Completes member.2 member.2.tokens) :
    (Tree.memberTokens member).foldlM step state =
      some ⟨.object (member :: before) member.1 :: state.containers, .separator⟩ := by
  have value := completes ⟨.object before member.1 :: state.containers, .value⟩ (.inl rfl)
  rw [Tree.memberTokens, List.foldlM_cons, step_of_awaitsKey state before member.1 awaits]
  exact value

/-- The symbols of further members are taken into an open object, which then is closed. As for
items, each member is taken in, and the comma after it asks for the next key. -/
theorem foldlM_members (member : List Char × Tree) (members before : List (List Char × Tree))
    (state : State) (awaits : state.AwaitsKey before)
    (each : ∀ part ∈ member :: members, Completes part.2 part.2.tokens) :
    ([Token.comma].intercalate ((member :: members).map Tree.memberTokens) ++
        [Token.closeObject]).foldlM step state =
      some (complete state.containers (.object (before.reverse ++ member :: members))) := by
  induction members generalizing member before state with
  | nil =>
    have first := foldlM_member before member state awaits (each member List.mem_cons_self)
    rw [List.map_singleton, List.intercalate_singleton, List.foldlM_append, first,
      ← List.reverse_cons]
    rfl
  | cons next members inductionHypothesis =>
    obtain ⟨one, later⟩ := List.forall_mem_cons.mp each
    have first := foldlM_member before member state awaits one
    have rest := inductionHypothesis next (member :: before)
      ⟨state.containers, .key (member :: before)⟩ (.inl rfl) later
    rw [List.reverse_cons, List.append_assoc, List.singleton_append] at rest
    rw [List.map_cons, List.map_cons, List.intercalate_cons_cons, List.append_assoc,
      List.append_assoc, List.foldlM_append, first]
    exact rest

/-- The symbols of a tree complete it wherever a value is expected. A constant, a number or a string
is a single symbol. A container is empty, or the lemma about its parts takes them in, starting from
none. -/
theorem completes_tokens (tree : Tree) : Completes tree tree.tokens := by
  induction tree using Tree.induction with
  | null => exact completes_singleton _ _ nofun fun _ => rfl
  | bool value => exact completes_singleton _ _ nofun fun _ => rfl
  | number spelling => exact completes_singleton _ _ nofun fun _ => rfl
  | string spelling => exact completes_singleton _ _ nofun fun _ => rfl
  | array items each =>
    intro state awaits
    have opened := step_of_awaitsValue state .openArray awaits nofun
    rw [Tree.tokens, List.cons_append, List.foldlM_cons, opened, Tree.tokensOfItems_eq_map]
    cases items with
    | nil => rfl
    | cons item items =>
      exact foldlM_items state.containers item items [] ⟨.array [] :: state.containers, .firstItem⟩
        (.inr rfl) rfl each
  | object members each =>
    intro state awaits
    have opened := step_of_awaitsValue state .openObject awaits nofun
    rw [Tree.tokens, List.cons_append, List.foldlM_cons, opened, Tree.tokensOfMembers_eq_map]
    cases members with
    | nil => rfl
    | cons member members =>
      exact foldlM_members member members [] ⟨state.containers, .firstKey []⟩ (.inr rfl) each

end Parser

/-- The symbols of a tree are parsed as the tree, since a value is expected at the start and nothing
is open. -/
theorem Tree.ofTokens?_tokens (tree : Tree) : ofTokens? tree.tokens = some tree := by
  rw [ofTokens?, Parser.completes_tokens tree Parser.State.start (.inl rfl)]
  rfl

end CalendarDial.Json
