import CalendarDial.Proofs.Checked
import CalendarDial.Proofs.Json.Printer

/-!
# Reading back what has been written

The trees of integers, texts, lists and records are spelled as such, and what is read from them is
what they were made of, as long as the integers lie in their ranges. Read integers always do. A type
for which all of this is known is lawful: its values survive being written as text and read again,
whatever text they came from.
-/

namespace CalendarDial.Json

/-- What is read from a list comes from its elements. The elements are read in turn, and each gives
one value. -/
theorem exists_of_mem_mapM {α β : Type} (read : α → Option β) (elements : List α)
    (values : List β) (made : elements.mapM read = some values) (value : β)
    (present : value ∈ values) : ∃ element ∈ elements, read element = some value := by
  induction elements generalizing values with
  | nil =>
    cases made
    cases present
  | cons element elements inductionHypothesis =>
    simp only [List.mapM_cons, Option.bind_eq_bind, Option.bind_eq_some_iff] at made
    obtain ⟨first, one, others, rest, joined⟩ := made
    cases joined
    rcases List.mem_cons.mp present with rfl | later
    · exact ⟨element, List.mem_cons_self, one⟩
    · obtain ⟨source, given, found⟩ := inductionHypothesis others rest later
      exact ⟨source, List.mem_cons_of_mem element given, found⟩

namespace Tree

/-- A natural number is written as the integer that it is, for it has no sign. -/
theorem ofNat_eq_ofInt (n : Nat) : ofNat n = ofInt n := by
  rw [ofNat, ofInt, Text.signed, if_neg (by omega), Int.natAbs_natCast]

/-- An object has its members with their names spelled. -/
theorem ofMembers_eq (members : List (String × Tree)) :
    ofMembers members = object (members.map fun member => (spell member.1.toList, member.2)) :=
  rfl

section Spelled

/-- An integer is spelled as a number, with digits and at most a minus sign. -/
@[simp]
theorem spelled_ofInt (n : Int) : (ofInt n).Spelled := .number _ (Lexer.reads_signed n)

/-- A natural number is spelled as a number, because it is written as the integer that it is. -/
@[simp]
theorem spelled_ofNat (n : Nat) : (ofNat n).Spelled := ofNat_eq_ofInt n ▸ spelled_ofInt n

/-- A text is spelled as a string, in which quotes, backslashes and control characters are
escaped. -/
@[simp]
theorem spelled_ofText (text : String) : (ofText text).Spelled :=
  .string _ (Lexer.reads_quoted text.toList)

/-- An object is spelled as one if the values of its members are. Their names are texts, which are
spelled as strings. -/
theorem spelled_ofMembers (members : List (String × Tree))
    (each : ∀ member ∈ members, member.2.Spelled) : (ofMembers members).Spelled := by
  rw [ofMembers_eq]
  refine .object _ (fun member present => ?_) fun member present => ?_
  · obtain ⟨⟨name, value⟩, -, rfl⟩ := List.mem_map.mp present
    exact Lexer.reads_quoted name.toList
  · obtain ⟨⟨name, value⟩, given, rfl⟩ := List.mem_map.mp present
    exact each _ given

end Spelled

section Read

/-- An integer in the range is read back. Its spelling falls into a sign and digits, which denote
it, and nothing is lost at the bounds. -/
theorem int?_ofInt (least greatest n : Int) (above : least ≤ n) (below : n ≤ greatest) :
    (ofInt n).int? least greatest = some n := by
  simp only [ofInt, int?, NumberParts.read_signed, NumberParts.int?_ofInt, Option.bind_eq_bind,
    Option.bind_some, above, below, and_self, if_true]

/-- An instant is read back, for the range that is looked at is the one of 64 bits. -/
theorem instant?_ofInt (n : Int) (fits : Instant.Representable n) : (ofInt n).instant? = some n :=
  int?_ofInt _ _ n fits.1 fits.2

/-- A natural number up to the bound is read back, as an integer that is not negative. -/
theorem nat?_ofNat (greatest n : Nat) (below : n ≤ greatest) :
    (ofNat n).nat? greatest = some n := by
  rw [nat?, ofNat_eq_ofInt, int?_ofInt 0 greatest n (Int.natCast_nonneg n) (Int.ofNat_le.mpr below)]
  rfl

/-- A text is read back, for its spelling stands for it. -/
theorem text?_ofText (text : String) : (ofText text).text? = some text.toList :=
  meaning?_spell text.toList

/-- A name is the choice of the alternative that has it: the names are compared after reading, as
texts. -/
theorem choice?_ofText {α : Type} (alternatives : List (String × α)) (name : String) :
    (ofText name).choice? alternatives =
      (alternatives.find? fun (alternative, _) => alternative.toList = name.toList).map (·.2) := by
  simp only [choice?, ofText, meaning?_spell, Option.bind_eq_bind, Option.bind_some]

/-- Where no name is there twice, the members of a name are the one that is found first. Behind that
one there is none to be found. -/
theorem filter_eq_lookup (name : String) (members : List (String × Tree))
    (distinct : (members.map Prod.fst).Nodup) :
    members.filter (fun member => member.1 = name) =
      ((members.lookup name).map fun value => (name, value)).toList := by
  induction members with
  | nil => rfl
  | cons member members inductionHypothesis =>
    obtain ⟨key, value⟩ := member
    rw [List.map_cons, List.nodup_cons] at distinct
    by_cases same : key = name
    · subst same
      have none : members.filter (fun member => member.1 = key) = [] := by
        rw [List.filter_eq_nil_iff]
        intro member present found
        exact distinct.1 (List.mem_map.mpr ⟨member, present, of_decide_eq_true found⟩)
      rw [List.filter_cons, if_pos (decide_eq_true rfl), none, List.lookup_cons_self]
      rfl
    · have other : (name == key) = false := beq_false_of_ne (Ne.symm same)
      rw [List.filter_cons_of_neg (by simpa only [decide_eq_true_eq] using same),
        inductionHypothesis distinct.2, List.lookup_cons, other]

/-- The fields of a record that was written with different names are found by their names. The
spellings of the names stand for the names, so looking for a name among what was read is looking it
up among what was written. -/
theorem fields?_ofMembers (members : List (String × Tree)) (names : List String)
    (distinct : (members.map Prod.fst).Nodup) :
    (ofMembers members).fields? names = some (names.map fun name => members.lookup name) := by
  have named : (members.map fun member => (spell member.1.toList, member.2)).mapM
      (fun member => (meaning? member.1).map fun name => (name, member.2)) =
      some (members.map fun member => (member.1.toList, member.2)) := by
    rw [List.mapM_map]
    exact mapM_eq_pure _ _ members fun member _ => by
      rw [Function.comp_apply, meaning?_spell, Option.map_some]
      rfl
  change ((members.map fun member => (spell member.1.toList, member.2)).mapM
    (fun member => (meaning? member.1).map fun name => (name, member.2))).bind _ = _
  rw [named, Option.bind_some]
  refine mapM_eq_pure _ _ names fun name _ => ?_
  have found := filter_eq_lookup name members distinct
  have listed : (members.map fun member => (member.1.toList, member.2)).filter
      (fun member => member.1 = name.toList) =
      (members.filter fun member => member.1 = name).map fun member =>
        (member.1.toList, member.2) := by
    simp only [List.filter_map, Function.comp_def, String.toList_inj]
  rw [listed, found]
  cases members.lookup name <;> rfl

end Read

section Range

/-- An integer that is read lies in the range, for otherwise nothing would have been read. -/
theorem bounds_of_int? (least greatest : Int) (tree : Tree) (n : Int)
    (read : tree.int? least greatest = some n) : least ≤ n ∧ n ≤ greatest := by
  unfold int? at read
  split at read
  · simp only [Option.bind_eq_bind, Option.bind_eq_some_iff, Option.ite_none_right_eq_some] at read
    obtain ⟨_, -, _, -, within, same⟩ := read
    cases same
    exact within
  · cases read

/-- An instant that is read fits into 64 bits. -/
theorem representable_of_instant? (tree : Tree) (n : Int) (read : tree.instant? = some n) :
    Instant.Representable n :=
  bounds_of_int? _ _ tree n read

/-- A natural number that is read is not above the bound, since it is read as an integer between
zero and the bound. -/
theorem le_of_nat? (greatest : Nat) (tree : Tree) (n : Nat)
    (read : tree.nat? greatest = some n) : n ≤ greatest := by
  obtain ⟨number, found, rfl⟩ := Option.map_eq_some_iff.mp read
  have bounds := bounds_of_int? 0 greatest tree number found
  omega

end Range

section Readable

/-- An integer whose magnitude 64 bits hold is meaningful, because all of its digits are leading
ones and denote a finite number. -/
theorem meaningful_ofInt (n : Int) (fits : n.natAbs ≤ greatest64) :
    (ofInt n).meaningful = true := by
  rw [ofInt, meaningful, NumberParts.read_signed, Option.map_some, Option.getD_some]
  exact NumberParts.leadingFinite_ofInt n fits

/-- A natural number that 64 bits hold is meaningful. -/
theorem meaningful_ofNat (n : Nat) (fits : n ≤ greatest64) : (ofNat n).meaningful = true :=
  ofNat_eq_ofInt n ▸ meaningful_ofInt n fits

/-- A text is meaningful, since its spelling stands for something. -/
theorem meaningful_ofText (text : String) : (ofText text).meaningful = true := by
  rw [ofText, meaningful, meaning?_spell, Option.isSome_some]

/-- The tree is meaningful and has no containers in it. -/
def Plain (tree : Tree) : Prop := tree.meaningful = true ∧ tree.nesting = 0

/-- An instant is plain. Its magnitude fits into 64 bits, also where it is the least one. -/
theorem plain_ofInt (n : Int) (fits : Instant.Representable n) : (ofInt n).Plain := by
  obtain ⟨above, below⟩ := fits
  rw [Instant.least] at above
  rw [Instant.greatest] at below
  exact ⟨meaningful_ofInt n (by rw [greatest64]; omega), rfl⟩

/-- A natural number that 64 bits hold is plain. -/
theorem plain_ofNat (n : Nat) (fits : n ≤ greatest64) : (ofNat n).Plain :=
  ⟨meaningful_ofNat n fits, rfl⟩

/-- A natural number that 32 bits hold is plain, since 64 bits hold it too. -/
theorem plain_ofNat32 (n : Nat) (fits : n ≤ greatest32) : (ofNat n).Plain :=
  plain_ofNat n (Nat.le_trans fits (by decide))

/-- A text is plain, whatever characters it has. -/
theorem plain_ofText (text : String) : (ofText text).Plain := ⟨meaningful_ofText text, rfl⟩

/-- Plain members are meaningful and have no containers in them. -/
theorem plain_members (members : List (List Char × Tree))
    (keys : ∀ member ∈ members, (meaning? member.1).isSome = true)
    (values : ∀ member ∈ members, member.2.Plain) :
    meaningfulMembers members = true ∧ nestingOfMembers members = 0 := by
  induction members with
  | nil => exact ⟨rfl, rfl⟩
  | cons member members inductionHypothesis =>
    obtain ⟨key, laterKeys⟩ := List.forall_mem_cons.mp keys
    obtain ⟨⟨meaningful, flat⟩, laterValues⟩ := List.forall_mem_cons.mp values
    obtain ⟨others, rest⟩ := inductionHypothesis laterKeys laterValues
    rw [meaningfulMembers, nestingOfMembers, key, meaningful, flat, others, rest]
    exact ⟨rfl, rfl⟩

/-- An object of plain members can be looked at as a whole: its names and values are meaningful, and
it is the only container, for which there is room. -/
theorem readable_ofMembers (around : Nat) (members : List (String × Tree))
    (room : around + 1 ≤ deepestNesting) (plain : ∀ member ∈ members, member.2.Plain) :
    (ofMembers members).readable around = true := by
  obtain ⟨meaningful, flat⟩ := plain_members
    (members.map fun member => (spell member.1.toList, member.2))
    (fun member present => by
      obtain ⟨⟨name, value⟩, -, rfl⟩ := List.mem_map.mp present
      rw [meaning?_spell, Option.isSome_some])
    (fun member present => by
      obtain ⟨⟨name, value⟩, given, rfl⟩ := List.mem_map.mp present
      exact plain _ given)
  rw [ofMembers_eq, readable, Tree.meaningful, nesting, meaningful, flat, Bool.true_and]
  exact decide_eq_true room

end Readable

end Tree

/-- What makes a type of values readable: its trees have all strings and numbers spelled as such,
values in range are read back inside of so many fewer containers than may lie inside each other, and
only values in range are read. -/
structure Lawful (α : Type) [Coded α] (InRange : α → Prop) (depth : Nat) : Prop where
  spelled : ∀ value : α, (Coded.toTree value).Spelled
  read : ∀ value, InRange value → ∀ around, around + depth ≤ deepestNesting →
    Coded.ofTree? around (Coded.toTree value) = some value
  inRange : ∀ around tree value, Coded.ofTree? around tree = some value → InRange value

/-- The spread form of a value as JSON text. -/
def encodeSpread {α : Type} [Coded α] (value : α) : String :=
  String.ofList ((Coded.toTree value).spread 0)

/-- Values in range survive being written as text, in the compact and in the spread form, and being
read again. So does whatever is read from any text. -/
structure RoundTrips (α : Type) [Coded α] (InRange : α → Prop) : Prop where
  compact : ∀ value, InRange value → decode? α (encode value) = some value
  spread : ∀ value, InRange value → decode? α (encodeSpread value) = some value
  again : ∀ text value, decode? α text = some value →
    decode? α (encode value) = some value ∧ decode? α (encodeSpread value) = some value

namespace Lawful

variable {α : Type} [Coded α] {InRange : α → Prop} {depth : Nat}

/-- Lists are read item by item, inside of one container more than their items need. -/
theorem list (lawful : Lawful α InRange depth) :
    Lawful (List α) (fun values => ∀ value ∈ values, InRange value) (depth + 1) where
  spelled values := by
    refine .array _ fun item present => ?_
    obtain ⟨value, -, rfl⟩ := List.mem_map.mp present
    exact lawful.spelled value
  read values fit around room := by
    have items : (values.map Coded.toTree).mapM (Coded.ofTree? (around + 1)) =
        some (values.map id) := by
      rw [List.mapM_map]
      exact mapM_eq_pure _ id values fun value present =>
        lawful.read value (fit value present) (around + 1) (by omega)
    rwa [List.map_id] at items
  inRange around tree values read value present := by
    cases tree with
    | array items =>
      obtain ⟨item, -, made⟩ := exists_of_mem_mapM _ items values read value present
      exact lawful.inRange (around + 1) item value made
    | _ => cases read

/-- Values of such a type survive as text. The tree of a value is parsed back from either form, and
read inside of no other container; what is read from any text is in range and therefore survives as
well. -/
theorem roundTrips (lawful : Lawful α InRange depth) (shallow : depth ≤ deepestNesting) :
    RoundTrips α InRange := by
  have read : ∀ value text, InRange value →
      Tree.parse? text = some (Coded.toTree value) →
      decode? α (String.ofList text) = some value := by
    intro value text fits parsed
    rw [decode?, String.toList_ofList, parsed, Option.bind_some]
    exact lawful.read value fits 0 (by omega)
  have compact : ∀ value, InRange value → decode? α (encode value) = some value :=
    fun value fits => read value _ fits (Tree.parse?_compact _ (lawful.spelled value))
  have spread : ∀ value, InRange value → decode? α (encodeSpread value) = some value :=
    fun value fits => read value _ fits (Tree.parse?_spread _ (lawful.spelled value) 0)
  refine ⟨compact, spread, fun text value decoded => ?_⟩
  obtain ⟨tree, -, made⟩ := Option.bind_eq_some_iff.mp decoded
  have fits := lawful.inRange 0 tree value made
  exact ⟨compact value fits, spread value fits⟩

end Lawful

end CalendarDial.Json
