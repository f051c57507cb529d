import Template.Proofs.Json.Range
import Template.Proofs.Node.Decoding
import Template.Proofs.Running

/-!
# Parsing the encodings of a node tree

Every text that spells an encoding of a node tree is parsed to that tree.  The members of
the root are read as those of any object, except that its kind is taken out of them as
soon as it is met.
-/

namespace Template

/-! ## What has been read -/

namespace Json.Read

open Template.Text

/-- Reading entries finds the end, or an entry and the others behind it. -/
theorem entriesFrom_cases {α : Type} {closer : Char} {entry : Reader α} {fuel : Nat} {first : Bool}
    {text rest : List Char} {values : List α}
    (read : entriesFrom closer entry (fuel + 1) first text = .ok (values, rest)) :
    (next closer first text = .ok (.closed rest) ∧ values = []) ∨
    ∃ found value following others, next closer first text = .ok (.entry found) ∧
      entry found = .ok (value, following) ∧
      entriesFrom closer entry fuel false following = .ok (others, rest) ∧
      values = value :: others := by
  rw [entriesFrom] at read
  obtain ⟨_ | _, sought, read⟩ := ok_of_bind read
  · next found =>
      obtain ⟨⟨value, following⟩, taken, read⟩ := ok_of_bind read
      obtain ⟨⟨others, after⟩, later, read⟩ := ok_of_bind read
      cases read
      exact .inr ⟨found, value, following, others, sought, taken, later, rfl⟩
  · cases read
    exact .inl ⟨sought, rfl⟩

theorem member_parts {value : Reader Json} {text rest : List Char} {entry : String × Json}
    (read : member value text = .ok (entry, rest)) :
    ∃ behindName behindColon, name text = .ok (entry.1, behindName) ∧
      colon behindName = .ok behindColon ∧ value behindColon = .ok (entry.2, rest) := by
  rw [member] at read
  obtain ⟨⟨key, behindName⟩, named, read⟩ := ok_of_bind read
  obtain ⟨behindColon, parted, read⟩ := ok_of_bind read
  obtain ⟨⟨found, after⟩, taken, read⟩ := ok_of_bind read
  cases read
  exact ⟨behindName, behindColon, named, parted, taken⟩

theorem number_not_string {convert : Numeral → Double} {text rest : List Char} {value : String} :
    number convert text ≠ .ok (.string value, rest) := by
  intro read
  rw [number] at read
  obtain ⟨⟨numeral, after⟩, -, read⟩ := ok_of_bind read
  dsimp only at read
  split at read
  · cases read
  · split at read <;> cases read

/-- A value that is a string starts with a quote. -/
theorem valueWith_string {convert : Numeral → Double} {nested : Option (Reader Json)}
    {text rest : List Char} {value : String}
    (read : valueWith convert nested text = .ok (.string value, rest)) :
    ∃ tail, skipSpace text = doubleQuote :: tail ∧ string tail = .ok (value, rest) := by
  rw [valueWith] at read
  split at read
  · cases read
  · next char tail start =>
      split at read
      · obtain ⟨_, _, read⟩ := ok_of_bind read
        cases read
      split at read
      · obtain ⟨_, _, read⟩ := ok_of_bind read
        cases read
      split at read
      · obtain ⟨_, _, read⟩ := ok_of_bind read
        cases read
      split at read
      · next quote =>
          obtain ⟨⟨found, after⟩, taken, read⟩ := ok_of_bind read
          cases read
          exact ⟨tail, by rw [start, eq_of_beq quote], taken⟩
      split at read
      · exact absurd read number_not_string
      split at read
      · cases read
      split at read
      · obtain ⟨_, _, read⟩ := ok_of_bind read
        cases read
      split at read
      · obtain ⟨_, _, read⟩ := ok_of_bind read
        cases read
      · cases read

theorem value_string {convert : Numeral → Double} {depth : Nat} {text rest : List Char}
    {found : String} (read : value convert depth text = .ok (.string found, rest)) :
    ∃ tail, skipSpace text = doubleQuote :: tail ∧ string tail = .ok (found, rest) := by
  cases depth with
  | zero => exact valueWith_string read
  | succ depth => exact valueWith_string read

end Json.Read

namespace Node

open Template.Json Template.Json.Read

variable {convert : Numeral → Double}

/-! ## The root -/

theorem lift_ok {α : Type} (value : α) : lift (.ok value) = .ok value := rfl

theorem rootKind_of_string {input rest : List Char} {name : String} {kind : NodeKind}
    (read : inner convert input = .ok (.string name, rest))
    (known : NodeKind.ofName? name = some kind) : rootKind convert input = .ok (kind, rest) := by
  obtain ⟨tail, start, taken⟩ := value_string read
  simp [rootKind, start, taken, known, lift_ok, bind, Except.bind]

/-- Without a kind among them, the members of the root are read as those of an object. -/
theorem rootFrom_members {kind : Option NodeKind} {fuel : Nat} {first : Bool}
    {text rest : List Char} {members : Members}
    (read : entriesFrom '\x7d' (member (inner convert)) fuel first text = .ok (members, rest))
    (noKind : ∀ member ∈ members, member.1 ≠ "type") :
    rootFrom convert kind fuel first text = .ok (⟨kind, members⟩, rest) := by
  induction fuel generalizing first text members with
  | zero => cases read
  | succ fuel inductionHypothesis =>
      obtain ⟨sought, rfl⟩ | ⟨found, value, following, others, sought, taken, later, rfl⟩ :=
        entriesFrom_cases read
      · simp [rootFrom, sought, lift_ok, bind, Except.bind]
      · obtain ⟨behindName, behindColon, named, parted, valueTaken⟩ := member_parts taken
        obtain ⟨notKind, noKindLater⟩ := List.forall_mem_cons.mp noKind
        simp [rootFrom, sought, named, notKind, parted, valueTaken,
          inductionHypothesis later noKindLater, lift_ok, bind, Except.bind]

/-- The kind of the root is taken out of its members. -/
theorem rootFrom_kind {fuel : Nat} {first : Bool} {text rest : List Char} {name : String}
    {kind : NodeKind} (known : NodeKind.ofName? name = some kind) {before after : Members}
    (read : entriesFrom '\x7d' (member (inner convert)) fuel first text =
      .ok (before ++ ("type", .string name) :: after, rest))
    (noKind : ∀ member ∈ before ++ after, member.1 ≠ "type") :
    rootFrom convert none fuel first text = .ok (⟨some kind, before ++ after⟩, rest) := by
  induction fuel generalizing first text before with
  | zero => cases read
  | succ fuel inductionHypothesis =>
      obtain ⟨-, absurdity⟩ | ⟨found, value, following, others, sought, taken, later, same⟩ :=
        entriesFrom_cases read
      · simp at absurdity
      · obtain ⟨behindName, behindColon, named, parted, valueTaken⟩ := member_parts taken
        cases before with
        | nil =>
            obtain ⟨rfl, rfl⟩ := List.cons.inj same
            have kindTaken := rootKind_of_string valueTaken known
            simp [rootFrom, sought, named, parted, kindTaken, rootFrom_members later noKind,
              lift_ok, bind, Except.bind]
        | cons entry before =>
            obtain ⟨rfl, rfl⟩ := List.cons.inj same
            obtain ⟨notKind, noKindLater⟩ := List.forall_mem_cons.mp noKind
            simp [rootFrom, sought, named, notKind, parted, valueTaken,
              inductionHypothesis later noKindLater, lift_ok, bind, Except.bind]

/-- A member under another name does not matter to a field. -/
theorem gives_of_middle {field : Field} {before after : Members} {member : String × Json}
    (gives : Members.Gives (before ++ member :: after) field) (other : member.1 ∉ field.names) :
    Members.Gives (before ++ after) field := by
  obtain ⟨given, found, allowed⟩ := gives
  have dropped : ¬ field.names.contains member.1 = true := by
    rwa [List.contains_iff_mem]
  rw [List.filter_append, List.filter_cons, if_neg dropped, ← List.filter_append] at found
  exact ⟨given, found, allowed⟩

/-- The kind of a node stands once among the members, and the others give its fields. -/
theorem exists_kind {node : Node} {members : Members}
    (gives : ∀ field ∈ node.kind.field :: node.fields, members.Gives field) :
    ∃ before after : Members, members = before ++ ("type", .string node.kind.name) :: after ∧
      (∀ member ∈ before ++ after, member.1 ≠ "type") ∧
      ∀ field ∈ node.fields, Members.Gives (before ++ after) field := by
  obtain ⟨kindGiven, othersGiven⟩ := List.forall_mem_cons.mp gives
  obtain ⟨_ | ⟨name, json⟩, found, allowed⟩ := kindGiven
  · exact allowed.elim
  obtain ⟨before, after, rfl, noneBefore, named, noneAfter⟩ := List.filter_eq_cons_iff.mp found
  obtain rfl : json = .string node.kind.name := allowed
  obtain rfl : name = "type" := by simpa [NodeKind.field, Field.required] using named
  refine ⟨before, after, rfl, fun member membership isKind => ?_, fun field membership => ?_⟩
  · have contained : node.kind.field.names.contains member.1 = true := by
      rw [isKind]
      rfl
    obtain first | later := List.mem_append.mp membership
    · exact noneBefore member first contained
    · exact List.filter_eq_nil_iff.mp noneAfter member later contained
  · have apart := (List.nodup_append.mp node.distinct_fields).2.2
    apply gives_of_middle (othersGiven field membership)
    intro contained
    exact apart "type" List.mem_cons_self "type" (List.mem_flatMap_of_mem membership contained) rfl

/-! ## Texts -/

/-- The texts that encode a node: spellings of a value that encodes it, with white space
around them.  Arrays and objects are nested in one another at most 127 times. -/
def Written (convert : Numeral → Double) (admits : Numeral → Prop) (node : Node)
    (text : String) : Prop :=
  ∃ (json : Json) (before spelled after : List Char),
    text.toList = before ++ (spelled ++ after) ∧ Spaces before ∧ Spaces after ∧
    Spelling convert admits json spelled ∧ json.depth ≤ 127 ∧ node.Encodes json

/-- A text that encodes a node is parsed to it, if all numbers that it admits are converted
to finite doubles. -/
theorem parseWith_written {admits : Numeral → Prop} {node : Node} {text : String}
    (finite : ∀ numeral, admits numeral → (convert numeral).isFinite = true)
    (written : node.Written convert admits text) : parseWith convert text = .ok node := by
  obtain ⟨json, before, spelled, after, same, spacesBefore, spacesAfter, spelling, shallow,
    encoded⟩ := written
  obtain ⟨members, rfl, gives⟩ := encoded.gives node.distinct_fields
  obtain ⟨leading, trailing, rfl, noKind, othersGiven⟩ := exists_kind gives
  cases spelling with
  | @object _ inside separated =>
      have closes : Closes '\x7d' := by simp [Closes]
      have shallowMembers := depthMembers_le_iff.mp (Nat.le_of_succ_le_succ shallow)
      have taken := entries_separated closes (takes_members finite shallowMembers separated) after
      have rootTaken := rootFrom_kind (Shape.choice_name node.kind) taken noKind
      have nodeRead : ofMembers? node.kind (leading ++ trailing) = some node :=
        Shape.readsNode node _ _ othersGiven (depthMembers_le_iff.mp (Nat.le_refl _))
      have ends : skipSpace after = [] := by
        rw [← List.append_nil after, skipSpace_append spacesAfter]
        rfl
      have objectRead : rootObject convert (inside ++ '\x7d' :: after) = .ok node := by
        rw [rootObject, rootTaken]
        simp [nodeRead, ends, bind, Except.bind]
      have start : skipSpace text.toList = '\x7b' :: (inside ++ '\x7d' :: after) := by
        rw [same, skipSpace_append spacesBefore, List.cons_append, skipSpace_cons rfl,
          List.append_assoc, List.singleton_append]
      simp [parseWith, start, objectRead]

end Node

end Template
