import Template.Node.Reader

/-!
# Fields of an object

An object stands for a record field by field.  A `Field` says under which names its
member may be written and which values it may have, or that the member may be left out.
`Json.IsObject` admits the members in any order and other members among them.  The main
statement is `Json.IsObject.gives`: each field is found by its names alone, wherever
its member stands.
-/

namespace Template

/-- A field: the names of its member, and what may be written for it, where `none` is
to leave the member out. -/
structure Field where
  names : List String
  allows : Option Json → Prop

namespace Field

/-- A field that is always written. -/
def required (names : List String) (encodes : Json → Prop) : Field where
  names
  allows
    | none => False
    | some json => encodes json

/-- A field that may be left out where it has its default. -/
def optional (names : List String) (isDefault : Prop) (encodes : Json → Prop) : Field where
  names
  allows
    | none => isDefault
    | some json => encodes json

/-- A field that may be absent: it is left out or `null` then, and only then. -/
def nullable (names : List String) (present : Option (Json → Prop)) : Field where
  names
  allows given :=
    match present, given with
    | none, none => True
    | none, some json => json = .null
    | some _, none => False
    | some encodes, some json => encodes json

/-- The members that stand for fields: one for each field that is not left out. -/
inductive Given : List Field → Members → Prop where
  | nil : Given [] []
  | leftOut {field : Field} {fields : List Field} {members : Members}
      (allowed : field.allows none) (others : Given fields members) :
      Given (field :: fields) members
  | written {field : Field} {fields : List Field} {name : String} {json : Json} {members : Members}
      (named : name ∈ field.names) (allowed : field.allows (some json))
      (others : Given fields members) : Given (field :: fields) ((name, json) :: members)

end Field

/-- An object with the members of some fields and members that belong to none of them, all
in any order. -/
def Json.IsObject (fields : List Field) (json : Json) : Prop :=
  ∃ members known unknown : Members, json = .object members ∧ members.Perm (known ++ unknown) ∧
    Field.Given fields known ∧
    ∀ member ∈ unknown, ∀ field ∈ fields, member.1 ∉ field.names

namespace Members

variable {members : Members}

/-- The members give a field: looked up by its names, they have a value that the field
allows. -/
def Gives (members : Members) (field : Field) : Prop :=
  ∃ given : Option (String × Json),
    members.filter (fun member => field.names.contains member.1) = given.toList ∧
    field.allows (given.map Prod.snd)

theorem single?_of_filter {names : List String} {given : Option (String × Json)}
    (found : members.filter (fun member => names.contains member.1) = given.toList) :
    members.single? names = some (given.map Prod.snd) := by
  cases given with
  | none => simp only [single?, found, Option.toList_none, Option.map_none]
  | some member => simp only [single?, found, Option.toList_some, Option.map_some]

end Members

namespace Field

theorem Given.mem_names {fields : List Field} {known : Members} (given : Given fields known) :
    ∀ member ∈ known, member.1 ∈ fields.flatMap names := by
  induction given with
  | nil => exact fun _ membership => nomatch membership
  | leftOut _ _ inductionHypothesis =>
      intro member membership
      exact List.mem_append_right _ (inductionHypothesis member membership)
  | written named _ _ inductionHypothesis =>
      rintro member (_ | ⟨_, membership⟩)
      · exact List.mem_append_left _ named
      · exact List.mem_append_right _ (inductionHypothesis member membership)

/-- The members of other fields have none of the names of a field. -/
theorem Given.filter_eq_nil {fields : List Field} {known : Members} {names : List String}
    (given : Given fields known)
    (apart : ∀ name ∈ names, ∀ other ∈ fields.flatMap Field.names, name ≠ other) :
    known.filter (fun member => names.contains member.1) = [] := by
  rw [List.filter_eq_nil_iff]
  intro member membership contained
  rw [List.contains_iff_mem] at contained
  exact apart member.1 contained member.1 (given.mem_names member membership) rfl

/-- Where no name is used twice, the member of each field is found by its names. -/
theorem Given.gives {fields : List Field} {known : Members} (given : Given fields known)
    (distinct : (fields.flatMap names).Nodup) : ∀ field ∈ fields, known.Gives field := by
  induction given with
  | nil => exact fun _ membership => nomatch membership
  | leftOut allowed others inductionHypothesis =>
      obtain ⟨-, distinctOthers, apart⟩ := List.nodup_append.mp distinct
      rintro field (_ | ⟨_, membership⟩)
      · exact ⟨none, others.filter_eq_nil apart, allowed⟩
      · exact inductionHypothesis distinctOthers field membership
  | @written head fields name json members named allowed others inductionHypothesis =>
      obtain ⟨-, distinctOthers, apart⟩ := List.nodup_append.mp distinct
      rintro field (_ | ⟨_, membership⟩)
      · refine ⟨some (name, json), ?_, allowed⟩
        rw [List.filter_cons, if_pos (List.contains_iff_mem.mpr named),
          others.filter_eq_nil apart]
        rfl
      · obtain ⟨given, found, allowed⟩ := inductionHypothesis distinctOthers field membership
        have other : ¬ field.names.contains name = true := by
          rw [List.contains_iff_mem]
          intro contained
          exact apart name named name (List.mem_flatMap_of_mem membership contained) rfl
        exact ⟨given, by rw [List.filter_cons, if_neg other, found], allowed⟩

end Field

/-- Each field of an object is found by its names, wherever its member stands. -/
theorem Json.IsObject.gives {fields : List Field} {json : Json} (object : json.IsObject fields)
    (distinct : (fields.flatMap Field.names).Nodup) :
    ∃ members : Members, json = .object members ∧ ∀ field ∈ fields, members.Gives field := by
  obtain ⟨members, known, unknown, rfl, order, given, others⟩ := object
  refine ⟨members, rfl, fun field membership => ?_⟩
  obtain ⟨member, found, allowed⟩ := given.gives distinct field membership
  have unknownOmitted : unknown.filter (fun member => field.names.contains member.1) = [] := by
    rw [List.filter_eq_nil_iff]
    intro other otherMembership contained
    exact others other otherMembership field membership (List.contains_iff_mem.mp contained)
  have same := order.filter (fun member => field.names.contains member.1)
  rw [List.filter_append, unknownOmitted, List.append_nil, found] at same
  refine ⟨member, ?_, allowed⟩
  cases member with
  | none => exact List.perm_nil.mp same
  | some member => exact List.perm_singleton.mp same

namespace Members

variable {members : Members} {α : Type} {names : List String} {encodes : Json → Prop}
  {read : Json → Option α} {value : α}

/-- What is found of a field is a member. -/
theorem mem_of_filter {keeps : String × Json → Bool} {member : String × Json}
    (found : members.filter keeps = [member]) : member ∈ members :=
  (List.mem_filter.mp (found ▸ List.mem_singleton_self member)).1

theorem required_of_gives (gives : members.Gives (.required names encodes))
    (reads : ∀ member ∈ members, encodes member.2 → read member.2 = some value) :
    members.required names read = some value := by
  obtain ⟨_ | member, found, allowed⟩ := gives
  · exact allowed.elim
  · have looked : members.single? names = some (some member.2) := single?_of_filter found
    rw [required, looked]
    exact reads member (mem_of_filter found) allowed

theorem optional_of_gives {isDefault : Prop} {default : α}
    (gives : members.Gives (.optional names isDefault encodes))
    (omitted : isDefault → default = value)
    (reads : ∀ member ∈ members, encodes member.2 → read member.2 = some value) :
    members.optional names default read = some value := by
  obtain ⟨_ | member, found, allowed⟩ := gives
  · have looked : members.single? names = some none := single?_of_filter found
    rw [optional, looked]
    exact congrArg some (omitted allowed)
  · have looked : members.single? names = some (some member.2) := single?_of_filter found
    rw [optional, looked]
    exact reads member (mem_of_filter found) allowed

theorem nullable_of_gives {present : Option α} {encodes : α → Json → Prop}
    (gives : members.Gives (.nullable names (present.map encodes)))
    (null : read .null = none)
    (reads : ∀ value ∈ present, ∀ member ∈ members, encodes value member.2 →
      read member.2 = some value) : members.nullable names read = some present := by
  obtain ⟨_ | ⟨name, json⟩, found, allowed⟩ := gives
  · have looked : members.single? names = some none := single?_of_filter found
    rw [nullable, looked]
    cases present with
    | none => rfl
    | some value => exact allowed.elim
  · have looked : members.single? names = some (some json) := single?_of_filter found
    rw [nullable, looked]
    cases present with
    | none =>
        obtain rfl : json = .null := allowed
        rfl
    | some value =>
        have taken := reads value rfl (name, json) (mem_of_filter found) allowed
        cases json <;> simp_all

end Members

end Template
