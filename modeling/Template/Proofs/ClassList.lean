import Mathlib.Data.Rat.Floor
import Template.ClassList
import Template.Proofs.Double.Text

/-!
# Class lists as the helper joins them

The inlined helper is a function of JavaScript that loops over its arguments and over the
elements of those that are like arrays.  Its meaning on JSON values is given here as relations
that follow the function step by step: `Prints` is the conversion to a string, `Visits` the loop
over the indices of one argument, `Adds` what one argument pushes and `Returns` the whole call.

They have the reading of an object's `length` as a parameter, because this is where
`joinClasses` goes its own way: it takes a length that is written as a natural number, while the
helper takes every number and truncates it (`HasLength`).
-/

namespace Template.Json

open Double (IsNearest NumberText)

/-! ## The meaning of the helper -/

/-- The number that a JSON value is after it has been read. -/
inductive IsNumber : Json → Double → Prop where
  | float (number : Double) : IsNumber (.float number) number
  | integer {value : Int} {number : Double} (sign : number.negative = decide (value < 0))
      (nearest : IsNearest number.magnitude value.natAbs) : IsNumber (.integer value) number

mutual

/-- The string that a value is converted to.  An object has its default string only if it has no
conversion of its own. -/
inductive Prints : Json → String → Prop where
  | null : Prints .null "null"
  | true : Prints (.boolean true) "true"
  | false : Prints (.boolean false) "false"
  | number {value : Json} {number : Double} {text : String} (isNumber : IsNumber value number)
      (written : NumberText number text) : Prints value text
  | string (text : String) : Prints (.string text) text
  | array {items : List Json} {texts : List String} (prints : PrintsItems items texts) :
      Prints (.array items) (",".intercalate texts)
  | object {members : List (String × Json)} (noString : lastMember? "toString" members = none)
      (noValue : lastMember? "valueOf" members = none) :
      Prints (.object members) "[object Object]"

/-- The strings of the items of an array, where `null` has none. -/
inductive PrintsItems : List Json → List String → Prop where
  | nil : PrintsItems [] []
  | null {rest : List Json} {texts : List String} (prints : PrintsItems rest texts) :
      PrintsItems (.null :: rest) ("" :: texts)
  | cons {item : Json} {text : String} {rest : List Json} {texts : List String}
      (notNull : item ≠ .null) (first : Prints item text) (prints : PrintsItems rest texts) :
      PrintsItems (item :: rest) (text :: texts)

end

/-- The values that the helper passes over. -/
def Dropped (value : Json) : Prop :=
  value = .null ∨ value = .string ""

/-- What a loop over the indices below a bound pushes. -/
inductive Visits (element? : Nat → Option Json) : Nat → List String → Prop where
  | start : Visits element? 0 []
  | absent {index : Nat} {texts : List String} (visits : Visits element? index texts)
      (missing : element? index = none) : Visits element? (index + 1) texts
  | dropped {index : Nat} {texts : List String} {item : Json} (visits : Visits element? index texts)
      (present : element? index = some item) (drop : Dropped item) :
      Visits element? (index + 1) texts
  | pushed {index : Nat} {texts : List String} {item : Json} {text : String}
      (visits : Visits element? index texts) (present : element? index = some item)
      (keep : ¬ Dropped item) (prints : Prints item text) :
      Visits element? (index + 1) (texts ++ [text])

/-- The length and the elements of a value that is like an array. -/
inductive Elements (reading : Json → Nat → Prop) : Json → Nat → (Nat → Option Json) → Prop where
  | array (items : List Json) : Elements reading (.array items) items.length (items[·]?)
  | object {members : List (String × Json)} {member : Json} {length : Nat}
      (has : lastMember? "length" members = some member) (read : reading member length) :
      Elements reading (.object members) length fun index => lastMember? (toString index) members

/-- What one argument pushes. -/
inductive Adds (reading : Json → Nat → Prop) : Json → List String → Prop where
  | dropped {value : Json} (drop : Dropped value) : Adds reading value []
  | spread {value : Json} {length : Nat} {element? : Nat → Option Json} {texts : List String}
      (elements : Elements reading value length element?) (visits : Visits element? length texts) :
      Adds reading value texts
  | whole {value : Json} {text : String} (keep : ¬ Dropped value)
      (plain : ∀ length element?, ¬ Elements reading value length element?)
      (prints : Prints value text) : Adds reading value [text]

/-- What a call returns: the strings of all arguments with a space between them. -/
def Returns (reading : Json → Nat → Prop) (arguments : List Json) (result : String) : Prop :=
  ∃ pushed, List.Forall₂ (Adds reading) arguments pushed ∧ result = " ".intercalate pushed.flatten

/-- The greatest length, `2 ^ 53 - 1`. -/
def maxLength : Nat := 0x1FFFFFFFFFFFFF

/-- A number as a length: truncated, not negative and at most the greatest length. -/
def lengthOf (number : Double) : Nat :=
  if number.negative then 0 else min ⌊Double.value number.magnitude⌋₊ maxLength

/-- The reading of a length in JavaScript, which takes every number. -/
def HasLength (member : Json) (length : Nat) : Prop :=
  ∃ number, IsNumber member number ∧ length = lengthOf number

/-- The reading that takes a natural number written as an integer only. -/
def HasNaturalLength (member : Json) (length : Nat) : Prop :=
  member.natural? = some length

/-! ## Strings of values -/

mutual

/-- Whether no object within a value has a conversion of its own. -/
def isOrdinary : Json → Bool
  | .array items => isOrdinaryItems items
  | .object members =>
      (lastMember? "toString" members).isNone && (lastMember? "valueOf" members).isNone &&
        isOrdinaryMembers members
  | _ => true

def isOrdinaryItems : List Json → Bool
  | [] => true
  | item :: rest => item.isOrdinary && isOrdinaryItems rest

def isOrdinaryMembers : List (String × Json) → Bool
  | [] => true
  | (_, value) :: rest => value.isOrdinary && isOrdinaryMembers rest

end

theorem isOrdinary_of_mem {items : List Json} (ordinary : isOrdinaryItems items = true)
    {item : Json} (membership : item ∈ items) : item.isOrdinary = true := by
  induction membership with
  | head rest =>
    rw [isOrdinaryItems, Bool.and_eq_true] at ordinary
    exact ordinary.1
  | tail first _ inductionHypothesis =>
    rw [isOrdinaryItems, Bool.and_eq_true] at ordinary
    exact inductionHypothesis ordinary.2

theorem isOrdinary_of_lastMember? {members : List (String × Json)}
    (ordinary : isOrdinaryMembers members = true) {name : String} {value : Json}
    (found : lastMember? name members = some value) : value.isOrdinary = true := by
  induction members with
  | nil => contradiction
  | cons member rest inductionHypothesis =>
    obtain ⟨key, first⟩ := member
    rw [isOrdinaryMembers, Bool.and_eq_true] at ordinary
    rw [lastMember?] at found
    split at found
    next later laterFound => exact inductionHypothesis ordinary.2 (laterFound.trans found)
    next =>
      split at found
      · obtain rfl := Option.some.inj found
        exact ordinary.1
      · contradiction

mutual

/-- The text of a value is its string in JavaScript. -/
theorem prints_text : (value : Json) → value.isOrdinary = true → Prints value value.text
  | .null, _ => .null
  | .boolean true, _ => .true
  | .boolean false, _ => .false
  | .integer value, _ =>
      .number (.integer rfl (Double.isNearest_ofInt value)) (Double.numberText_text _)
  | .float number, _ => .number (.float number) (Double.numberText_text number)
  | .string text, _ => .string text
  | .array items, ordinary => by
      rw [text]
      rw [isOrdinary] at ordinary
      exact .array (printsItems_itemTexts items ordinary)
  | .object members, ordinary => by
      rw [text]
      rw [isOrdinary, Bool.and_eq_true, Bool.and_eq_true, Option.isNone_iff_eq_none,
        Option.isNone_iff_eq_none] at ordinary
      exact .object ordinary.1.1 ordinary.1.2

theorem printsItems_itemTexts :
    (items : List Json) → isOrdinaryItems items = true → PrintsItems items (itemTexts items)
  | [], _ => .nil
  | item :: rest, ordinary => by
      rw [isOrdinaryItems, Bool.and_eq_true] at ordinary
      have restPrints := printsItems_itemTexts rest ordinary.2
      rw [itemTexts]
      split
      next isNull =>
        cases item <;> first | exact .null restPrints | contradiction
      next notNull =>
        refine .cons ?_ (prints_text item ordinary.1) restPrints
        rintro rfl
        exact notNull rfl

end

/-! ## The elements of one argument -/

theorem isNoClass_iff {value : Json} : value.isNoClass = true ↔ Dropped value := by
  cases value <;> simp [isNoClass, Dropped]

/-- The loop pushes the texts of the elements that are present and not passed over. -/
theorem visits_range {element? : Nat → Option Json}
    (ordinary : ∀ index item, element? index = some item → item.isOrdinary = true) (length : Nat) :
    Visits element? length
      ((((List.range length).filterMap element?).filter fun item => !item.isNoClass).map text) := by
  induction length with
  | zero => exact .start
  | succ index inductionHypothesis =>
    rw [List.range_succ, List.filterMap_append, List.filter_append, List.map_append]
    cases element : element? index with
    | none => simpa [element] using Visits.absent inductionHypothesis element
    | some item =>
      by_cases drop : item.isNoClass = true
      · simpa [element, drop] using
          Visits.dropped inductionHypothesis element (isNoClass_iff.mp drop)
      · have prints := prints_text item (ordinary index item element)
        simpa [element, drop] using
          Visits.pushed inductionHypothesis element (isNoClass_iff.not.mp drop) prints

/-- Indices without an element do not matter to the loop. -/
theorem Visits.shorten {element? : Nat → Option Json} {bound length : Nat} {texts : List String}
    (visits : Visits element? length texts) (atMost : bound ≤ length)
    (missing : ∀ index, bound ≤ index → index < length → element? index = none) :
    Visits element? bound texts := by
  induction length, atMost using Nat.le_induction with
  | base => exact visits
  | succ length atMost inductionHypothesis =>
    have lastMissing := missing length atMost (Nat.lt_succ_self length)
    have earlierMissing : ∀ index, bound ≤ index → index < length → element? index = none :=
      fun index atLeast below => missing index atLeast (below.trans (Nat.lt_succ_self length))
    cases visits with
    | absent visits _ => exact inductionHypothesis visits earlierMissing
    | dropped visits present _ => simp [lastMissing] at present
    | pushed visits present _ _ => simp [lastMissing] at present

theorem filterMap_getElem? (items : List Json) :
    (List.range items.length).filterMap (items[·]?) = items := by
  have indexed : (List.range items.length).map (items[·]?) = items.map some :=
    List.ext_getElem (by simp) (by simp)
  calc (List.range items.length).filterMap (items[·]?)
    _ = ((List.range items.length).map (items[·]?)).filterMap id := by rw [List.filterMap_map]; rfl
    _ = items := by rw [indexed, List.filterMap_map, Function.id_comp, List.filterMap_some]

/-- A reading takes the length of a value as `items?` does, up to indices without an element. -/
def ReadAlike (reading : Json → Nat → Prop) (value : Json) : Prop :=
  ∀ members member, value = .object members → lastMember? "length" members = some member →
    (member.natural? = none ∧ ∀ length, ¬ reading member length) ∨
    ∃ length bound, member.natural? = some length ∧ reading member bound ∧ bound ≤ length ∧
      ∀ index, bound ≤ index → index < length → lastMember? (toString index) members = none

/-- An object contributes what the helper pushes for it. -/
theorem adds_classes_object {reading : Json → Nat → Prop} {members : List (String × Json)}
    (ordinary : (object members).isOrdinary = true) (alike : ReadAlike reading (.object members)) :
    Adds reading (.object members) (classes (.object members)) := by
  have prints := prints_text _ ordinary
  have keep : ¬ Dropped (.object members) := by simp [Dropped]
  rw [classes, if_neg (isNoClass_iff.not.mpr keep), items?]
  cases has : lastMember? "length" members with
  | none =>
    refine .whole keep ?_ prints
    intro length element? elements
    cases elements with
    | object otherHas _ => simp [has] at otherHas
  | some member =>
    rcases alike members member rfl has with
      ⟨notNatural, noLength⟩ | ⟨length, bound, natural, read, atMost, missing⟩
    · rw [Option.bind_some, notNatural]
      refine .whole keep ?_ prints
      intro length element? elements
      cases elements with
      | object otherHas read =>
        obtain rfl := Option.some.inj (has.symm.trans otherHas)
        exact noLength length read
    · rw [Option.bind_some, natural]
      have membersOrdinary : isOrdinaryMembers members = true := by
        rw [isOrdinary, Bool.and_eq_true] at ordinary
        exact ordinary.2
      have elementsOrdinary (index : Nat) (item : Json)
          (found : lastMember? (toString index) members = some item) : item.isOrdinary = true :=
        isOrdinary_of_lastMember? membersOrdinary found
      have visits := visits_range elementsOrdinary length
      exact .spread (.object has read) (visits.shorten atMost missing)

/-- One argument contributes what the helper pushes for it. -/
theorem adds_classes {reading : Json → Nat → Prop} {value : Json}
    (ordinary : value.isOrdinary = true) (alike : ReadAlike reading value) :
    Adds reading value value.classes := by
  cases value with
  | object members => exact adds_classes_object ordinary alike
  | array items =>
    have itemsOrdinary (index : Nat) (item : Json) (found : items[index]? = some item) :
        item.isOrdinary = true := by
      rw [isOrdinary] at ordinary
      exact isOrdinary_of_mem ordinary (List.mem_of_getElem? found)
    have visits := visits_range itemsOrdinary items.length
    rw [filterMap_getElem?] at visits
    exact .spread (.array items) visits
  | _ =>
    rw [classes]
    split
    next drop => exact .dropped (isNoClass_iff.mp drop)
    next keep =>
      refine .whole (isNoClass_iff.not.mp keep) ?_ (prints_text _ ordinary)
      intro length element? elements
      cases elements

/-! ## The length of an object -/

theorem readAlike_natural (value : Json) : ReadAlike HasNaturalLength value := by
  intro members member _ has
  cases natural : member.natural? with
  | none =>
    left
    refine ⟨rfl, ?_⟩
    intro length read
    rw [HasNaturalLength, natural] at read
    contradiction
  | some length => exact .inr ⟨length, length, rfl, natural, le_rfl, fun _ _ _ => by omega⟩

/-- A length is a natural number written as an integer wherever it is a number at all, and
elements are at indices below the greatest length. -/
def WritesLength (value : Json) : Prop :=
  ∀ members member number, value = .object members → lastMember? "length" members = some member →
    IsNumber member number → ∃ length : Nat, member = .integer length ∧
      ∀ index, maxLength ≤ index → index < length → lastMember? (toString index) members = none

/-- The length that JavaScript makes of a natural number. -/
theorem lengthOf_ofInt (length : Nat) : lengthOf (Double.ofInt length) = min length maxLength := by
  have nearest := Double.isNearest_ofInt length
  rw [Int.natAbs_natCast] at nearest
  rw [lengthOf, Double.negative_ofInt, if_neg Bool.false_ne_true]
  rcases Nat.lt_or_ge length (2 ^ 53) with small | large
  · obtain ⟨magnitude, inRange, exact⟩ := Double.exists_value_natural small
    have same := nearest.unique (exact ▸ Double.isNearest_value inRange)
    rw [same, exact, Nat.floor_natCast]
  · obtain ⟨magnitude, inRange, exact⟩ : ∃ magnitude ≤ Double.infinite, _ = (maxLength : ℚ) :=
      Double.exists_value_natural (by decide)
    have below : magnitude ≤ (Double.ofInt length).magnitude := by
      apply (Double.isNearest_value inRange).mono nearest
      rw [exact]
      exact_mod_cast le_trans (by decide) large
    have floor : maxLength ≤ ⌊Double.value (Double.ofInt length).magnitude⌋₊ := by
      apply Nat.le_floor
      rw [← exact]
      exact Double.value_strictMono.monotone below
    rw [Nat.min_eq_right floor, Nat.min_eq_right (le_trans (by decide) large)]

theorem hasLength_natural (length : Nat) : HasLength (.integer length) (min length maxLength) :=
  ⟨Double.ofInt length, .integer rfl (Double.isNearest_ofInt length), (lengthOf_ofInt length).symm⟩

theorem readAlike_hasLength {value : Json} (writes : WritesLength value) :
    ReadAlike HasLength value := by
  intro members member isObject has
  by_cases isNumber : ∃ number, IsNumber member number
  · obtain ⟨number, isNumber⟩ := isNumber
    obtain ⟨length, rfl, missing⟩ := writes members member number isObject has isNumber
    refine .inr ⟨length, min length maxLength, rfl, hasLength_natural length,
      Nat.min_le_left _ _, ?_⟩
    intro index atLeast below
    exact missing index (by omega) below
  · left
    refine ⟨?_, ?_⟩
    · cases member with
      | integer value =>
        exact absurd ⟨_, .integer rfl (Double.isNearest_ofInt value)⟩ isNumber
      | _ => rfl
    · rintro length ⟨number, numberIs, -⟩
      exact isNumber ⟨number, numberIs⟩

/-! ## Calls -/

theorem returns_of_readAlike {reading : Json → Nat → Prop} {arguments : List Json}
    (ordinary : ∀ argument ∈ arguments, argument.isOrdinary = true)
    (alike : ∀ argument ∈ arguments, ReadAlike reading argument) :
    Returns reading arguments (joinClasses arguments) := by
  refine ⟨arguments.map classes, ?_, ?_⟩
  · rw [List.forall₂_map_right_iff, List.forall₂_same]
    intro argument membership
    exact adds_classes (ordinary argument membership) (alike argument membership)
  · rw [joinClasses, List.flatMap_def]

/-- `joinClasses` returns what the helper returns if lengths are written as natural numbers, and
in all cases what the helper would return if it took only such lengths. -/
theorem returns_joinClasses {arguments : List Json}
    (ordinary : ∀ argument ∈ arguments, argument.isOrdinary = true) :
    Returns HasNaturalLength arguments (joinClasses arguments) ∧
      ((∀ argument ∈ arguments, WritesLength argument) →
        Returns HasLength arguments (joinClasses arguments)) := by
  constructor
  · exact returns_of_readAlike ordinary fun argument _ => readAlike_natural argument
  · intro writes
    exact returns_of_readAlike ordinary fun argument membership =>
      readAlike_hasLength (writes argument membership)

theorem returns_joinClasses_sparse :
    Returns HasLength
      [.array [.string "a", .string "", .array [.string "x", .null, .string "y"]], .null,
        .object [("length", .integer 3), ("0", .string "p"), ("2", .string "q")]]
      "a x,,y p q" := by
  refine (returns_joinClasses (by decide)).2 ?_
  intro argument membership
  simp only [List.mem_cons, List.not_mem_nil, or_false] at membership
  rcases membership with rfl | rfl | rfl
  · exact fun _ _ _ isObject => by contradiction
  · exact fun _ _ _ isObject => by contradiction
  · rintro members member number ⟨⟩ has -
    obtain rfl := Option.some.inj has
    exact ⟨3, rfl, fun index atLeast below => absurd (atLeast.trans_lt below) (by decide)⟩

/-- A negative number is a length for the helper, but an object with it contributes its own
text here. -/
theorem returns_joinClasses_negative :
    joinClasses [.object [("length", .integer (-1))]] = "[object Object]" ∧
      Returns HasLength [.object [("length", .integer (-1))]] "" ∧
      ¬ Returns HasLength [.object [("length", .integer (-1))]] "[object Object]" := by
  have read : HasLength (.integer (-1)) 0 :=
    ⟨Double.ofInt (-1), .integer rfl (Double.isNearest_ofInt (-1)), rfl⟩
  refine ⟨by decide +kernel, ⟨[[]], .cons (.spread (.object rfl read) .start) .nil, rfl⟩, ?_⟩
  rintro ⟨pushed, added, result⟩
  cases added with
  | cons added rest =>
    cases rest
    cases added with
    | dropped drop => simp [Dropped] at drop
    | whole keep plain prints => exact plain _ _ (.object rfl read)
    | spread elements visits =>
      cases elements with
      | object has otherRead =>
        obtain rfl := Option.some.inj has
        obtain ⟨number, isNumber, rfl⟩ := otherRead
        cases isNumber with
        | integer sign nearest =>
          have zero : lengthOf number = 0 := by
            rw [lengthOf, sign]
            rfl
          rw [zero] at visits
          cases visits
          exact absurd result (by decide +kernel)

end Template.Json
