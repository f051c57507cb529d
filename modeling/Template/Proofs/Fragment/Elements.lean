import Template.Proofs.Fragment.Splitting

/-!
# The elements of an array

A source is an array literal if it begins with a bracket whose partner is its last
character.  The text between the brackets is balanced then, so it can always be cut at its
commas, and the elements are those parts that say something.

The other way round, `Slot` is what may stand between two commas: an element with blanks
around it, or blanks only.  An array of slots gives back the elements of its slots.
-/

namespace Template.Fragment

open Template.Text

variable {separator : Char} {chars inside : List Char}

/-! ## Cutting a text that can be read -/

/-- A text can be cut exactly if it can be read to its end. -/
theorem isSome_partsFrom_iff {state : State} :
    (partsFrom separator state chars).isSome = true ↔ (state.run none chars).isSome = true := by
  induction chars generalizing state with
  | nil => simp [partsFrom, State.run]
  | cons char chars inductionHypothesis =>
      rw [partsFrom, State.run, Option.or_none]
      cases state.read char chars.head? with
      | broken => simp [Reading.state?]
      | hidden next => simpa [Reading.state?] using inductionHypothesis
      | visible next =>
          simp only [Reading.state?, Option.bind_some]
          split
          · simpa using inductionHypothesis
          · simpa using inductionHypothesis

theorem Balanced.exists_partsFrom (balanced : Balanced chars) (separator : Char) :
    ∃ parts, partsFrom separator {} chars = some parts := by
  apply Option.isSome_iff_exists.mp
  rw [isSome_partsFrom_iff, balanced, Option.isSome_some]

/-! ## Brackets around the elements -/

/-- The parts that say something, without the blanks around them. -/
def elementsOf (parts : List (List Char)) : List String :=
  ((parts.map strip).filter fun part => !part.isEmpty).map String.ofList

theorem elementsOf_cons (part : List Char) (parts : List (List Char)) :
    elementsOf (part :: parts) =
      if (strip part).isEmpty then elementsOf parts
      else String.ofList (strip part) :: elementsOf parts := by
  cases empty : (strip part).isEmpty with
  | true => simp [elementsOf, empty]
  | false => simp [elementsOf, empty]

theorem exists_part_of_mem_elementsOf {parts : List (List Char)} {element : String}
    (membership : element ∈ elementsOf parts) :
    ∃ part ∈ parts, element = String.ofList (strip part) := by
  simp only [elementsOf, List.mem_map, List.mem_filter] at membership
  obtain ⟨_, ⟨⟨part, partMembership, rfl⟩, -⟩, rfl⟩ := membership
  exact ⟨part, partMembership, rfl⟩

/-- The elements of balanced text in brackets are those of its parts. -/
theorem arrayElements?_of_balanced {source : String} (balanced : Balanced inside)
    (bracketed : strip source.toList = '[' :: (inside ++ [']'])) :
    arrayElements? source = (partsFrom ',' {} inside).map elementsOf := by
  have closes : untilClose {} ('[' :: (inside ++ [']'])) = some ('[' :: inside, []) :=
    balanced.untilClose_eq rfl []
  rw [arrayElements?, bracketed]
  simp only [closes]
  rfl

/-- Only balanced text in brackets has elements. -/
theorem exists_balanced_of_arrayElements? {source : String} {elements : List String}
    (found : arrayElements? source = some elements) :
    ∃ inside, Balanced inside ∧ strip source.toList = '[' :: (inside ++ [']']) := by
  unfold arrayElements? at found
  split at found
  next rest stripped =>
    split at found
    next opener inside closes =>
      have span : spanClose? ('[' :: rest) = some (opener :: inside, []) := closes
      obtain ⟨_, body, closer, pair, items, same, front⟩ := spanClose?_eq_some_iff.mp span
      cases front
      cases same
      cases pair
      exact ⟨inside, items.balanced, stripped⟩
    next => cases found
  next => cases found

/-- The bracket that a text begins with is closed at the end of the text exactly if the text
between these two is balanced. -/
theorem matchingClose?_last_iff :
    chars.head? = some '[' ∧
        matchingClose? (String.ofList chars) = some (byteSize chars - 1) ↔
      ∃ inside, Balanced inside ∧ chars = '[' :: (inside ++ [']']) := by
  have pair : closer? '[' = some ']' := rfl
  have closerSize : Char.utf8Size ']' = 1 := rfl
  constructor
  · rintro ⟨starts, closes⟩
    rw [matchingClose?, String.toList_ofList] at closes
    obtain ⟨⟨before, after⟩, span, size⟩ := Option.map_eq_some_iff.mp closes
    obtain ⟨opener, inside, closer, openerPair, items, rfl, rfl⟩ := spanClose?_eq_some_iff.mp span
    obtain rfl : opener = '[' := Option.some.inj starts
    obtain rfl : closer = ']' := Option.some.inj (openerPair.symm.trans pair)
    -- The closing bracket is one byte, so its position leaves nothing behind it.
    have nothingAfter : byteSize after = 0 := by
      simp only [byteSize_cons, byteSize_append, closerSize] at size
      omega
    rw [eq_nil_of_byteSize_eq_zero nothingAfter]
    exact ⟨inside, items.balanced, rfl⟩
  · rintro ⟨inside, balanced, rfl⟩
    refine ⟨rfl, ?_⟩
    have size : byteSize ('[' :: (inside ++ [']'])) = byteSize ('[' :: inside) + 1 := by
      rw [← List.cons_append, byteSize_append]
      rfl
    rw [(matchingClose?_eq_iff_balanced pair).mpr balanced, size, Nat.add_sub_cancel]

theorem isSome_arrayElements?_iff (source : String) :
    (arrayElements? source).isSome = true ↔
      (trim source).toList.head? = some '[' ∧
        matchingClose? (trim source) = some (byteSize (trim source).toList - 1) := by
  rw [trim, String.toList_ofList, matchingClose?_last_iff]
  constructor
  · intro found
    obtain ⟨elements, foundElements⟩ := Option.isSome_iff_exists.mp found
    exact exists_balanced_of_arrayElements? foundElements
  · rintro ⟨inside, balanced, bracketed⟩
    obtain ⟨parts, foundParts⟩ := balanced.exists_partsFrom ','
    rw [arrayElements?_of_balanced balanced bracketed, foundParts]
    rfl

/-! ## Slots -/

/-- A source that can be one element of an array. -/
def IsElement (source : String) : Prop :=
  IsTrimmed source ∧ Closed source ∧ topLevelParts? ',' source = some [source]

instance (source : String) : Decidable (IsElement source) :=
  inferInstanceAs (Decidable (_ ∧ _ ∧ _))

/-- What stands between two commas of an array: blanks, with or without an element among
them. -/
structure Slot where
  before : String := ""
  element? : Option String
  after : String := ""
  blankBefore : ∀ char ∈ before.toList, isBlank char = true := by
    exact List.all_eq_true.mp (by decide)
  blankAfter : ∀ char ∈ after.toList, isBlank char = true := by
    exact List.all_eq_true.mp (by decide)

theorem Undivided.blanks_append {blanks : List Char}
    (blank : ∀ char ∈ blanks, isBlank char = true) (undivided : Undivided ',' chars) :
    Undivided ',' (blanks ++ chars) := by
  have plain : ∀ char ∈ blanks, char ∉ specials :=
    fun char membership => not_mem_specials_of_isBlank (blank char membership)
  have noComma : ',' ∉ blanks := by
    intro membership
    cases blank ',' membership
  exact undivided.plain_append plain noComma

theorem Undivided.append_blanks {blanks : List Char}
    (blank : ∀ char ∈ blanks, isBlank char = true) (undivided : Undivided ',' chars) :
    Undivided ',' (chars ++ blanks) := by
  have blanksAlone : Undivided ',' blanks := by
    simpa using blanks_append blank (Undivided.nil ',')
  cases blanks with
  | nil => simpa using undivided
  | cons first rest =>
      exact undivided.append blanksAlone (separates_of_isBlank (blank first List.mem_cons_self))

namespace Slot

/-- The characters of a slot. -/
def text (slot : Slot) : String :=
  slot.before ++ (slot.element?.getD "" ++ slot.after)

/-- The elements of slots, in order. -/
def elements (slots : List Slot) : List String :=
  slots.filterMap Slot.element?

/-- The array literal with the given slots. -/
def array (slots : List Slot) : String :=
  "[" ++ ",".intercalate (slots.map text) ++ "]"

variable {slot : Slot} {slots : List Slot}

theorem undivided_text (valid : ∀ element ∈ slot.element?, IsElement element) :
    Undivided ',' slot.text.toList := by
  have core : Undivided ',' (slot.element?.getD "").toList := by
    cases found : slot.element? with
    | none => exact Undivided.nil ','
    | some element => exact undivided_iff.mpr (valid element found).2
  rw [text, String.toList_append, String.toList_append]
  exact (core.append_blanks slot.blankAfter).blanks_append slot.blankBefore

theorem strip_text (valid : ∀ element ∈ slot.element?, IsElement element) :
    strip slot.text.toList = (slot.element?.getD "").toList := by
  rw [text, String.toList_append, String.toList_append, strip_blanks_append slot.blankBefore,
    strip_append_blanks slot.blankAfter]
  cases found : slot.element? with
  | none => rfl
  | some element =>
      have trimmed : trim element = element := (valid element found).1.2
      rw [← String.toList_inj, trim, String.toList_ofList] at trimmed
      exact trimmed

theorem elementsOf_texts (valid : ∀ slot ∈ slots, ∀ element ∈ slot.element?, IsElement element) :
    elementsOf (slots.map fun slot => slot.text.toList) = elements slots := by
  induction slots with
  | nil => rfl
  | cons slot slots inductionHypothesis =>
      rw [List.forall_mem_cons] at valid
      rw [List.map_cons, elementsOf_cons, strip_text valid.1, inductionHypothesis valid.2]
      cases found : slot.element? with
      | none => simp [elements, found]
      | some element =>
          have nonempty : element.toList ≠ [] := by simpa using (valid.1 element found).1.1
          simp [elements, found, nonempty]

/-- Slots with commas between them come apart at these commas. -/
theorem partsFrom_texts (valid : ∀ slot ∈ slots, ∀ element ∈ slot.element?, IsElement element) :
    (partsFrom ',' {} (",".intercalate (slots.map text)).toList).map elementsOf =
      some (elements slots) := by
  cases slots with
  | nil => rfl
  | cons first rest =>
      have undivided : ∀ chars ∈ first.text.toList :: rest.map fun slot => slot.text.toList,
          Undivided ',' chars := by
        rw [List.forall_mem_cons] at valid
        rw [List.forall_mem_cons, List.forall_mem_map]
        exact ⟨undivided_text valid.1,
          fun slot membership => undivided_text (valid.2 slot membership)⟩
      have apart : partsFrom ',' {} ([','].intercalate
          (first.text.toList :: rest.map fun slot => slot.text.toList)) =
            some ((first :: rest).map fun slot => slot.text.toList) := by
        have joined := partsFrom_intercalate [] [] (by decide) rfl (by simp) (by simp) undivided
        simpa [padded_nil_left, Function.comp_def] using joined
      have characters : (",".intercalate ((first :: rest).map text)).toList =
          [','].intercalate (first.text.toList :: rest.map fun slot => slot.text.toList) := by
        simp [String.toList_intercalate, Function.comp_def]
      rw [characters, apart, Option.map_some, elementsOf_texts valid]

theorem balanced_texts (valid : ∀ slot ∈ slots, ∀ element ∈ slot.element?, IsElement element) :
    Balanced (",".intercalate (slots.map text)).toList := by
  have textsLead : ∀ item ∈ slots.map text, ∀ next, separates next = true →
      Leads next item [] [] := by
    intro item membership next nextSeparates
    obtain ⟨slot, slotMembership, rfl⟩ := List.mem_map.mp membership
    exact (undivided_text (valid slot slotMembership)).balanced.run nextSeparates []
  have together : Leads none (",".intercalate (slots.map text)) [] [] :=
    Leads.intercalate (fun _ => rfl) (fun _ => rfl) textsLead rfl
  exact together

/-- An array gives back the elements of its slots. -/
theorem arrayElements?_array
    (valid : ∀ slot ∈ slots, ∀ element ∈ slot.element?, IsElement element) :
    arrayElements? (array slots) = some (elements slots) := by
  have bracketed : strip (array slots).toList =
      '[' :: ((",".intercalate (slots.map text)).toList ++ [']']) := by
    have characters : (array slots).toList =
        '[' :: ((",".intercalate (slots.map text)).toList ++ [']']) := by
      simp [array]
    rw [characters, strip_between rfl rfl]
  rw [arrayElements?_of_balanced (balanced_texts valid) bracketed, partsFrom_texts valid]

end Slot

/-- A source has elements exactly if it begins with a bracket that is closed at its end, and
an array has those that were put in it, whatever blanks and commas are put around them. -/
theorem arrayElements?_exact :
    (∀ source, (arrayElements? source).isSome = true ↔
      (trim source).toList.head? = some '[' ∧
        matchingClose? (trim source) = some (byteSize (trim source).toList - 1)) ∧
    (∀ elements : List String, (∀ element ∈ elements, IsElement element) →
      arrayElements? ("[" ++ ",".intercalate elements ++ "]") = some elements) ∧
    ∀ slots : List Slot, (∀ element ∈ Slot.elements slots, IsElement element) →
      arrayElements? (Slot.array slots) = some (Slot.elements slots) := by
  have ofSlots (slots : List Slot) (valid : ∀ element ∈ Slot.elements slots, IsElement element) :
      arrayElements? (Slot.array slots) = some (Slot.elements slots) := by
    apply Slot.arrayElements?_array
    intro slot membership element found
    exact valid element (List.mem_filterMap.mpr ⟨slot, membership, found⟩)
  refine ⟨isSome_arrayElements?_iff, ?_, ofSlots⟩
  intro elements valid
  have tight : Slot.elements (elements.map fun element => { element? := some element }) =
      elements := by
    simp [Slot.elements, List.filterMap_map]
  have array := ofSlots (elements.map fun element => { element? := some element })
  rw [tight] at array
  simpa [Slot.array, Slot.text, Function.comp_def] using array valid

/-- Elements with commas, brackets and a comment in them. -/
def hiddenElements : List String := ["f(1, [2])", "\",]\"", "/", "`$\x7b[a, b]\x7d` /* ] */"]

/-- Slots with a hole at the beginning, in the middle and at the end. -/
def scatteredSlots : List Slot :=
  [{ element? := none }, { before := " \n", element? := some "f(1, [2])", after := "\u00a0" },
    { before := "\t", element? := none }, { element? := some "/" }, { element? := none }]

theorem arrayElements?_exact_scattered :
    ((arrayElements? " [a, b] ").isSome = true ∧ (arrayElements? "[a][0]").isSome = false) ∧
    ((∀ element ∈ hiddenElements, IsElement element) ∧
      arrayElements? ("[" ++ ",".intercalate hiddenElements ++ "]") = some hiddenElements) ∧
    (∀ element ∈ Slot.elements scatteredSlots, IsElement element) ∧
      Slot.array scatteredSlots = "[, \nf(1, [2])\u00a0,\t,/,]" ∧
      arrayElements? (Slot.array scatteredSlots) = some ["f(1, [2])", "/"] := by
  have hidden : ∀ element ∈ hiddenElements, IsElement element := by decide +kernel
  have scattered : ∀ element ∈ Slot.elements scatteredSlots, IsElement element := by
    decide +kernel
  refine ⟨⟨?_, ?_⟩, ⟨hidden, ?_⟩, scattered, by decide +kernel, ?_⟩
  · rw [arrayElements?_exact.1]
    decide +kernel
  · rw [Bool.eq_false_iff, ne_eq, arrayElements?_exact.1]
    decide +kernel
  · exact arrayElements?_exact.2.1 hiddenElements hidden
  · exact arrayElements?_exact.2.2 scatteredSlots scattered

end Template.Fragment
