import Template.Proofs.Fragment.Leading

/-!
# The parts of a text

A text is cut at the separators outside all brackets, strings and comments.  One character
either goes into the first part (`partsFrom_keep`) or ends it (`partsFrom_cut`).  Nothing else
is lost than the separators, so the parts with separators between them are the text again.

A part can be read by itself, from the beginning: the reading is in code at both of its ends
and sees the same characters in between, although it looks one character ahead
(`read_first_part`).  Therefore a part is not cut any further, and the parts of a balanced
text are balanced.
-/

namespace Template.Fragment

/-- Whether a separator is read outside all brackets. -/
def Reading.cuts (separator char : Char) : Reading → Bool
  | .visible next => next.stack.isEmpty && char == separator
  | .hidden _ | .broken => false

variable {separator : Char} {state : State} {text : List Char}

/-! ## One character -/

theorem partsFrom_keep {char : Char} {after : State}
    (reading : (state.read char text.head?).state? = some after)
    (keeps : (state.read char text.head?).cuts separator char = false) :
    partsFrom separator state (char :: text) =
      (partsFrom separator after text).map (consPart char) := by
  rw [partsFrom]
  cases found : state.read char text.head? with
  | broken =>
      rw [found] at reading
      cases reading
  | hidden next =>
      rw [found] at reading
      cases reading
      rfl
  | visible next =>
      rw [found] at reading keeps
      cases reading
      rw [Reading.cuts] at keeps
      simp only [keeps, Bool.false_eq_true, ↓reduceIte]

theorem partsFrom_cut {after : State}
    (reading : state.read separator text.head? = .visible after) (empty : after.stack = []) :
    partsFrom separator state (separator :: text) =
      (partsFrom separator after text).map ([] :: ·) := by
  simp [partsFrom, reading, empty]

theorem exists_cons_of_partsFrom {parts : List (List Char)}
    (found : partsFrom separator state text = some parts) :
    ∃ first rest, parts = first :: rest := by
  have consPart_cons (char : Char) (parts : List (List Char)) :
      ∃ first rest, consPart char parts = first :: rest := by
    cases parts with
    | nil => exact ⟨[char], [], rfl⟩
    | cons first rest => exact ⟨char :: first, rest, rfl⟩
  cases text with
  | nil =>
      cases found
      exact ⟨[], [], rfl⟩
  | cons char text =>
      rw [partsFrom] at found
      split at found
      next => cases found
      next =>
        obtain ⟨parts, -, rfl⟩ := Option.map_eq_some_iff.mp found
        exact consPart_cons char parts
      next =>
        split at found
        next =>
          obtain ⟨parts, -, rfl⟩ := Option.map_eq_some_iff.mp found
          exact ⟨[], parts, rfl⟩
        next =>
          obtain ⟨parts, -, rfl⟩ := Option.map_eq_some_iff.mp found
          exact consPart_cons char parts

/-- A character goes into the first part of what follows it, or it is a separator and
there is an empty part in front of it. -/
theorem partsFrom_cons {char : Char} {first : List Char} {rest : List (List Char)}
    (found : partsFrom separator state (char :: text) = some (first :: rest)) :
    (∃ next others, (state.read char text.head?).state? = some next ∧
      (state.read char text.head?).cuts separator char = false ∧
      partsFrom separator next text = some (others :: rest) ∧ first = char :: others) ∨
    ∃ next, state.read char text.head? = .visible next ∧ next.stack = [] ∧
      char = separator ∧ partsFrom separator next text = some rest ∧ first = [] := by
  have intoFirst {next : State} (reading : (state.read char text.head?).state? = some next)
      (keeps : (state.read char text.head?).cuts separator char = false) :
      ∃ next others, (state.read char text.head?).state? = some next ∧
        (state.read char text.head?).cuts separator char = false ∧
        partsFrom separator next text = some (others :: rest) ∧ first = char :: others := by
    rw [partsFrom_keep reading keeps] at found
    obtain ⟨parts, foundRest, same⟩ := Option.map_eq_some_iff.mp found
    obtain ⟨others, parts, rfl⟩ := exists_cons_of_partsFrom foundRest
    cases same
    exact ⟨next, others, reading, keeps, foundRest, rfl⟩
  cases reading : state.read char text.head? with
  | broken => simp [partsFrom, reading] at found
  | hidden next =>
      rw [reading] at intoFirst
      exact .inl (intoFirst rfl rfl)
  | visible next =>
      rcases Bool.eq_false_or_eq_true ((Reading.visible next).cuts separator char) with
        cuts | keeps
      · simp only [Reading.cuts, Bool.and_eq_true, List.isEmpty_iff, beq_iff_eq] at cuts
        obtain ⟨empty, rfl⟩ := cuts
        rw [partsFrom_cut reading empty] at found
        obtain ⟨parts, foundRest, same⟩ := Option.map_eq_some_iff.mp found
        cases same
        exact .inr ⟨next, rfl, empty, rfl, foundRest, rfl⟩
      · rw [reading] at intoFirst
        exact .inl (intoFirst rfl keeps)

/-- The parts with separators between them are the text. -/
theorem intercalate_partsFrom {parts : List (List Char)}
    (found : partsFrom separator state text = some parts) :
    [separator].intercalate parts = text := by
  induction text generalizing state parts with
  | nil =>
      cases found
      rfl
  | cons char text inductionHypothesis =>
      obtain ⟨first, rest, rfl⟩ := exists_cons_of_partsFrom found
      rcases partsFrom_cons found with
        ⟨next, others, -, -, foundRest, rfl⟩ | ⟨next, -, -, rfl, foundRest, rfl⟩
      · have later := inductionHypothesis foundRest
        cases rest with
        | nil => simpa using later
        | cons second rest =>
            rw [List.intercalate_cons_cons] at later ⊢
            rw [List.cons_append, List.cons_append, later]
      · obtain ⟨second, rest, rfl⟩ := exists_cons_of_partsFrom foundRest
        rw [List.intercalate_cons_cons, inductionHypothesis foundRest]
        rfl

/-! ## Reading a part by itself -/

namespace State

/-- Only a character in code is visible. -/
theorem eq_code_of_read_eq_visible {state after : State} {char : Char}
    {next : Option Char} (visible : state.read char next = .visible after) :
    state = { stack := state.stack } := by
  obtain ⟨mode, stack, held⟩ := state
  cases held with
  | true => simp [read] at visible
  | false =>
      cases mode with
      | code => rfl
      | quoted | template | lineComment | blockComment => simp [read] at visible

/-- A visible character does not lead out of code. -/
theorem after_eq_code_of_read_eq_visible {state after : State} {char : Char}
    {next : Option Char} (visible : state.read char next = .visible after) :
    after = { stack := after.stack } := by
  have inCode := eq_code_of_read_eq_visible visible
  rw [inCode] at visible
  simp only [read, readCode, close, Bool.false_eq_true, ↓reduceIte] at visible
  repeat' split at visible
  all_goals cases visible
  all_goals rfl

end State

/-- The first part begins as the text does, unless it ends at once. -/
theorem head?_first_part {first : List Char} {rest : List (List Char)}
    (found : partsFrom separator state text = some (first :: rest)) :
    first.head? = text.head? ∨ first = [] ∧ state = { stack := state.stack } := by
  cases text with
  | nil =>
      cases found
      exact .inl rfl
  | cons char text =>
      rcases partsFrom_cons found with ⟨_, _, -, -, -, rfl⟩ | ⟨_, visible, -, -, -, rfl⟩
      · exact .inl rfl
      · exact .inr ⟨rfl, State.eq_code_of_read_eq_visible visible⟩

/-- A character in front of the first part is read as in front of the text: if it is the
last one before a separator, it leads into code. -/
theorem read_first_part {char : Char} {next : State} {others : List Char}
    {rest : List (List Char)} (reading : (state.read char text.head?).state? = some next)
    (found : partsFrom separator next text = some (others :: rest)) :
    state.read char others.head? = state.read char text.head? := by
  rcases head?_first_part found with same | ⟨rfl, inCode⟩
  · rw [same]
  · rw [inCode] at reading
    exact State.read_eq_of_separates rfl rfl rfl reading

/-- A part is not cut any further. -/
theorem whole_of_partsFrom {first : List Char} {rest : List (List Char)}
    (found : partsFrom separator state text = some (first :: rest)) :
    partsFrom separator state first = some [first] ∧
      ∀ part ∈ rest, partsFrom separator {} part = some [part] := by
  induction text generalizing state first rest with
  | nil =>
      cases found
      exact ⟨rfl, by simp⟩
  | cons char text inductionHypothesis =>
      rcases partsFrom_cons found with
        ⟨next, others, reading, keeps, foundRest, rfl⟩ | ⟨next, visible, empty, rfl, foundRest, rfl⟩
      · obtain ⟨firstWhole, restWhole⟩ := inductionHypothesis foundRest
        have alone := read_first_part reading foundRest
        rw [← alone] at reading keeps
        rw [partsFrom_keep reading keeps, firstWhole]
        exact ⟨rfl, restWhole⟩
      · obtain ⟨second, rest, rfl⟩ := exists_cons_of_partsFrom foundRest
        -- Behind a separator the reading is where it was at the beginning.
        have start : next = {} := by
          rw [State.after_eq_code_of_read_eq_visible visible, empty]
        rw [start] at foundRest
        exact ⟨rfl, List.forall_mem_cons.mpr (inductionHypothesis foundRest)⟩

theorem whole_of_mem_partsFrom {parts : List (List Char)}
    (found : partsFrom separator {} text = some parts) :
    ∀ part ∈ parts, partsFrom separator {} part = some [part] := by
  obtain ⟨first, rest, rfl⟩ := exists_cons_of_partsFrom found
  obtain ⟨firstWhole, restWhole⟩ := whole_of_partsFrom found
  exact List.forall_mem_cons.mpr ⟨firstWhole, restWhole⟩

/-- If a reading of the whole text ends in code without open brackets, then so does a
reading of each part. -/
theorem run_of_partsFrom (plain : separator ∉ specials) {first : List Char}
    {rest : List (List Char)} (found : partsFrom separator state text = some (first :: rest))
    (success : state.run none text = some {}) :
    state.run none first = some {} ∧ ∀ part ∈ rest, Balanced part := by
  induction text generalizing state first rest with
  | nil =>
      cases found
      exact ⟨success, by simp⟩
  | cons char text inductionHypothesis =>
      rw [State.run, Option.or_none] at success
      obtain ⟨after, reading, later⟩ := Option.bind_eq_some_iff.mp success
      rcases partsFrom_cons found with
        ⟨next, others, nextReading, -, foundRest, rfl⟩ |
          ⟨next, visible, empty, rfl, foundRest, rfl⟩
      · obtain rfl : next = after := Option.some.inj (nextReading.symm.trans reading)
        obtain ⟨firstRun, restBalanced⟩ := inductionHypothesis foundRest later
        refine ⟨?_, restBalanced⟩
        rw [State.run, Option.or_none, read_first_part reading foundRest, reading]
        exact firstRun
      · rw [visible] at reading
        obtain rfl : next = after := Option.some.inj reading
        have inCode := State.eq_code_of_read_eq_visible visible
        rw [inCode, State.read_plain plain] at visible
        obtain rfl : { stack := state.stack } = next := Reading.visible.inj visible
        have start : state = {} := by rw [inCode, (empty : state.stack = [])]
        subst start
        obtain ⟨second, rest, rfl⟩ := exists_cons_of_partsFrom foundRest
        obtain ⟨secondRun, restBalanced⟩ := inductionHypothesis foundRest later
        exact ⟨rfl, List.forall_mem_cons.mpr ⟨secondRun, restBalanced⟩⟩

theorem Balanced.of_mem_partsFrom (balanced : Balanced text) (plain : separator ∉ specials)
    {parts : List (List Char)} (found : partsFrom separator {} text = some parts) :
    ∀ part ∈ parts, Balanced part := by
  obtain ⟨first, rest, rfl⟩ := exists_cons_of_partsFrom found
  obtain ⟨firstRun, restBalanced⟩ := run_of_partsFrom plain found balanced
  exact List.forall_mem_cons.mpr ⟨firstRun, restBalanced⟩

end Template.Fragment
