import Template.Proofs.Fragment.Grammar
import Template.Proofs.Fragment.Parts
import Template.Proofs.Text.Trimming

/-!
# Cutting and joining

Joined with separators the parts of a text are the text again.  The other way round, texts
that are joined come apart as they were if each of them is `Undivided`: balanced, so that the
separator behind it stands in code outside all brackets, and without a cut of its own.
Blanks around the separators stay with the texts next to them (`padded`).

Undivided texts are put together from tokens: quoted texts and groups in brackets, whatever
is in them, and plain characters other than the separator.
-/

namespace Template.Fragment

open Template.Text

variable {separator : Char} {text rest : List Char}

/-! ## Texts without a cut -/

/-- Put characters in front of the first part. -/
def consChars (front : List Char) (parts : List (List Char)) : List (List Char) :=
  front.foldr consPart parts

@[simp] theorem consChars_cons (front part : List Char) (parts : List (List Char)) :
    consChars front (part :: parts) = (front ++ part) :: parts := by
  induction front with
  | nil => rfl
  | cons char front inductionHypothesis =>
      change consPart char (consChars front (part :: parts)) = _
      rw [inductionHypothesis]
      rfl

theorem map_consChars_nil (parts : Option (List (List Char))) :
    parts.map (consChars []) = parts := by
  cases parts with
  | none | some => rfl

theorem map_consChars_cons (char : Char) (front : List Char)
    (parts : Option (List (List Char))) :
    (parts.map (consChars front)).map (consPart char) = parts.map (consChars (char :: front)) := by
  cases parts with
  | none | some => rfl

/-- A text without a cut goes into the first part of what follows it.  What follows has to
leave the last character alone. -/
theorem partsFrom_append {state : State} (whole : partsFrom separator state text = some [text])
    (success : state.run none text = some {}) (restSeparates : separates rest.head? = true) :
    partsFrom separator state (text ++ rest) =
      (partsFrom separator {} rest).map (consChars text) := by
  induction text generalizing state with
  | nil =>
      cases success
      exact (map_consChars_nil _).symm
  | cons char text inductionHypothesis =>
      rw [State.run, Option.or_none] at success
      obtain ⟨after, reading, later⟩ := Option.bind_eq_some_iff.mp success
      rcases partsFrom_cons whole with
        ⟨next, others, nextReading, keeps, wholeRest, same⟩ | ⟨_, _, _, _, _, impossible⟩
      · cases same
        obtain rfl : next = after := Option.some.inj (nextReading.symm.trans reading)
        -- Only the last character of the text sees what follows.
        have lookahead : state.read char (text ++ rest).head? = state.read char text.head? := by
          cases text with
          | nil =>
              cases later
              exact State.read_eq_of_separates restSeparates rfl rfl reading
          | cons => rfl
        rw [← lookahead] at reading keeps
        rw [List.cons_append, partsFrom_keep reading keeps, inductionHypothesis wholeRest later,
          map_consChars_cons]
      · cases impossible

/-- Nothing is cut above open brackets that stay open. -/
theorem partsFrom_above {state final : State} {base : List Frame} (nonempty : base ≠ [])
    (success : state.run rest.head? text = some final) :
    partsFrom separator (state.above base) (text ++ rest) =
      (partsFrom separator (final.above base) rest).map (consChars text) := by
  induction text generalizing state with
  | nil =>
      cases success
      exact (map_consChars_nil _).symm
  | cons char text inductionHypothesis =>
      rw [State.run, ← List.head?_append] at success
      obtain ⟨after, reading, later⟩ := Option.bind_eq_some_iff.mp success
      have fits : state.read char (text ++ rest).head? ≠ .broken := by
        intro broken
        rw [broken] at reading
        cases reading
      have aboveReading : ((state.above base).read char (text ++ rest).head?).state? =
          some (after.above base) := by
        rw [State.read_above base fits]
        cases found : state.read char (text ++ rest).head? with
        | broken => exact absurd found fits
        | visible next | hidden next =>
            rw [found] at reading
            cases reading
            rfl
      have keeps : ((state.above base).read char (text ++ rest).head?).cuts separator char =
          false := by
        rw [State.read_above base fits]
        cases state.read char (text ++ rest).head? with
        | visible next => simp [Reading.above, Reading.cuts, State.above, nonempty]
        | hidden | broken => rfl
      rw [List.cons_append, partsFrom_keep aboveReading keeps, inductionHypothesis later,
        map_consChars_cons]

/-- Nothing is cut inside a string. -/
theorem partsFrom_quoted {mark : Char} (inside : QuotedText mark text) :
    partsFrom separator { mode := .quoted mark } (text ++ rest) =
      (partsFrom separator { mode := .quoted mark } rest).map (consChars text) := by
  induction inside with
  | nil => exact (map_consChars_nil _).symm
  | @escaped char text others inductionHypothesis =>
      have protects : partsFrom separator { mode := .quoted mark }
          (backslash :: char :: (text ++ rest)) =
            ((partsFrom separator { mode := .quoted mark } (text ++ rest)).map
              (consPart char)).map (consPart backslash) := rfl
      rw [List.cons_append, List.cons_append, protects, inductionHypothesis, map_consChars_cons,
        map_consChars_cons]
  | @plain char text noBackslash noMark others inductionHypothesis =>
      have same (next : Option Char) : State.read { mode := .quoted mark } char next =
          .hidden { mode := .quoted mark } := by
        simp [State.read, State.readQuoted, noBackslash, noMark]
      rw [List.cons_append, partsFrom_keep (by rw [same]; rfl) (by rw [same]; rfl),
        inductionHypothesis, map_consChars_cons]

/-- Plain characters other than the separator are not cut, whatever follows them. -/
theorem partsFrom_plain (plain : ∀ char ∈ text, char ∉ specials) (other : separator ∉ text) :
    partsFrom separator {} (text ++ rest) =
      (partsFrom separator {} rest).map (consChars text) := by
  induction text with
  | nil => exact (map_consChars_nil _).symm
  | cons char text inductionHypothesis =>
      rw [List.forall_mem_cons] at plain
      rw [List.mem_cons, not_or] at other
      have reading := State.read_plain plain.1 (text ++ rest).head? []
      have keeps : (Reading.visible {}).cuts separator char = false := by
        simp [Reading.cuts, Ne.symm other.1]
      rw [List.cons_append, partsFrom_keep (by rw [reading]; rfl) (by rw [reading]; exact keeps),
        inductionHypothesis plain.2 other.2, map_consChars_cons]

theorem partsFrom_separator (plain : separator ∉ specials) :
    partsFrom separator {} (separator :: text) =
      (partsFrom separator {} text).map ([] :: ·) :=
  partsFrom_cut (State.read_plain plain text.head? []) rfl

/-! ## Undivided texts -/

/-- Balanced text that is one part. -/
structure Undivided (separator : Char) (text : List Char) : Prop where
  balanced : Balanced text
  whole : partsFrom separator {} text = some [text]

namespace Undivided

theorem nil (separator : Char) : Undivided separator [] where
  balanced := rfl
  whole := rfl

theorem append {first second : List Char} (head : Undivided separator first)
    (tail : Undivided separator second) (tailSeparates : separates second.head? = true) :
    Undivided separator (first ++ second) where
  balanced := by
    have headRun := head.balanced.run tailSeparates []
    rw [Balanced, State.run_append, Option.or_none, headRun]
    exact tail.balanced
  whole := by
    rw [partsFrom_append head.whole head.balanced tailSeparates, tail.whole]
    simp

/-- Plain characters may stand in front of anything. -/
theorem plain_append {front : List Char} (plain : ∀ char ∈ front, char ∉ specials)
    (other : separator ∉ front) (undivided : Undivided separator text) :
    Undivided separator (front ++ text) where
  balanced := by
    rw [Balanced, State.run_append, State.run_plain plain]
    exact undivided.balanced
  whole := by
    rw [partsFrom_plain plain other, undivided.whole]
    simp

/-- A string is one token, whatever the separator is. -/
theorem quoted {mark : Char} (isMark : mark ∈ [doubleQuote, singleQuote])
    (inside : QuotedText mark text) : Undivided separator (mark :: (text ++ [mark])) where
  balanced := Item.run [] (.quoted isMark inside)
  whole := by
    have opens : partsFrom separator {} (mark :: (text ++ [mark])) =
        (partsFrom separator { mode := .quoted mark } (text ++ [mark])).map (consPart mark) := by
      obtain rfl | rfl : mark = doubleQuote ∨ mark = singleQuote := by simpa using isMark
      · rfl
      · rfl
    have closes : partsFrom separator { mode := .quoted mark } [mark] = some [[mark]] := by
      obtain rfl | rfl : mark = doubleQuote ∨ mark = singleQuote := by simpa using isMark
      · rfl
      · rfl
    rw [opens, partsFrom_quoted inside, closes]
    simp [consPart]

theorem quoteChars (text : List Char) : Undivided separator (Text.quoteChars text) :=
  quoted List.mem_cons_self (QuotedText.escapes text)

/-- Balanced text in brackets is one token, unless the closing bracket is the separator. -/
theorem group {opener closer : Char} (pair : closer? opener = some closer)
    (other : closer ≠ separator) (balanced : Balanced text) :
    Undivided separator (opener :: (text ++ [closer])) where
  balanced := Item.run [] (.group pair (balanced_iff_items.mp balanced))
  whole := by
    have opens : partsFrom separator {} (opener :: (text ++ [closer])) =
        (partsFrom separator (State.above [.bracket closer] {}) (text ++ [closer])).map
          (consPart opener) := by
      rcases pair_cases pair with ⟨rfl, rfl⟩ | ⟨rfl, rfl⟩ | ⟨rfl, rfl⟩ <;>
        exact partsFrom_keep rfl rfl
    have closes : partsFrom separator (State.above [.bracket closer] {}) [closer] =
        some [[closer]] := by
      have reading : State.read (State.above [.bracket closer] {}) closer none = .visible {} := by
        rcases pair_cases pair with ⟨-, rfl⟩ | ⟨-, rfl⟩ | ⟨-, rfl⟩ <;> rfl
      simp [partsFrom, reading, other, consPart]
    have inside : State.run [closer].head? {} text = some {} :=
      balanced.run (separates_closer pair) []
    rw [opens, partsFrom_above (List.cons_ne_nil _ _) inside, closes]
    simp [consPart]

/-- Undivided texts stay undivided with a gap between them, if the gap does not touch the text
in front of it and may stand in front of any. -/
theorem intercalate {gap : List Char} (gapSeparates : ∀ text, separates (gap ++ text).head? = true)
    (gapAppend : ∀ text, Undivided separator text → Undivided separator (gap ++ text))
    {texts : List (List Char)} (undivided : ∀ text ∈ texts, Undivided separator text) :
    Undivided separator (gap.intercalate texts) := by
  induction texts with
  | nil => exact nil separator
  | cons first rest inductionHypothesis =>
      rw [List.forall_mem_cons] at undivided
      cases rest with
      | nil =>
          rw [List.intercalate_singleton]
          exact undivided.1
      | cons second rest =>
          rw [List.intercalate_cons_cons, List.append_assoc]
          exact undivided.1.append (gapAppend _ (inductionHypothesis undivided.2)) (gapSeparates _)

end Undivided

/-! ## Joined texts -/

/-- The parts of texts that are joined by a separator with something in front of it and
behind it. -/
def padded (before after first : List Char) : List (List Char) → List (List Char)
  | [] => [first]
  | second :: rest => (first ++ before) :: padded before after (after ++ second) rest

theorem consChars_padded (front before after first : List Char) (rest : List (List Char)) :
    consChars front (padded before after first rest) =
      padded before after (front ++ first) rest := by
  cases rest with
  | nil => simp [padded]
  | cons second rest => simp [padded]

theorem padded_nil_left (after first : List Char) (rest : List (List Char)) :
    padded [] after first rest = first :: rest.map (after ++ ·) := by
  induction rest generalizing first with
  | nil => rfl
  | cons second rest inductionHypothesis =>
      rw [padded, inductionHypothesis, List.append_nil, List.map_cons]

theorem map_strip_padded {before after : List Char}
    (blankBefore : ∀ char ∈ before, isBlank char = true)
    (blankAfter : ∀ char ∈ after, isBlank char = true) (first : List Char)
    (rest : List (List Char)) :
    (padded before after first rest).map strip = (first :: rest).map strip := by
  induction rest generalizing first with
  | nil => rfl
  | cons second rest inductionHypothesis =>
      rw [padded, List.map_cons, inductionHypothesis, List.map_cons, List.map_cons, List.map_cons,
        strip_append_blanks blankBefore, strip_blanks_append blankAfter]

theorem separates_of_isBlank {char : Char} (blank : isBlank char = true) :
    separates (some char) = true := by
  have slash : char ≠ '/' := by
    rintro rfl
    cases blank
  have star : char ≠ '*' := by
    rintro rfl
    cases blank
  simp [separates, slash, star]

/-- Undivided texts that are joined by a separator come apart again. -/
theorem partsFrom_intercalate (before after : List Char) (plain : separator ∉ specials)
    (separatorSeparates : separates (some separator) = true)
    (blank : ∀ char ∈ before ++ after, isBlank char = true) (other : separator ∉ before ++ after)
    {first : List Char} {rest : List (List Char)}
    (undivided : ∀ text ∈ first :: rest, Undivided separator text) :
    partsFrom separator {} ((before ++ separator :: after).intercalate (first :: rest)) =
      some (padded before after first rest) := by
  have plainBlanks : ∀ char ∈ before ++ after, char ∉ specials :=
    fun char membership => not_mem_specials_of_isBlank (blank char membership)
  rw [List.forall_mem_append] at plainBlanks
  rw [List.mem_append, not_or] at other
  have gapSeparates (following : List Char) :
      separates (before ++ separator :: following).head? = true := by
    cases before with
    | nil => exact separatorSeparates
    | cons char before => exact separates_of_isBlank (blank char List.mem_cons_self)
  induction rest generalizing first with
  | nil =>
      rw [List.intercalate_singleton]
      exact (undivided first List.mem_cons_self).whole
  | cons second rest inductionHypothesis =>
      rw [List.forall_mem_cons] at undivided
      rw [List.intercalate_cons_cons, List.append_assoc, List.append_assoc, List.cons_append,
        partsFrom_append undivided.1.whole undivided.1.balanced (gapSeparates _),
        partsFrom_plain plainBlanks.1 other.1, partsFrom_separator plain,
        partsFrom_plain plainBlanks.2 other.2, inductionHypothesis undivided.2]
      simp [padded, consChars_padded]

/-! ## Sources -/

theorem topLevelParts?_eq_some_iff {source : String} {parts : List String} :
    topLevelParts? separator source = some parts ↔
      partsFrom separator {} source.toList = some (parts.map String.toList) := by
  rw [topLevelParts?, Option.map_eq_some_iff]
  constructor
  · rintro ⟨texts, found, rfl⟩
    simp [found]
  · intro found
    exact ⟨parts.map String.toList, found, by simp⟩

theorem undivided_iff {source : String} :
    Undivided separator source.toList ↔
      Closed source ∧ topLevelParts? separator source = some [source] := by
  rw [closed_iff_balanced, topLevelParts?_eq_some_iff]
  exact ⟨fun undivided => ⟨undivided.balanced, undivided.whole⟩,
    fun ⟨balanced, whole⟩ => ⟨balanced, whole⟩⟩

/-- Undivided sources that are joined by a separator and a gap come apart with the gap in
front of all but the first. -/
theorem topLevelParts?_intercalate {gap first : String} {rest : List String}
    (plain : separator ∉ specials) (separatorSeparates : separates (some separator) = true)
    (blank : ∀ char ∈ gap.toList, isBlank char = true) (other : separator ∉ gap.toList)
    (undivided : ∀ source ∈ first :: rest, Undivided separator source.toList) :
    topLevelParts? separator ((String.singleton separator ++ gap).intercalate (first :: rest)) =
      some (first :: rest.map (gap ++ ·)) := by
  have undividedTexts : ∀ text ∈ first.toList :: rest.map String.toList,
      Undivided separator text := by
    simpa using undivided
  have apart := partsFrom_intercalate [] gap.toList plain separatorSeparates blank other
    undividedTexts
  rw [padded_nil_left] at apart
  rw [topLevelParts?_eq_some_iff, String.toList_intercalate, String.toList_append,
    String.toList_singleton]
  simpa [Function.comp_def] using apart

/-- The source between the given brackets around it. -/
def unwrap? (opener closer : Char) (source : String) : Option String :=
  match source.toList with
  | [] => none
  | first :: rest =>
      if first == opener && rest.getLast? == some closer then some (String.ofList rest.dropLast)
      else none

theorem unwrap?_wrapped (opener closer : Char) (source : String) :
    unwrap? opener closer (String.ofList [opener] ++ source ++ String.ofList [closer]) =
      some source := by
  simp [unwrap?]

theorem not_mem_specials_of_not_mem_delimiters (noDelimiter : separator ∉ delimiters)
    (noSlash : separator ≠ '/') : separator ∉ specials := by
  simp only [delimiters, List.mem_cons, List.not_mem_nil, or_false, not_or] at noDelimiter
  simp [specials, noDelimiter, noSlash]

/-- Cutting loses nothing but the separators and leaves nothing to be cut, and it takes
joined texts apart. -/
theorem topLevelParts?_inverse_join :
    (∀ separator source parts, topLevelParts? separator source = some parts →
      parts ≠ [] ∧ (String.singleton separator).intercalate parts = source ∧
        ∀ part ∈ parts, topLevelParts? separator part = some [part]) ∧
    ∀ separator parts, separator ∉ delimiters → separator ≠ '/' → separator ≠ '*' →
      parts ≠ [] →
      (∀ part ∈ parts, Closed part ∧ topLevelParts? separator part = some [part]) →
      topLevelParts? separator ((String.singleton separator).intercalate parts) =
        some parts := by
  constructor
  · intro separator source parts cut
    rw [topLevelParts?_eq_some_iff] at cut
    refine ⟨?_, ?_, ?_⟩
    · obtain ⟨first, rest, split⟩ := exists_cons_of_partsFrom cut
      rintro rfl
      cases split
    · rw [← String.toList_inj, String.toList_intercalate, String.toList_singleton]
      exact intercalate_partsFrom cut
    · intro part membership
      rw [topLevelParts?_eq_some_iff]
      exact whole_of_mem_partsFrom cut part.toList (List.mem_map_of_mem membership)
  · intro separator parts noDelimiter noSlash noStar nonempty closed
    obtain ⟨first, rest, rfl⟩ := List.exists_cons_of_ne_nil nonempty
    have plain := not_mem_specials_of_not_mem_delimiters noDelimiter noSlash
    have separatorSeparates : separates (some separator) = true := by
      simp [separates, noSlash, noStar]
    have undivided : ∀ source ∈ first :: rest, Undivided separator source.toList :=
      fun source membership => undivided_iff.mpr (closed source membership)
    have noBlanks : ∀ char ∈ "".toList, isBlank char = true := by simp
    have apart := topLevelParts?_intercalate plain separatorSeparates noBlanks (by simp) undivided
    simpa using apart

/-- Commas in brackets, in a string, in a comment and in a template string. -/
def hiddenCommas : String := "f(a, b),,\"c,d\"/* , */,`,$\x7b[1, 2]\x7d,`"

/-- Sources with arrows in them, of which one ends with a slash. -/
def hiddenArrows : List String := ["x => \"\u2192\"", "", "1 /", "(\u2192)"]

theorem topLevelParts?_inverse_join_hidden :
    (topLevelParts? ',' hiddenCommas =
        some ["f(a, b)", "", "\"c,d\"/* , */", "`,$\x7b[1, 2]\x7d,`"] ∧
      ",".intercalate ["f(a, b)", "", "\"c,d\"/* , */", "`,$\x7b[1, 2]\x7d,`"] = hiddenCommas ∧
      topLevelParts? ',' "f(a, b)" = some ["f(a, b)"]) ∧
    (∀ part ∈ hiddenArrows, Closed part ∧ topLevelParts? '\u2192' part = some [part]) ∧
      topLevelParts? '\u2192' ((String.singleton '\u2192').intercalate hiddenArrows) =
        some hiddenArrows := by
  have cut : topLevelParts? ',' hiddenCommas =
      some ["f(a, b)", "", "\"c,d\"/* , */", "`,$\x7b[1, 2]\x7d,`"] := by decide +kernel
  have undivided : ∀ part ∈ hiddenArrows,
      Closed part ∧ topLevelParts? '\u2192' part = some [part] := by decide +kernel
  obtain ⟨-, joined, whole⟩ := topLevelParts?_inverse_join.1 ',' hiddenCommas _ cut
  refine ⟨⟨cut, joined, whole "f(a, b)" (by simp)⟩, undivided, ?_⟩
  exact topLevelParts?_inverse_join.2 '\u2192' hiddenArrows (by decide) (by decide) (by decide)
    (by decide) undivided

end Template.Fragment
