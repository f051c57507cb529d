import Template.Proofs.Fragment.Leading

/-!
# The grammar of brackets

What the reading of fragments accepts, said without states and stacks.  A text in
brackets is a sequence of items: characters without a meaning of their own, strings,
template strings, comments, and groups, which are items in brackets again.  Which item
a slash belongs to depends on the character after it, so an item is one in front of a
next character.

Reading a sequence of items ends as it began (`Items.run`).  Conversely
`State.Remainder` says what a text has to be so that a reading can end in code without an
open bracket: the frames of the stack are what is still owed, from the innermost on.
Each step of a reading keeps it (`State.remainder_of_read`), so a text is balanced exactly
if it is a sequence of items, and the main statement follows: a closing bracket is found
exactly behind a sequence of items.
-/

namespace Template.Fragment

open Template.Text

/-! ## Items -/

/-- The characters that open or close something wherever they stand. -/
def delimiters : List Char :=
  ['(', ')', '[', ']', '{', '}', doubleQuote, singleQuote, backtick]

/-- Whether a character has no meaning of its own in front of the next one: it is no
delimiter and does not begin a comment. -/
def isPlain (char : Char) (next : Option Char) : Bool :=
  !delimiters.contains char && !(char == '/' && (next == some '/' || next == some '*'))

mutual

/-- One item in front of a next character. -/
inductive Item : (next : Option Char) → List Char → Prop where
  | plain {next : Option Char} {char : Char} (meaningless : isPlain char next = true) :
      Item next [char]
  | quoted {next : Option Char} {mark : Char} {text : List Char}
      (isMark : mark ∈ [doubleQuote, singleQuote]) (inside : QuotedText mark text) :
      Item next (mark :: (text ++ [mark]))
  | template {next : Option Char} {text : List Char} (inside : TemplateText text) :
      Item next (backtick :: (text ++ [backtick]))
  | lineComment {next : Option Char} {text : List Char} (inside : '\n' ∉ text) :
      Item next ('/' :: '/' :: (text ++ ['\n']))
  | blockComment {next : Option Char} {text : List Char} (inside : ¬ ['*', '/'] <:+: text) :
      Item next ('/' :: '*' :: (text ++ ['*', '/']))
  | group {next : Option Char} {opener closer : Char} {text : List Char}
      (pair : closer? opener = some closer) (inside : Items text) :
      Item next (opener :: (text ++ [closer]))

/-- Items in a row, each in front of the first character of those after it. -/
inductive Items : List Char → Prop where
  | nil : Items []
  | cons {item rest : List Char} (first : Item rest.head? item) (others : Items rest) :
      Items (item ++ rest)

/-- What stands between the marks of a template string: protected characters, items in
the braces of a substitution, and any other characters. -/
inductive TemplateText : List Char → Prop where
  | nil : TemplateText []
  | escaped {char : Char} {rest : List Char} (others : TemplateText rest) :
      TemplateText (backslash :: char :: rest)
  | substitution {inside rest : List Char} (items : Items inside) (others : TemplateText rest) :
      TemplateText ('$' :: '{' :: (inside ++ '}' :: rest))
  | plain {char : Char} {rest : List Char} (noBackslash : char ≠ backslash)
      (noMark : char ≠ backtick) (noSubstitution : ¬ (char = '$' ∧ rest.head? = some '{'))
      (others : TemplateText rest) : TemplateText (char :: rest)

end

/-! ## Reading items -/

namespace State

theorem read_isPlain {char : Char} {next : Option Char} (plain : isPlain char next = true)
    (stack : List Frame) : read { stack } char next = .visible { stack } := by
  simp only [isPlain, delimiters, Bool.and_eq_true, Bool.not_eq_true', List.contains_eq_mem,
    decide_eq_false_iff_not, List.mem_cons, List.not_mem_nil, or_false, not_or] at plain
  obtain ⟨noDelimiter, noComment⟩ := plain
  by_cases slash : char = '/'
  · simp_all [read, readCode, isCloser, closer?]
  · simp [read, readCode, isCloser, closer?, noDelimiter, slash]

end State

mutual

theorem Item.run (stack : List Frame) : {next : Option Char} → {text : List Char} →
    Item next text → State.run next { stack } text = some { stack }
  | _, _, .plain meaningless => by
      rw [State.run, List.head?_nil, Option.none_or, State.read_isPlain meaningless]
      rfl
  | next, _, @Item.quoted _ _ text isMark inside => by
      simp only [List.mem_cons, List.not_mem_nil, or_false] at isMark
      rcases isMark with rfl | rfl
      · change State.run next { mode := .quoted doubleQuote, stack } (text ++ [doubleQuote]) = _
        rw [State.run_append, State.run_quoted inside]
        rfl
      · change State.run next { mode := .quoted singleQuote, stack } (text ++ [singleQuote]) = _
        rw [State.run_append, State.run_quoted inside]
        rfl
  | next, _, @Item.template _ text inside => by
      change State.run next { mode := .template, stack } (text ++ [backtick]) = _
      rw [State.run_append, List.head?_cons, Option.some_or, TemplateText.run stack inside]
      rfl
  | next, _, .lineComment inside => State.run_lineComment inside next stack
  | next, _, .blockComment inside => State.run_blockComment inside next stack
  | next, _, @Item.group _ opener closer text pair inside => by
      have inner : State.run (some closer) { stack := .bracket closer :: stack } text =
          some { stack := .bracket closer :: stack } :=
        Items.run (separates_closer pair) _ inside
      have opened : State.run next { stack } (opener :: (text ++ [closer])) =
          State.run next { stack := .bracket closer :: stack } (text ++ [closer]) := by
        rcases pair_cases pair with ⟨rfl, rfl⟩ | ⟨rfl, rfl⟩ | ⟨rfl, rfl⟩ <;> rfl
      have closed : State.run next { stack := .bracket closer :: stack } [closer] =
          some { stack } := by
        rcases pair_cases pair with ⟨-, rfl⟩ | ⟨-, rfl⟩ | ⟨-, rfl⟩ <;> rfl
      rw [opened, State.run_append, List.head?_cons, Option.some_or, inner]
      exact closed

theorem Items.run {next : Option Char} (nextSeparates : separates next = true)
    (stack : List Frame) : {text : List Char} → Items text →
    State.run next { stack } text = some { stack }
  | _, .nil => rfl
  | _, @Items.cons item rest first others => by
      have alone := Item.run stack first
      have firstRun : State.run (rest.head?.or next) { stack } item = some { stack } := by
        cases rest with
        | nil => exact State.run_of_separates nextSeparates rfl rfl alone
        | cons char rest => exact alone
      rw [State.run_append, firstRun]
      exact Items.run nextSeparates stack others

theorem TemplateText.run (stack : List Frame) : {text : List Char} → TemplateText text →
    State.run (some backtick) { mode := .template, stack } text =
      some { mode := .template, stack }
  | _, .nil => rfl
  | _, .escaped others => by
      have later := TemplateText.run stack others
      exact later
  | _, @TemplateText.substitution inside rest items others => by
      have inner : State.run (some '}') { stack := .substitution :: stack } inside =
          some { stack := .substitution :: stack } := Items.run rfl _ items
      change State.run (some backtick) { stack := .substitution :: stack }
        (inside ++ '}' :: rest) = _
      rw [State.run_append, List.head?_cons, Option.some_or, inner]
      exact TemplateText.run stack others
  | _, @TemplateText.plain char rest noBackslash noMark noSubstitution others => by
      have same : State.read { mode := .template, stack } char (rest.head?.or (some backtick)) =
          .hidden { mode := .template, stack } := by
        have lookahead : ¬ (char = '$' ∧ rest.head?.or (some backtick) = some '{') := by
          cases rest with
          | nil => simp [backtick]
          | cons second rest => simpa using noSubstitution
        simp only [State.read, State.readTemplate, beq_iff_eq, noBackslash, noMark,
          Bool.and_eq_true, lookahead, Bool.false_eq_true, ↓reduceIte]
      rw [State.run, same]
      exact TemplateText.run stack others

end

theorem Items.balanced {text : List Char} (items : Items text) : Balanced text :=
  items.run rfl []

/-! ## What a reading still owes -/

/-- A text that begins with some inside and its ending, and goes on as said. -/
def Through (inside : List Char → Prop) (ending : List Char) (after : List Char → Prop)
    (text : List Char) : Prop :=
  ∃ body rest, text = body ++ (ending ++ rest) ∧ inside body ∧ after rest

/-- A text in code that closes all open brackets.  A substitution leads back into its
template string, which has to end, too. -/
def Closes : List Frame → List Char → Prop
  | [] => Items
  | .bracket closer :: stack => Through Items [closer] (Closes stack)
  | .substitution :: stack =>
      Through Items ['}'] (Through TemplateText [backtick] (Closes stack))

/-- A text that leads out of a mode and closes all open brackets. -/
def Mode.Remainder (stack : List Frame) : Mode → List Char → Prop
  | .code => Closes stack
  | .quoted mark => Through (QuotedText mark) [mark] (Closes stack)
  | .template => Through TemplateText [backtick] (Closes stack)
  | .lineComment => Through ('\n' ∉ ·) ['\n'] (Closes stack)
  | .blockComment => Through (fun text => ¬ ['*', '/'] <:+: text) ['*', '/'] (Closes stack)

/-- A text after which a reading ends in code without open brackets. -/
def State.Remainder (state : State) (text : List Char) : Prop :=
  if state.held then ∃ char rest, text = char :: rest ∧ state.mode.Remainder state.stack rest
  else state.mode.Remainder state.stack text

namespace Through

variable {inside : List Char → Prop} {ending text : List Char} {after : List Char → Prop}

/-- Put something in front of the inside. -/
theorem extend (front : List Char) (through : Through inside ending after text)
    (larger : ∀ body, inside body → body.head? = text.head? ∨ body = [] → inside (front ++ body)) :
    Through inside ending after (front ++ text) := by
  obtain ⟨body, rest, rfl, within, later⟩ := through
  refine ⟨front ++ body, rest, by rw [List.append_assoc], larger body within ?_, later⟩
  cases body with
  | nil => exact .inr rfl
  | cons char body => exact .inl rfl

end Through

/-- An item is one in front of the end, too. -/
theorem Item.atEnd {next : Option Char} {item : List Char} : Item next item → Item none item
  | .plain meaningless => by
      apply Item.plain
      simp only [isPlain, Bool.and_eq_true] at meaningless ⊢
      exact ⟨meaningless.1, by simp⟩
  | .quoted isMark inside => .quoted isMark inside
  | .template inside => .template inside
  | .lineComment inside => .lineComment inside
  | .blockComment inside => .blockComment inside
  | .group pair inside => .group pair inside

/-- An item in front of a text is one in front of what the text begins with. -/
theorem Item.before {item rest more : List Char} (first : Item (rest ++ more).head? item) :
    Item rest.head? item := by
  cases rest with
  | nil => exact first.atEnd
  | cons => exact first

/-- An item in front of a text does not change what the text closes. -/
theorem Closes.item {stack : List Frame} {item text : List Char} (first : Item text.head? item)
    (closes : Closes stack text) : Closes stack (item ++ text) := by
  have larger : ∀ body, Items body → body.head? = text.head? ∨ body = [] →
      Items (item ++ body) := by
    intro body items same
    rcases same with same | rfl
    · exact .cons (same ▸ first) items
    · exact .cons first.atEnd items
  cases stack with
  | nil => exact larger text closes (.inl rfl)
  | cons frame stack =>
      cases frame with
      | bracket closer => exact Through.extend item closes larger
      | substitution => exact Through.extend item closes larger

/-! ## Balanced texts are items -/

namespace State

variable {stack : List Frame} {char : Char} {rest : List Char} {after : State}

theorem closes_of_close (reading : (close { stack } char).state? = some after)
    (remainder : after.Remainder rest) : Closes stack (char :: rest) := by
  cases stack with
  | nil => cases reading
  | cons frame stack =>
      cases frame with
      | bracket closer =>
          by_cases matching : closer = char
          · subst matching
            simp only [close, BEq.rfl, ↓reduceIte, Reading.state?, Option.some.injEq] at reading
            subst reading
            exact ⟨[], rest, rfl, Items.nil, remainder⟩
          · simp [close, matching, Reading.state?] at reading
      | substitution =>
          by_cases brace : char = '}'
          · subst brace
            simp only [close, BEq.rfl, ↓reduceIte, Reading.state?, Option.some.injEq] at reading
            subst reading
            exact ⟨[], rest, rfl, Items.nil, remainder⟩
          · simp [close, brace, Reading.state?] at reading

theorem ne_opener_of_closer? (opensNothing : closer? char = none) :
    char ≠ '(' ∧ char ≠ '[' ∧ char ≠ '{' := by
  refine ⟨?_, ?_, ?_⟩ <;>
  · rintro rfl
    cases opensNothing

/-- A step in code keeps what is owed. -/
theorem closes_of_readCode (reading : (readCode { stack } char rest.head?).state? = some after)
    (remainder : after.Remainder rest) : Closes stack (char :: rest) := by
  unfold readCode at reading
  split at reading
  next quote =>
    cases reading
    obtain ⟨text, later, rfl, inside, closes⟩ := remainder
    have isMark : char ∈ [doubleQuote, singleQuote] := by simpa using quote
    simpa using Closes.item (.quoted isMark inside) closes
  next noQuote =>
  split at reading
  next mark =>
    cases reading
    obtain ⟨text, later, rfl, inside, closes⟩ := remainder
    rw [eq_of_beq mark]
    simpa using Closes.item (.template inside) closes
  next noMark =>
  split at reading
  next comment =>
    cases reading
    simp only [Bool.and_eq_true, beq_iff_eq] at comment
    obtain ⟨second, others, rfl, text, later, rfl, inside, closes⟩ := remainder
    obtain ⟨rfl, rfl⟩ : char = '/' ∧ second = '/' := by simpa using comment
    simpa using Closes.item (.lineComment inside) closes
  next noLineComment =>
  split at reading
  next comment =>
    cases reading
    simp only [Bool.and_eq_true, beq_iff_eq] at comment
    obtain ⟨second, others, rfl, text, later, rfl, inside, closes⟩ := remainder
    obtain ⟨rfl, rfl⟩ : char = '/' ∧ second = '*' := by simpa using comment
    simpa using Closes.item (.blockComment inside) closes
  next noBlockComment =>
  split at reading
  next => exact closes_of_close reading remainder
  next noCloser =>
  split at reading
  next closer pair =>
    cases reading
    obtain ⟨text, later, rfl, inside, closes⟩ := remainder
    simpa using Closes.item (.group pair inside) closes
  next noOpener =>
    cases reading
    have meaningless : isPlain char rest.head? = true := by
      have opensNothing := ne_opener_of_closer? noOpener
      by_cases slash : char = '/' <;> simp_all [isPlain, delimiters, isCloser]
    exact Closes.item (.plain meaningless) remainder

theorem remainder_of_readQuoted {mark : Char}
    (remainder : (readQuoted { mode := .quoted mark, stack } mark char).Remainder rest) :
    Mode.Remainder stack (.quoted mark) (char :: rest) := by
  unfold readQuoted at remainder
  split at remainder
  next protects =>
    obtain ⟨second, others, rfl, through⟩ := remainder
    rw [eq_of_beq protects]
    exact Through.extend [backslash, second] through
      fun body inside _ => .escaped inside
  next noBackslash =>
  split at remainder
  next ends =>
    rw [eq_of_beq ends]
    exact ⟨[], rest, rfl, QuotedText.nil, remainder⟩
  next noMark =>
    refine Through.extend [char] remainder fun body inside _ => ?_
    exact .plain (by simpa using noBackslash) (by simpa using noMark) inside

theorem remainder_of_readTemplate
    (remainder : (readTemplate { mode := .template, stack } char rest.head?).Remainder rest) :
    Mode.Remainder stack .template (char :: rest) := by
  unfold readTemplate at remainder
  split at remainder
  next protects =>
    obtain ⟨second, others, rfl, through⟩ := remainder
    rw [eq_of_beq protects]
    exact Through.extend [backslash, second] through
      fun body inside _ => .escaped inside
  next noBackslash =>
  split at remainder
  next ends =>
    rw [eq_of_beq ends]
    exact ⟨[], rest, rfl, TemplateText.nil, remainder⟩
  next noMark =>
  split at remainder
  next opens =>
    simp only [Bool.and_eq_true, beq_iff_eq] at opens
    obtain ⟨second, others, rfl, items, text, rfl, inside, through⟩ := remainder
    obtain ⟨rfl, rfl⟩ : char = '$' ∧ second = '{' := by simpa using opens
    have longer : Through TemplateText [backtick] (Closes stack)
        ('$' :: '{' :: (items ++ ['}']) ++ text) :=
      through.extend _ fun body template _ => by simpa using .substitution inside template
    rw [List.cons_append, List.cons_append, List.append_assoc] at longer
    exact longer
  next noSubstitution =>
    refine Through.extend [char] remainder fun body inside same => ?_
    refine .plain (by simpa using noBackslash) (by simpa using noMark) ?_ inside
    rcases same with same | rfl
    · change ¬ (char = '$' ∧ body.head? = some '{')
      simpa [same] using noSubstitution
    · simp

theorem remainder_of_lineComment
    (remainder : State.Remainder
      (if char == '\n' then { stack } else { mode := .lineComment, stack }) rest) :
    Mode.Remainder stack .lineComment (char :: rest) := by
  split at remainder
  next ends =>
    rw [eq_of_beq ends]
    exact ⟨[], rest, rfl, List.not_mem_nil, remainder⟩
  next goesOn =>
    refine Through.extend [char] remainder fun body inside _ => ?_
    rw [List.singleton_append, List.mem_cons, not_or]
    exact ⟨fun same => goesOn (by simp [← same]), inside⟩

theorem remainder_of_blockComment
    (remainder : State.Remainder
      (if char == '*' && rest.head? == some '/' then { stack, held := true }
        else { mode := .blockComment, stack }) rest) :
    Mode.Remainder stack .blockComment (char :: rest) := by
  split at remainder
  next ends =>
    simp only [Bool.and_eq_true, beq_iff_eq] at ends
    obtain ⟨second, others, rfl, closes⟩ := remainder
    obtain ⟨rfl, rfl⟩ : char = '*' ∧ second = '/' := by simpa using ends
    exact ⟨[], others, rfl, by simp, closes⟩
  next goesOn =>
    refine Through.extend [char] remainder fun body inside same => ?_
    rw [List.singleton_append, List.infix_cons_iff, not_or]
    refine ⟨?_, inside⟩
    rintro ⟨others, split⟩
    obtain ⟨rfl, rfl⟩ : '*' = char ∧ '/' :: others = body := by simpa using split
    rcases same with same | empty
    · exact goesOn (by simp [← same])
    · cases empty

/-- A step of a reading keeps what is owed: if the text after a character settles it, then
so does the text with the character. -/
theorem remainder_of_read {state : State}
    (reading : (state.read char rest.head?).state? = some after)
    (remainder : after.Remainder rest) : state.Remainder (char :: rest) := by
  obtain ⟨mode, stack, held⟩ := state
  cases held with
  | true =>
      cases reading
      exact ⟨char, rest, rfl, remainder⟩
  | false =>
      cases mode with
      | code => exact closes_of_readCode reading remainder
      | quoted mark =>
          cases reading
          exact remainder_of_readQuoted remainder
      | template =>
          cases reading
          exact remainder_of_readTemplate remainder
      | lineComment =>
          cases reading
          exact remainder_of_lineComment remainder
      | blockComment =>
          cases reading
          exact remainder_of_blockComment remainder

/-- What is read to the end settles all that is owed. -/
theorem remainder_of_run {state : State} {text : List Char}
    (success : state.run none text = some {}) : state.Remainder text := by
  induction text generalizing state with
  | nil =>
      cases success
      exact Items.nil
  | cons char rest inductionHypothesis =>
      rw [run, Option.or_none] at success
      obtain ⟨after, reading, later⟩ := Option.bind_eq_some_iff.mp success
      exact remainder_of_read reading (inductionHypothesis later)

end State

/-- A text is balanced exactly if it is a sequence of items. -/
theorem balanced_iff_items {text : List Char} : Balanced text ↔ Items text := by
  constructor
  · intro balanced
    exact State.remainder_of_run balanced
  · exact Items.balanced

/-! ## Closing brackets -/

/-- The search for a closing bracket stops behind a sequence of items. -/
theorem spanClose?_eq_some_iff {text before after : List Char} :
    spanClose? text = some (before, after) ↔
      ∃ opener body closer, closer? opener = some closer ∧ Items body ∧
        text = opener :: (body ++ closer :: after) ∧ before = opener :: body := by
  constructor
  · intro found
    cases text with
    | nil => cases found
    | cons opener text =>
        rw [spanClose?] at found
        cases pair : closer? opener with
        | none => simp [pair] at found
        | some closer =>
            rw [pair, Option.isSome_some, if_pos rfl, untilClose_opener pair] at found
            obtain ⟨⟨body, rest⟩, inside, equal⟩ := Option.map_eq_some_iff.mp found
            cases equal
            obtain ⟨split, run⟩ := run_of_untilClose inside
            have balanced : Balanced body :=
              State.run_of_separates rfl rfl rfl run
            exact ⟨opener, body, closer, pair, balanced_iff_items.mp balanced, by rw [split], rfl⟩
  · rintro ⟨opener, body, closer, pair, items, rfl, rfl⟩
    exact items.balanced.spanClose?_eq pair after

/-- The bracket that closes the one a source starts with stands behind a sequence of
items, and only there.  What comes after it does not matter, and there is only one way to
divide the source so. -/
theorem matchingClose?_eq_some_iff :
    (∀ (source : String) (position : Nat),
      matchingClose? source = some position ↔
        ∃ opener body closer rest, closer? opener = some closer ∧ Items body ∧
          source.toList = opener :: (body ++ closer :: rest) ∧
          position = byteSize (opener :: body)) ∧
    (∀ (opener closer : Char) (body rest : List Char), closer? opener = some closer →
      Items body →
        matchingClose? (String.ofList (opener :: (body ++ closer :: rest))) =
          some (byteSize (opener :: body))) ∧
    ∀ (opener closer otherCloser : Char) (body otherBody rest otherRest : List Char),
      closer? opener = some closer → closer? opener = some otherCloser → Items body →
        Items otherBody → body ++ closer :: rest = otherBody ++ otherCloser :: otherRest →
        body = otherBody ∧ rest = otherRest := by
  have span (opener closer : Char) (body rest : List Char)
      (pair : closer? opener = some closer) (items : Items body) :
      spanClose? (opener :: (body ++ closer :: rest)) = some (opener :: body, rest) :=
    spanClose?_eq_some_iff.mpr ⟨opener, body, closer, pair, items, rfl, rfl⟩
  refine ⟨?_, ?_, ?_⟩
  · intro source position
    rw [matchingClose?, Option.map_eq_some_iff]
    constructor
    · rintro ⟨⟨before, after⟩, found, rfl⟩
      obtain ⟨opener, body, closer, pair, items, text, rfl⟩ := spanClose?_eq_some_iff.mp found
      exact ⟨opener, body, closer, after, pair, items, text, rfl⟩
    · rintro ⟨opener, body, closer, rest, pair, items, text, rfl⟩
      refine ⟨(opener :: body, rest), ?_, rfl⟩
      exact spanClose?_eq_some_iff.mpr ⟨opener, body, closer, pair, items, text, rfl⟩
  · intro opener closer body rest pair items
    rw [matchingClose?, String.toList_ofList, span opener closer body rest pair items]
    rfl
  · intro opener closer otherCloser body otherBody rest otherRest pair otherPair items
      otherItems same
    have first := span opener closer body rest pair items
    have second := span opener otherCloser otherBody otherRest otherPair otherItems
    rw [same, second] at first
    simpa [eq_comm] using first

/-- Braces in a string in a substitution in a template string, and one more in the
template string itself. -/
def hiddenBraces : String := "\x7b`$\x7b[\"\x7d\"]\x7d\x7d`\x7d)"

theorem matchingClose?_eq_some_iff_hiddenBraces :
    matchingClose? hiddenBraces = some 12 ∧
      ∃ opener body closer rest, closer? opener = some closer ∧ Items body ∧
        hiddenBraces.toList = opener :: (body ++ closer :: rest) ∧
        12 = byteSize (opener :: body) ∧
        matchingClose? (String.ofList (opener :: (body ++ [closer]))) = some 12 ∧
        ∀ otherBody otherRest, Items otherBody →
          body ++ closer :: rest = otherBody ++ closer :: otherRest →
          body = otherBody ∧ rest = otherRest := by
  have found : matchingClose? hiddenBraces = some 12 := by decide +kernel
  obtain ⟨opener, body, closer, rest, pair, items, text, size⟩ :=
    (matchingClose?_eq_some_iff.1 hiddenBraces 12).mp found
  refine ⟨found, opener, body, closer, rest, pair, items, text, size, ?_, ?_⟩
  · rw [size]
    exact matchingClose?_eq_some_iff.2.1 opener closer body [] pair items
  · intro otherBody otherRest otherItems same
    exact matchingClose?_eq_some_iff.2.2 opener closer closer body otherBody rest otherRest pair
      pair items otherItems same

end Template.Fragment
