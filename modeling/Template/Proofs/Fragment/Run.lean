import Template.Fragment

/-!
# Reading a text to its end

The two questions that are asked of fragments stop at different places.  Below both
of them lies the same reading, which `State.run` follows to the end of a text.  It
needs to know one character of what comes next.

A run that succeeds touches no bracket that was open before it, so it can be repeated
above any other open brackets (`State.run_above`), and the search for a closing
bracket passes over the text (`untilClose_append`).  A text is balanced if a run
through it ends as it began.  That is exactly the case if the text, put in brackets,
fills them (`closed_iff_balanced`).
-/

namespace Template.Fragment

def Reading.state? : Reading → Option State
  | .visible next | .hidden next => some next
  | .broken => none

def State.above (base : List Frame) (state : State) : State :=
  { state with stack := state.stack ++ base }

/-- A reading that takes place above other open brackets. -/
def Reading.above (base : List Frame) : Reading → Reading
  | .visible next => .visible (next.above base)
  | .hidden next => .hidden (next.above base)
  | .broken => .broken

namespace State

/-- The state after a text that is followed by `next`, or `none` if a closing bracket
does not fit. -/
def run (next : Option Char) : State → List Char → Option State
  | state, [] => some state
  | state, char :: rest =>
      (state.read char (rest.head?.or next)).state?.bind (run next · rest)

theorem run_singleton (next : Option Char) (state : State) (char : Char) :
    run next state [char] = (state.read char next).state? := by
  simp only [run, List.head?_nil, Option.none_or]
  exact Option.bind_fun_some _

theorem run_append (next : Option Char) (state : State) (first second : List Char) :
    run next state (first ++ second) =
      (run (second.head?.or next) state first).bind (run next · second) := by
  induction first generalizing state with
  | nil => rfl
  | cons char rest inductionHypothesis =>
      have lookahead : (rest ++ second).head?.or next = rest.head?.or (second.head?.or next) := by
        rw [List.head?_append, Option.or_assoc]
      simp only [List.cons_append, run, lookahead, inductionHypothesis, Option.bind_assoc]

theorem close_above {state : State} {char : Char} (base : List Frame)
    (fits : state.close char ≠ .broken) :
    (state.above base).close char = (state.close char).above base := by
  obtain ⟨mode, stack, held⟩ := state
  cases stack with
  | nil => exact absurd rfl fits
  | cons frame stack =>
      cases frame with
      | bracket closer =>
          by_cases matching : closer == char <;>
            simp [close, above, Reading.above, matching]
      | substitution =>
          by_cases brace : char == '}' <;>
            simp [close, above, Reading.above, brace]

theorem readCode_above {state : State} {char : Char} {next : Option Char} (base : List Frame)
    (fits : state.readCode char next ≠ .broken) :
    (state.above base).readCode char next = (state.readCode char next).above base := by
  unfold readCode at fits ⊢
  split
  · rfl
  · split
    · rfl
    · split
      · rfl
      · split
        · rfl
        · split
          · simp_all [close_above]
          · split <;> rfl

theorem readQuoted_above (state : State) (mark char : Char) (base : List Frame) :
    (state.above base).readQuoted mark char = (state.readQuoted mark char).above base := by
  unfold readQuoted
  split
  · rfl
  · split <;> rfl

theorem readTemplate_above (state : State) (char : Char) (next : Option Char)
    (base : List Frame) :
    (state.above base).readTemplate char next = (state.readTemplate char next).above base := by
  unfold readTemplate
  split
  · rfl
  · split
    · rfl
    · split <;> rfl

/-- Open brackets outside those that a reading uses do not matter to it. -/
theorem read_above {state : State} {char : Char} {next : Option Char} (base : List Frame)
    (fits : state.read char next ≠ .broken) :
    (state.above base).read char next = (state.read char next).above base := by
  obtain ⟨mode, stack, held⟩ := state
  cases held with
  | true => rfl
  | false =>
      cases mode with
      | code => exact readCode_above base fits
      | quoted mark => exact congrArg Reading.hidden (readQuoted_above _ mark char base)
      | template => exact congrArg Reading.hidden (readTemplate_above _ char next base)
      | lineComment =>
          simp only [read, above, Bool.false_eq_true, ↓reduceIte]
          split <;> rfl
      | blockComment =>
          simp only [read, above, Bool.false_eq_true, ↓reduceIte]
          split <;> rfl

/-- A run that succeeds can be repeated above other open brackets. -/
theorem run_above {next : Option Char} {state final : State} {text : List Char}
    (base : List Frame) (success : state.run next text = some final) :
    (state.above base).run next text = some (final.above base) := by
  induction text generalizing state with
  | nil =>
      cases success
      rfl
  | cons char rest inductionHypothesis =>
      rw [run] at success ⊢
      cases reading : state.read char (rest.head?.or next) with
      | broken => simp [reading, Reading.state?] at success
      | visible after | hidden after =>
          rw [read_above base (by rw [reading]; simp), reading]
          rw [reading] at success
          exact inductionHypothesis success

end State

/-! ## Searching for a closing bracket -/

/-- The search for a closing bracket passes over a text that can be read without the
brackets in `base`. -/
theorem untilClose_append {state final : State} {text rest : List Char} {base : List Frame}
    (nonempty : base ≠ []) (success : state.run rest.head? text = some final) :
    untilClose (state.above base) (text ++ rest) =
      (untilClose (final.above base) rest).map fun (before, after) => (text ++ before, after) := by
  induction text generalizing state with
  | nil =>
      cases success
      simp
  | cons char chars inductionHypothesis =>
      rw [State.run] at success
      rw [List.cons_append, untilClose, List.head?_append]
      cases reading : state.read char (chars.head?.or rest.head?) with
      | broken => simp [reading, Reading.state?] at success
      | hidden after =>
          rw [reading] at success
          rw [State.read_above base (by rw [reading]; simp), reading]
          simp only [Reading.above, inductionHypothesis success, Option.map_map]
          rfl
      | visible after =>
          rw [reading] at success
          have stillOpen : (after.above base).stack.isEmpty = false := by
            simp [State.above, nonempty]
          rw [State.read_above base (by rw [reading]; simp), reading]
          simp only [Reading.above, stillOpen, Bool.false_and, Bool.false_eq_true, ↓reduceIte,
            inductionHypothesis success, Option.map_map]
          rfl

theorem append_of_untilClose {state : State} {text before after : List Char}
    (found : untilClose state text = some (before, after)) :
    ∃ closer, text = before ++ closer :: after := by
  induction text generalizing state before with
  | nil => simp [untilClose] at found
  | cons char rest inductionHypothesis =>
      have recurse : ∀ {following : State},
          (untilClose following rest).map (fun (before, after) => (char :: before, after)) =
            some (before, after) →
          ∃ closer, char :: rest = before ++ closer :: after := by
        intro following mapped
        obtain ⟨⟨inner, outer⟩, foundRest, equal⟩ := Option.map_eq_some_iff.mp mapped
        cases equal
        obtain ⟨closer, restEq⟩ := inductionHypothesis foundRest
        exact ⟨closer, by rw [restEq, List.cons_append]⟩
      rw [untilClose] at found
      split at found
      · exact absurd found (by simp)
      · exact recurse found
      · split at found
        · cases found
          exact ⟨char, rfl⟩
        · exact recurse found

namespace State

theorem read_closer {char : Char} (closes : isCloser char = true) (stack : List Frame)
    (next : Option Char) :
    read { stack } char next = close { stack } char := by
  simp only [isCloser, Bool.or_eq_true, beq_iff_eq] at closes
  rcases closes with (rfl | rfl) | rfl <;> rfl

/-- Only a closing bracket in code can fail to fit. -/
theorem eq_code_of_read_eq_broken {state : State} {char : Char} {next : Option Char}
    (broken : state.read char next = .broken) :
    state = { stack := state.stack } ∧ isCloser char = true := by
  obtain ⟨mode, stack, held⟩ := state
  cases held with
  | true => simp [read] at broken
  | false =>
      cases mode with
      | code =>
          refine ⟨rfl, ?_⟩
          cases closes : isCloser char with
          | true => rfl
          | false =>
              simp only [read, readCode, closes, Bool.false_eq_true, ↓reduceIte] at broken
              repeat' split at broken
              all_goals cases broken
      | quoted | template | lineComment | blockComment => simp [read] at broken

/-- Above a single open bracket a reading is what it is without it, unless it closes that
bracket. -/
theorem read_above_bracket (state : State) (char closer : Char) (next : Option Char) :
    (state.above [.bracket closer]).read char next =
        (state.read char next).above [.bracket closer] ∨
      state = {} ∧ closer = char ∧ isCloser char = true ∧
        (state.above [.bracket closer]).read char next = .visible {} := by
  by_cases broken : state.read char next = .broken
  · obtain ⟨stateEq, closes⟩ := eq_code_of_read_eq_broken broken
    have aboveEq : state.above [.bracket closer] =
        { stack := state.stack ++ [.bracket closer] } := by
      rw [stateEq]
      rfl
    rw [stateEq, read_closer closes] at broken
    rw [aboveEq, read_closer closes]
    cases stackEq : state.stack with
    | nil =>
        by_cases matching : closer == char
        · refine .inr ⟨?_, eq_of_beq matching, closes, by simp [close, matching]⟩
          rw [stateEq, stackEq]
        · left
          rw [stateEq, stackEq, read_closer closes]
          simp [close, matching, Reading.above]
    | cons frame stack =>
        left
        rw [stateEq, stackEq, read_closer closes]
        rw [stackEq] at broken
        rw [broken]
        cases frame <;> simp_all [close, Reading.above]
  · exact .inl (read_above [.bracket closer] broken)

end State

/-- The search above a single open bracket ends at the character that closes it, and the
text before that character can be read without the bracket. -/
theorem run_of_untilClose {closer : Char} {state : State} {text before after : List Char}
    (found : untilClose (state.above [.bracket closer]) text = some (before, after)) :
    text = before ++ closer :: after ∧ state.run (some closer) before = some {} := by
  induction text generalizing state before with
  | nil => simp [untilClose] at found
  | cons char chars inductionHypothesis =>
      rw [untilClose] at found
      rcases State.read_above_bracket state char closer chars.head? with
        same | ⟨rfl, rfl, closes, closed⟩
      · rw [same] at found
        have recurse : ∀ {following : State},
            (state.read char chars.head?).state? = some following →
            (untilClose (following.above [.bracket closer]) chars).map
              (fun (before, after) => (char :: before, after)) = some (before, after) →
            char :: chars = before ++ closer :: after ∧
              state.run (some closer) before = some {} := by
          intro following reading mapped
          obtain ⟨⟨inner, outer⟩, foundRest, equal⟩ := Option.map_eq_some_iff.mp mapped
          cases equal
          obtain ⟨split, run⟩ := inductionHypothesis foundRest
          have lookahead : inner.head?.or (some closer) = chars.head? := by
            rw [split, List.head?_append, List.head?_cons]
          refine ⟨by rw [split, List.cons_append], ?_⟩
          rw [State.run, lookahead, reading]
          exact run
        cases reading : state.read char chars.head? with
        | broken =>
            rw [reading] at found
            cases found
        | hidden following =>
            rw [reading] at found recurse
            exact recurse rfl found
        | visible following =>
            rw [reading] at found recurse
            apply recurse rfl
            simpa [Reading.above, State.above] using found
      · rw [closed] at found
        simp only [closes, List.isEmpty_nil, Bool.and_true, ↓reduceIte, Option.some.injEq,
          Prod.mk.injEq] at found
        obtain ⟨rfl, rfl⟩ := found
        exact ⟨rfl, rfl⟩

/-! ## Balanced texts -/

/-- Whether what follows a text leaves its last character alone: a slash or a star could
make a comment of a slash. -/
def separates (next : Option Char) : Bool :=
  next != some '/' && next != some '*'

namespace State

/-- What separates a character from the rest does not change its reading, if that leads
into code: it takes a lookahead to get into a comment or a substitution, or out of a
comment. -/
theorem read_eq_of_separates {next other : Option Char} (nextSeparates : separates next = true)
    {state final : State} {char : Char} (inCode : final.mode = .code)
    (notHeld : final.held = false) (success : (state.read char other).state? = some final) :
    state.read char next = state.read char other := by
  simp only [separates, Bool.and_eq_true, bne_iff_ne, ne_eq] at nextSeparates
  obtain ⟨mode, stack, held⟩ := state
  cases held with
  | true => rfl
  | false =>
      cases mode with
      | code =>
          by_cases slash : char = '/'
          · subst slash
            by_cases comment : other = some '/' ∨ other = some '*'
            · rcases comment with rfl | rfl
              · cases success
                cases inCode
              · cases success
                cases inCode
            · rw [not_or] at comment
              simp [read, readCode, nextSeparates, comment]
          · simp [read, readCode, slash]
      | quoted | lineComment => rfl
      | blockComment =>
          by_cases ends : char = '*' ∧ other = some '/'
          · obtain ⟨rfl, rfl⟩ := ends
            cases success
            cases notHeld
          · have goesOn : read ⟨.blockComment, stack, false⟩ char other =
                .hidden ⟨.blockComment, stack, false⟩ := by
              simp [read, ends]
            rw [goesOn] at success
            cases success
            cases inCode
      | template =>
          have final_eq : readTemplate ⟨.template, stack, false⟩ char other = final :=
            Option.some.inj success
          refine congrArg Reading.hidden ?_
          unfold readTemplate at final_eq ⊢
          split at final_eq
          · rw [if_pos ‹_›, if_pos ‹_›]
          · split at final_eq
            · rw [if_neg ‹_›, if_pos ‹_›, if_neg ‹_›, if_pos ‹_›]
            · split at final_eq
              · simp [← final_eq] at notHeld
              · simp [← final_eq] at inCode

/-- A run that ends in code does not depend on what separates the text from the rest. -/
theorem run_of_separates {next other : Option Char} (nextSeparates : separates next = true)
    {state final : State} {text : List Char} (inCode : final.mode = .code)
    (notHeld : final.held = false) (success : state.run other text = some final) :
    state.run next text = some final := by
  induction text generalizing state with
  | nil => exact success
  | cons char rest inductionHypothesis =>
      cases rest with
      | nil =>
          rw [run_singleton] at success ⊢
          rw [read_eq_of_separates nextSeparates inCode notHeld success, success]
      | cons second rest =>
          rw [run, List.head?_cons, Option.some_or] at success ⊢
          cases reading : state.read char (some second) with
          | broken => simp [reading, Reading.state?] at success
          | visible after | hidden after =>
              rw [reading] at success
              exact inductionHypothesis success

end State

/-- A text that leaves a run as it found it. -/
def Balanced (text : List Char) : Prop :=
  State.run none {} text = some {}

/-- Balanced text leaves any open brackets as they are, if something separates it from
what follows. -/
theorem Balanced.run {text : List Char} (balanced : Balanced text) {next : Option Char}
    (nextSeparates : separates next = true) (stack : List Frame) :
    State.run next { stack } text = some { stack } :=
  State.run_above stack (State.run_of_separates nextSeparates rfl rfl balanced)

theorem pair_cases {opener closer : Char} (pair : closer? opener = some closer) :
    (opener = '(' ∧ closer = ')') ∨ (opener = '[' ∧ closer = ']') ∨
      (opener = '{' ∧ closer = '}') := by
  unfold closer? at pair
  grind

theorem separates_closer {opener closer : Char} (pair : closer? opener = some closer) :
    separates (some closer) = true := by
  rcases pair_cases pair with ⟨-, rfl⟩ | ⟨-, rfl⟩ | ⟨-, rfl⟩ <;> rfl

theorem untilClose_opener {opener closer : Char} (pair : closer? opener = some closer)
    (text : List Char) :
    untilClose {} (opener :: text) =
      (untilClose (State.above [.bracket closer] {}) text).map
        fun (before, after) => (opener :: before, after) := by
  rcases pair_cases pair with ⟨rfl, rfl⟩ | ⟨rfl, rfl⟩ | ⟨rfl, rfl⟩ <;> rfl

theorem untilClose_closer {opener closer : Char} (pair : closer? opener = some closer)
    (rest : List Char) :
    untilClose (State.above [.bracket closer] {}) (closer :: rest) = some ([], rest) := by
  rcases pair_cases pair with ⟨rfl, rfl⟩ | ⟨rfl, rfl⟩ | ⟨rfl, rfl⟩ <;> rfl

theorem Balanced.untilClose_eq {text : List Char} (balanced : Balanced text)
    {opener closer : Char} (pair : closer? opener = some closer) (rest : List Char) :
    untilClose {} (opener :: (text ++ closer :: rest)) = some (opener :: text, rest) := by
  have success : State.run (closer :: rest).head? {} text = some {} :=
    balanced.run (separates_closer pair) []
  rw [untilClose_opener pair, untilClose_append (List.cons_ne_nil _ _) success,
    untilClose_closer pair]
  simp

theorem Balanced.spanClose?_eq {text : List Char} (balanced : Balanced text)
    {opener closer : Char} (pair : closer? opener = some closer) (rest : List Char) :
    spanClose? (opener :: (text ++ closer :: rest)) = some (opener :: text, rest) := by
  rw [spanClose?, pair, Option.isSome_some, if_pos rfl]
  exact balanced.untilClose_eq pair rest

/-- A bracket around balanced text has its partner behind the text. -/
theorem Balanced.matchingClose?_eq {source : String} (balanced : Balanced source.toList)
    {opener closer : Char} (pair : closer? opener = some closer) :
    matchingClose? (String.ofList [opener] ++ source ++ String.ofList [closer]) =
      some (opener.utf8Size + Text.byteSize source.toList) := by
  have characters : (String.ofList [opener] ++ source ++ String.ofList [closer]).toList =
      opener :: (source.toList ++ [closer]) := by simp
  rw [matchingClose?, characters, balanced.spanClose?_eq pair []]
  rfl

/-- A source that fills the parentheses put around it. -/
def Closed (source : String) : Prop :=
  matchingClose? ("(" ++ source ++ ")") = some (1 + Text.byteSize source.toList)

instance (source : String) : Decidable (Closed source) :=
  inferInstanceAs (Decidable (_ = _))

theorem eq_nil_of_byteSize_eq_zero {text : List Char} (empty : Text.byteSize text = 0) :
    text = [] := by
  cases text with
  | nil => rfl
  | cons char rest =>
      have positive := char.utf8Size_pos
      rw [Text.byteSize_cons] at empty
      omega

theorem eq_of_append_eq_append {first second firstRest secondRest : List Char}
    (same : first ++ firstRest = second ++ secondRest)
    (size : Text.byteSize first = Text.byteSize second) : first = second := by
  rcases List.append_eq_append_iff.mp same with ⟨between, rfl, -⟩ | ⟨between, rfl, -⟩
  · rw [Text.byteSize_append] at size
    rw [eq_nil_of_byteSize_eq_zero (by omega : Text.byteSize between = 0), List.append_nil]
  · rw [Text.byteSize_append] at size
    rw [eq_nil_of_byteSize_eq_zero (by omega : Text.byteSize between = 0), List.append_nil]

/-- To fill brackets and to be balanced is the same. -/
theorem matchingClose?_eq_iff_balanced {opener closer : Char}
    (pair : closer? opener = some closer) {text : List Char} :
    matchingClose? (String.ofList (opener :: (text ++ [closer]))) =
      some (Text.byteSize (opener :: text)) ↔ Balanced text := by
  constructor
  · intro fills
    rw [matchingClose?, String.toList_ofList, spanClose?, pair, Option.isSome_some,
      if_pos rfl] at fills
    obtain ⟨⟨before, after⟩, found, size⟩ := Option.map_eq_some_iff.mp fills
    obtain ⟨last, split⟩ := append_of_untilClose found
    have beforeEq : opener :: text = before :=
      eq_of_append_eq_append (split : (opener :: text) ++ [closer] = _) size.symm
    subst beforeEq
    obtain ⟨rfl, rfl⟩ : last = closer ∧ after = [] := by simpa [eq_comm] using split
    have inside : untilClose (State.above [.bracket last] {}) (text ++ [last]) =
        some (text, []) := by
      rw [untilClose_opener pair] at found
      simpa using found
    exact State.run_of_separates rfl rfl rfl (run_of_untilClose inside).2
  · intro balanced
    rw [matchingClose?, String.toList_ofList, balanced.spanClose?_eq pair []]
    rfl

theorem parentheses_eq (source : String) :
    "(" ++ source ++ ")" = String.ofList ('(' :: (source.toList ++ [')'])) := by
  rw [← String.toList_inj]
  simp

/-- To fill parentheses and to be balanced is the same. -/
theorem closed_iff_balanced {source : String} : Closed source ↔ Balanced source.toList := by
  rw [Closed, parentheses_eq]
  exact matchingClose?_eq_iff_balanced rfl

end Template.Fragment
