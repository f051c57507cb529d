import Template.Proofs.Fragment.Grammar

/-!
# Texts that break off

A text is cut into parts whenever every closing bracket in it fits, also if brackets are open
at its end.  The beginnings of sequences of items are therefore told apart by what they lack:
those with balanced brackets need no closing bracket to become items, only perhaps the end of
a string or a comment, and those that leave a bracket open have one without a partner.

The grammar decides which of the two a beginning is (`Items.cut`), and the reading agrees with
it: it ends without an open bracket in the first case and with one in the second.  Conversely
whatever is read to its end can be completed (`State.Proper.run_completion`).
-/

namespace Template.Fragment

open Template.Text

variable {text whole : List Char}

/-! ## Beginnings of items -/

/-- A text that becomes a sequence of items if something is added to it. -/
def Completable (text : List Char) : Prop :=
  ∃ rest, Items (text ++ rest)

/-- A text in which each bracket has its partner: it becomes a sequence of items, and no
closing bracket has to be added for it. -/
def BracketsBalanced (text : List Char) : Prop :=
  ∃ rest, (∀ char ∈ rest, isCloser char = false) ∧ Items (text ++ rest)

/-- A text with a bracket, or a substitution in a template string, that is never closed: what
comes behind it breaks off within the bracket. -/
inductive LeavesOpen : List Char → Prop where
  | bracket {before after : List Char} {opener closer : Char} (items : Items before)
      (pair : closer? opener = some closer) (inside : Completable after) :
      LeavesOpen (before ++ opener :: after)
  | substitution {before body after : List Char} (items : Items before)
      (template : TemplateText body) (inside : Completable after) :
      LeavesOpen (before ++ backtick :: (body ++ '$' :: '{' :: after))

theorem Completable.of_beginning (beginning : text <+: whole) (items : Items whole) :
    Completable text := by
  obtain ⟨rest, rfl⟩ := beginning
  exact ⟨rest, items⟩

theorem Items.single {item : List Char} (alone : Item none item) : Items item := by
  rw [← List.append_nil item]
  exact .cons alone .nil

theorem BracketsBalanced.of_items (items : Items text) : BracketsBalanced text :=
  ⟨[], by simp, by rwa [List.append_nil]⟩

theorem BracketsBalanced.of_item (ending : List Char)
    (noCloser : ∀ char ∈ ending, isCloser char = false) (item : Item none (text ++ ending)) :
    BracketsBalanced text :=
  ⟨ending, noCloser, .single item⟩

/-! ## Where an item breaks off -/

/-- A beginning of two texts in a row ends in the first one or reaches the second. -/
theorem prefix_append_cases {first second : List Char} (beginning : text <+: first ++ second) :
    text <+: first ∨ ∃ rest, text = first ++ rest ∧ rest <+: second := by
  obtain ⟨more, split⟩ := beginning
  rcases List.append_eq_append_iff.mp split with ⟨between, rfl, rfl⟩ | ⟨between, rfl, rfl⟩
  · exact .inl (List.prefix_append text between)
  · exact .inr ⟨between, rfl, List.prefix_append between more⟩

/-- A beginning of a text between two delimiters lacks the last one unless it is the whole. -/
theorem prefix_delimited {first last : Char} {inside : List Char}
    (beginning : text <+: first :: (inside ++ [last])) :
    text = [] ∨ text = first :: (inside ++ [last]) ∨
      ∃ front, text = first :: front ∧ front <+: inside := by
  rcases List.prefix_cons_iff.mp beginning with rfl | ⟨front, rfl, behind⟩
  · exact .inl rfl
  rcases List.prefix_concat_iff.mp behind with rfl | within
  · exact .inr (.inl rfl)
  · exact .inr (.inr ⟨front, rfl, within⟩)

/-- A string that breaks off goes on with its mark, which a backslash at its end protects. -/
theorem QuotedText.cut {mark : Char} (inside : QuotedText mark whole) (beginning : text <+: whole) :
    ∃ ending, (∀ char ∈ ending, char = mark) ∧ QuotedText mark (text ++ ending) := by
  induction inside generalizing text with
  | nil =>
      rw [List.prefix_nil.mp beginning]
      exact ⟨[], by simp, .nil⟩
  | escaped others inductionHypothesis =>
      rcases List.prefix_cons_iff.mp beginning with rfl | ⟨text, rfl, escape⟩
      · exact ⟨[], by simp, .nil⟩
      rcases List.prefix_cons_iff.mp escape with rfl | ⟨text, rfl, behind⟩
      · exact ⟨[mark], by simp, .escaped .nil⟩
      obtain ⟨ending, marks, completed⟩ := inductionHypothesis behind
      exact ⟨ending, marks, .escaped completed⟩
  | plain noBackslash noMark others inductionHypothesis =>
      rcases List.prefix_cons_iff.mp beginning with rfl | ⟨text, rfl, behind⟩
      · exact ⟨[], by simp, .nil⟩
      obtain ⟨ending, marks, completed⟩ := inductionHypothesis behind
      exact ⟨ending, marks, .plain noBackslash noMark completed⟩

/-- A character of a template string stays one in front of another text, unless a substitution
begins there. -/
theorem TemplateText.plain_of_beginning {char : Char} {rest front ending : List Char}
    (noBackslash : char ≠ backslash) (noMark : char ≠ backtick)
    (noSubstitution : ¬ (char = '$' ∧ rest.head? = some '{')) (beginning : front <+: rest)
    (noBrace : ending.head? ≠ some '{') (others : TemplateText (front ++ ending)) :
    TemplateText (char :: (front ++ ending)) := by
  refine .plain noBackslash noMark ?_ others
  rintro ⟨isDollar, isBrace⟩
  cases front with
  | nil => exact noBrace isBrace
  | cons first front =>
      obtain ⟨more, rfl⟩ := beginning
      exact noSubstitution ⟨isDollar, isBrace⟩

/-- A template string that breaks off goes on like any other string, or it breaks off within a
substitution. -/
theorem TemplateText.cut : {whole : List Char} → TemplateText whole → {text : List Char} →
    text <+: whole →
    (∃ ending, (∀ char ∈ ending, char = backtick) ∧ TemplateText (text ++ ending)) ∨
      ∃ body after, text = body ++ '$' :: '{' :: after ∧ TemplateText body ∧ Completable after
  | _, .nil, _, beginning => by
      rw [List.prefix_nil.mp beginning]
      exact .inl ⟨[], by simp, .nil⟩
  | _, .escaped others, _, beginning => by
      rcases List.prefix_cons_iff.mp beginning with rfl | ⟨text, rfl, escape⟩
      · exact .inl ⟨[], by simp, .nil⟩
      rcases List.prefix_cons_iff.mp escape with rfl | ⟨text, rfl, behind⟩
      · exact .inl ⟨[backtick], by simp, .escaped .nil⟩
      rcases others.cut behind with ⟨ending, marks, completed⟩ | ⟨body, after, rfl, outer, inner⟩
      · exact .inl ⟨ending, marks, .escaped completed⟩
      · exact .inr ⟨_, after, rfl, .escaped outer, inner⟩
  | _, @TemplateText.substitution inside rest items others, _, beginning => by
      rcases List.prefix_cons_iff.mp beginning with rfl | ⟨text, rfl, opened⟩
      · exact .inl ⟨[], by simp, .nil⟩
      rcases List.prefix_cons_iff.mp opened with rfl | ⟨text, rfl, behind⟩
      · exact .inl ⟨[], by simp, .plain (by decide) (by decide) (by simp) .nil⟩
      rw [List.append_cons] at behind
      rcases prefix_append_cases behind with within | ⟨text, rfl, later⟩
      · rcases List.prefix_concat_iff.mp within with rfl | within
        · exact .inl ⟨[], by simp, by simpa using .substitution items .nil⟩
        · exact .inr ⟨[], text, rfl, .nil, .of_beginning within items⟩
      rcases others.cut later with ⟨ending, marks, completed⟩ | ⟨body, after, rfl, outer, inner⟩
      · exact .inl ⟨ending, marks, by simpa using .substitution items completed⟩
      · exact .inr ⟨_, after, by simp, .substitution items outer, inner⟩
  | _, .plain noBackslash noMark noSubstitution others, _, beginning => by
      rcases List.prefix_cons_iff.mp beginning with rfl | ⟨text, rfl, behind⟩
      · exact .inl ⟨[], by simp, .nil⟩
      rcases others.cut behind with ⟨ending, marks, completed⟩ | ⟨body, after, rfl, outer, inner⟩
      · refine .inl ⟨ending, marks, ?_⟩
        refine .plain_of_beginning noBackslash noMark noSubstitution behind ?_ completed
        intro isBrace
        exact absurd (marks '{' (List.mem_of_head? isBrace)) (by decide)
      · refine .inr ⟨_ :: body, after, rfl, ?_, inner⟩
        rw [← List.append_nil body] at outer ⊢
        exact .plain_of_beginning noBackslash noMark noSubstitution
          ((List.prefix_append body _).trans behind) (by simp) outer

theorem BracketsBalanced.of_marks {mark : Char} {ending : List Char}
    (noCloser : isCloser mark = false) (marks : ∀ char ∈ ending, char = mark)
    (item : Item none (text ++ (ending ++ [mark]))) : BracketsBalanced text := by
  refine .of_item (ending ++ [mark]) ?_ item
  rw [List.forall_mem_append]
  constructor
  · intro char membership
    rw [marks char membership, noCloser]
  · simpa using noCloser

theorem BracketsBalanced.slash : BracketsBalanced ['/'] :=
  .of_items (.single (.plain (by decide)))

/-- An item that breaks off has balanced brackets, or it is a group or a template string that
breaks off within its brackets. -/
theorem Item.cut {next : Option Char} {item : List Char} (broken : Item next item)
    (beginning : text <+: item) : BracketsBalanced text ∨ LeavesOpen text := by
  by_cases complete : text = item
  · subst complete
    exact .inl (.of_items (.single broken.atEnd))
  by_cases empty : text = []
  · subst empty
    exact .inl (.of_items .nil)
  cases broken with
  | plain meaningless =>
      rcases List.prefix_cons_iff.mp beginning with rfl | ⟨text, rfl, behind⟩
      · exact absurd rfl empty
      · exact absurd (by rw [List.prefix_nil.mp behind]) complete
  | @quoted _ mark inner isMark inside =>
      obtain ⟨front, rfl, within⟩ :=
        ((prefix_delimited beginning).resolve_left empty).resolve_left complete
      obtain ⟨ending, marks, completed⟩ := inside.cut within
      have noCloser : isCloser mark = false := by
        obtain rfl | rfl : mark = doubleQuote ∨ mark = singleQuote := by simpa using isMark
        · rfl
        · rfl
      refine .inl (.of_marks noCloser marks ?_)
      simpa using Item.quoted isMark completed
  | template inside =>
      obtain ⟨front, rfl, within⟩ :=
        ((prefix_delimited beginning).resolve_left empty).resolve_left complete
      rcases inside.cut within with ⟨ending, marks, completed⟩ | ⟨body, after, rfl, outer, inner⟩
      · have noCloser : isCloser backtick = false := rfl
        refine .inl (.of_marks noCloser marks ?_)
        simpa using Item.template completed
      · exact .inr (.substitution .nil outer inner)
  | lineComment inside =>
      rcases List.prefix_cons_iff.mp beginning with rfl | ⟨text, rfl, behind⟩
      · exact absurd rfl empty
      rcases prefix_delimited behind with rfl | rfl | ⟨front, rfl, within⟩
      · exact .inl .slash
      · exact absurd rfl complete
      · have oneLine : '\n' ∉ front := fun membership => inside (within.mem membership)
        exact .inl (.of_item ['\n'] (by simp [isCloser]) (.lineComment oneLine))
  | @blockComment _ inner inside =>
      rcases List.prefix_cons_iff.mp beginning with rfl | ⟨text, rfl, behind⟩
      · exact absurd rfl empty
      rw [List.append_cons] at behind
      rcases prefix_delimited behind with rfl | rfl | ⟨front, rfl, within⟩
      · exact .inl .slash
      · exact absurd (by simp) complete
      · rcases List.prefix_concat_iff.mp within with rfl | within
        · refine .inl (.of_item ['/'] (by simp [isCloser]) ?_)
          simpa using Item.blockComment inside
        · have unclosed : ¬ ['*', '/'] <:+: front :=
            fun found => inside (found.trans within.isInfix)
          exact .inl (.of_item ['*', '/'] (by simp [isCloser]) (.blockComment unclosed))
  | group pair inside =>
      obtain ⟨front, rfl, within⟩ :=
        ((prefix_delimited beginning).resolve_left empty).resolve_left complete
      exact .inr (.bracket .nil pair (.of_beginning within inside))

/-- An item may stand in front of a text that breaks off. -/
theorem Item.cut_cons {item : List Char} (first : Item text.head? item)
    (broken : BracketsBalanced text ∨ LeavesOpen text) :
    BracketsBalanced (item ++ text) ∨ LeavesOpen (item ++ text) := by
  rcases broken with ⟨rest, noCloser, items⟩ | leavesOpen
  · cases text with
    | nil => exact .inl (.of_items (by simpa using Items.single first))
    | cons char text =>
        refine .inl ⟨rest, noCloser, ?_⟩
        rw [List.append_assoc]
        exact .cons first items
  · right
    cases leavesOpen with
    | bracket items pair inside =>
        rw [← List.append_assoc]
        exact .bracket (.cons first.before items) pair inside
    | substitution items template inside =>
        rw [← List.append_assoc]
        exact .substitution (.cons first.before items) template inside

/-- A beginning of items has balanced brackets or leaves one open. -/
theorem Items.cut : {whole : List Char} → Items whole → {text : List Char} → text <+: whole →
    BracketsBalanced text ∨ LeavesOpen text
  | _, .nil, _, beginning => by
      rw [List.prefix_nil.mp beginning]
      exact .inl (.of_items .nil)
  | _, @Items.cons item rest first others, text, beginning => by
      rcases prefix_append_cases beginning with within | ⟨text, rfl, later⟩
      · exact first.cut within
      · have broken := others.cut later
        obtain ⟨more, rfl⟩ := later
        exact first.before.cut_cons broken

/-! ## Reading a beginning -/

namespace State

/-- A slash opens and closes nothing. -/
theorem stack_of_readSlash {stack : List Frame} {next : Option Char} {after : State}
    (reading : (readCode { stack } '/' next).state? = some after) : after.stack = stack := by
  unfold readCode at reading
  grind [Reading.state?, isCloser, closer?]

/-- Without a character to look ahead to, no more brackets are open after a reading. -/
theorem read_none {state after : State} {char : Char} {next : Option Char}
    (reading : (state.read char next).state? = some after) :
    ∃ other, (state.read char none).state? = some other ∧ other.stack <:+ after.stack := by
  obtain ⟨mode, stack, held⟩ := state
  cases held with
  | true => exact ⟨after, reading, List.suffix_rfl⟩
  | false =>
      cases mode with
      | code =>
          by_cases slash : char = '/'
          · subst slash
            refine ⟨{ stack }, rfl, ?_⟩
            simp only [stack_of_readSlash reading, List.suffix_rfl]
          · have same : read { stack } char none = read { stack } char next := by
              simp [read, readCode, slash]
            exact ⟨after, same ▸ reading, List.suffix_rfl⟩
      | quoted | lineComment => exact ⟨after, reading, List.suffix_rfl⟩
      | blockComment =>
          refine ⟨{ mode := .blockComment, stack }, ?_, ?_⟩
          · simp [read, Reading.state?]
          · simp only [read, Reading.state?] at reading
            grind
      | template =>
          refine ⟨readTemplate { mode := .template, stack } char none, rfl, ?_⟩
          obtain rfl : readTemplate { mode := .template, stack } char next = after :=
            Option.some.inj reading
          unfold readTemplate
          grind

theorem run_none {state final : State} {next : Option Char}
    (success : state.run next text = some final) :
    ∃ other, state.run none text = some other ∧ other.stack <:+ final.stack := by
  induction text generalizing state with
  | nil =>
      cases success
      exact ⟨final, rfl, List.suffix_rfl⟩
  | cons char rest inductionHypothesis =>
      cases rest with
      | nil =>
          rw [run_singleton] at success ⊢
          exact read_none success
      | cons second rest =>
          rw [run, List.head?_cons, Option.some_or] at success ⊢
          obtain ⟨after, reading, later⟩ := Option.bind_eq_some_iff.mp success
          rw [reading]
          exact inductionHypothesis later

/-- Only a closing bracket takes something off the stack. -/
theorem stack_suffix_of_read {state after : State} {char : Char} {next : Option Char}
    (noCloser : isCloser char = false) (reading : (state.read char next).state? = some after) :
    state.stack <:+ after.stack := by
  obtain ⟨mode, stack, held⟩ := state
  unfold read readCode readQuoted readTemplate at reading
  simp only [noCloser] at reading
  grind [Reading.state?]

theorem stack_suffix_of_run {state final : State} {next : Option Char}
    (noCloser : ∀ char ∈ text, isCloser char = false)
    (success : state.run next text = some final) : state.stack <:+ final.stack := by
  induction text generalizing state with
  | nil =>
      cases success
      exact List.suffix_rfl
  | cons char rest inductionHypothesis =>
      rw [List.forall_mem_cons] at noCloser
      obtain ⟨after, reading, later⟩ := Option.bind_eq_some_iff.mp success
      exact (stack_suffix_of_read noCloser.1 reading).trans
        (inductionHypothesis noCloser.2 later)

/-- A character to look ahead to matters only if it can make a comment or a substitution. -/
theorem read_of_inert {next : Option Char} (inert : separates next = true)
    (noBrace : next ≠ some '{') (state : State) (char : Char) :
    state.read char next = state.read char none := by
  simp only [separates, Bool.and_eq_true, bne_iff_ne, ne_eq] at inert
  simp [read, readCode, readTemplate, inert, noBrace]

theorem run_of_inert {next : Option Char} (inert : separates next = true)
    (noBrace : next ≠ some '{') (state : State) (text : List Char) :
    state.run next text = state.run none text := by
  induction text generalizing state with
  | nil => rfl
  | cons char rest inductionHypothesis =>
      cases rest with
      | nil => rw [run_singleton, run_singleton, read_of_inert inert noBrace]
      | cons second rest =>
          rw [run, run]
          simp only [List.head?_cons, Option.some_or, inductionHypothesis]

end State

/-- Items are read up to any place, with at most the brackets open that are closed behind it. -/
theorem Items.run_front {rest : List Char} (items : Items (text ++ rest)) :
    ∃ final middle, State.run none {} text = some final ∧ final.stack <:+ middle.stack ∧
      State.run none middle rest = some {} := by
  have whole : State.run none {} (text ++ rest) = some {} := items.balanced
  rw [State.run_append] at whole
  obtain ⟨middle, front, back⟩ := Option.bind_eq_some_iff.mp whole
  obtain ⟨final, success, fewer⟩ := State.run_none front
  exact ⟨final, middle, success, fewer, back⟩

/-- A reading of a text with balanced brackets ends without an open one. -/
theorem BracketsBalanced.run (balanced : BracketsBalanced text) :
    ∃ final, State.run none {} text = some final ∧ final.stack = [] := by
  obtain ⟨rest, noCloser, items⟩ := balanced
  obtain ⟨final, middle, success, fewer, back⟩ := items.run_front
  have kept := State.stack_suffix_of_run noCloser back
  exact ⟨final, success, List.suffix_nil.mp (fewer.trans kept)⟩

theorem BracketsBalanced.stack_eq_nil {final : State} (balanced : BracketsBalanced text)
    (success : State.run none {} text = some final) : final.stack = [] := by
  obtain ⟨other, otherSuccess, empty⟩ := balanced.run
  obtain rfl : final = other := Option.some.inj (success.symm.trans otherSuccess)
  exact empty

/-- A reading of a text that leaves a bracket open ends with an open one. -/
theorem LeavesOpen.run (leavesOpen : LeavesOpen text) :
    ∃ final, State.run none {} text = some final ∧ final.stack ≠ [] := by
  cases leavesOpen with
  | @bracket before after opener closer items pair inside =>
      obtain ⟨rest, insideItems⟩ := inside
      obtain ⟨final, -, success, -, -⟩ := insideItems.run_front
      have above := State.run_above [.bracket closer] success
      have front : State.run (some opener) {} before = some {} := by
        refine items.run ?_ []
        rcases pair_cases pair with ⟨rfl, -⟩ | ⟨rfl, -⟩ | ⟨rfl, -⟩ <;> rfl
      refine ⟨final.above [.bracket closer], ?_, by simp [State.above]⟩
      rw [State.run_append, List.head?_cons, Option.some_or, front]
      rcases pair_cases pair with ⟨rfl, rfl⟩ | ⟨rfl, rfl⟩ | ⟨rfl, rfl⟩ <;> exact above
  | @substitution before body after items template inside =>
      obtain ⟨rest, insideItems⟩ := inside
      obtain ⟨final, -, success, -, -⟩ := insideItems.run_front
      have above := State.run_above [.substitution] success
      have front : State.run (some backtick) {} before = some {} := items.run rfl []
      have middle : State.run (some '$') { mode := .template } body =
          some { mode := .template } := by
        have closed := template.run []
        rw [State.run_of_inert rfl (by decide)] at closed ⊢
        exact closed
      refine ⟨final.above [.substitution], ?_, by simp [State.above]⟩
      rw [State.run_append, List.head?_cons, Option.some_or, front]
      change State.run none { mode := .template } (body ++ '$' :: '{' :: after) = _
      rw [State.run_append, List.head?_cons, Option.some_or, middle]
      exact above

/-! ## Completing a text -/

/-- What closes a bracket. -/
def Frame.completion : Frame → List Char
  | .bracket closer => [closer]
  | .substitution => ['}', backtick]

/-- What leads from a mode to code. -/
def Mode.completion : Mode → List Char
  | .code => []
  | .quoted mark => [mark]
  | .template => [backtick]
  | .lineComment => ['\n']
  | .blockComment => ['*', '/']

namespace State

/-- What leads from a state to code without an open bracket.  The line end in front belongs to
a token that is held, if there is one. -/
def completion (state : State) : List Char :=
  '\n' :: (state.mode.completion ++ state.stack.flatMap Frame.completion)

/-- A state that a reading can reach: strings have quotation marks, and the closing brackets that
are waited for are some. -/
structure Proper (state : State) : Prop where
  marks : ∀ mark, state.mode = .quoted mark → mark ∈ [doubleQuote, singleQuote]
  closers : ∀ closer, .bracket closer ∈ state.stack → isCloser closer = true

theorem isCloser_of_pair {opener closer : Char} (pair : closer? opener = some closer) :
    isCloser closer = true := by
  rcases pair_cases pair with ⟨-, rfl⟩ | ⟨-, rfl⟩ | ⟨-, rfl⟩ <;> rfl

theorem Proper.read {state after : State} {char : Char} {next : Option Char}
    (proper : state.Proper) (reading : (state.read char next).state? = some after) :
    after.Proper := by
  obtain ⟨mode, stack, held⟩ := state
  obtain ⟨marks, closers⟩ := proper
  constructor
  · unfold State.read readCode readQuoted readTemplate close at reading
    grind [Reading.state?]
  · unfold State.read readCode readQuoted readTemplate close at reading
    grind [Reading.state?, isCloser_of_pair]

theorem Proper.run {state final : State} {next : Option Char} (proper : state.Proper)
    (success : state.run next text = some final) : final.Proper := by
  induction text generalizing state with
  | nil =>
      cases success
      exact proper
  | cons char rest inductionHypothesis =>
      obtain ⟨after, reading, later⟩ := Option.bind_eq_some_iff.mp success
      exact inductionHypothesis (proper.read reading) later

/-- Open brackets are closed from the innermost on. -/
theorem run_closers {stack : List Frame}
    (closers : ∀ closer, .bracket closer ∈ stack → isCloser closer = true) :
    run none { stack } (stack.flatMap Frame.completion) = some {} := by
  induction stack with
  | nil => rfl
  | cons frame stack inductionHypothesis =>
      have later := inductionHypothesis fun closer membership =>
        closers closer (List.mem_cons_of_mem frame membership)
      cases frame with
      | bracket closer =>
          have closes := closers closer List.mem_cons_self
          rw [List.flatMap_cons, Frame.completion, List.singleton_append, run, read_closer closes]
          simpa [close, Reading.state?] using later
      | substitution => exact later

/-- A state that a reading can reach is completed. -/
theorem Proper.run_completion {state : State} (proper : state.Proper) :
    state.run none state.completion = some {} := by
  have later := run_closers proper.closers
  obtain ⟨mode, stack, held⟩ := state
  cases held <;>
  · cases mode with
    | code | template | lineComment | blockComment => exact later
    | quoted mark =>
        obtain rfl | rfl : mark = doubleQuote ∨ mark = singleQuote := by
          simpa using proper.marks mark rfl
        · exact later
        · exact later

end State

/-- A text that can be read to its end can be completed. -/
theorem Completable.of_run {final : State} (success : State.run none {} text = some final) :
    Completable text := by
  have proper : final.Proper := by
    refine State.Proper.run ⟨?_, ?_⟩ success
    · intro mark impossible
      cases impossible
    · intro closer impossible
      cases impossible
  refine ⟨final.completion, balanced_iff_items.mp ?_⟩
  have front : State.run (some '\n') {} text = some final := by
    rw [State.run_of_inert rfl (by decide)]
    exact success
  rw [Balanced, State.run_append]
  change (State.run (some '\n') {} text).bind _ = _
  rw [front]
  exact proper.run_completion

/-! ## Parts of a text that breaks off -/

/-- A text has parts exactly if it can be read to its end. -/
theorem isSome_partsFrom {separator : Char} {state : State} :
    (partsFrom separator state text).isSome = (state.run none text).isSome := by
  induction text generalizing state with
  | nil => rfl
  | cons char rest inductionHypothesis =>
      rw [partsFrom, State.run, Option.or_none]
      cases state.read char rest.head? with
      | broken => rfl
      | hidden next => simpa [Reading.state?] using inductionHypothesis
      | visible next =>
          simp only
          split <;> simpa [Reading.state?] using inductionHypothesis

/-- A source has parts exactly if its brackets are balanced or one is left open, whatever it is
cut at.  No text is both. -/
theorem isSome_topLevelParts?_iff (separator : Char) (source : String) :
    ((topLevelParts? separator source).isSome = true ↔
      BracketsBalanced source.toList ∨ LeavesOpen source.toList) ∧
    ¬ (BracketsBalanced source.toList ∧ LeavesOpen source.toList) := by
  have readable : (topLevelParts? separator source).isSome = true ↔
      ∃ final, State.run none {} source.toList = some final := by
    rw [topLevelParts?, Option.isSome_map, isSome_partsFrom, Option.isSome_iff_exists]
  refine ⟨readable.trans ⟨?_, ?_⟩, ?_⟩
  · rintro ⟨final, success⟩
    obtain ⟨rest, items⟩ := Completable.of_run success
    exact items.cut (List.prefix_append _ rest)
  · rintro (balanced | leavesOpen)
    · obtain ⟨final, success, -⟩ := balanced.run
      exact ⟨final, success⟩
    · obtain ⟨final, success, -⟩ := leavesOpen.run
      exact ⟨final, success⟩
  · rintro ⟨balanced, leavesOpen⟩
    obtain ⟨final, success, nonempty⟩ := leavesOpen.run
    exact nonempty (balanced.stack_eq_nil success)

/-- A parenthesis and a substitution that are not closed do not keep a source from being cut. -/
theorem isSome_topLevelParts?_iff_unclosed :
    (topLevelParts? ',' "a, (b" = some ["a", " (b"] ∧ ¬ BracketsBalanced "a, (b".toList) ∧
    (topLevelParts? ',' "a, `$\x7bb" = some ["a", " `$\x7bb"] ∧
      ¬ BracketsBalanced "a, `$\x7bb".toList) := by
  have bracket : State.run none {} "a, (b".toList = some { stack := [.bracket ')'] } := by decide
  have substitution :
      State.run none {} "a, `$\x7bb".toList = some { stack := [.substitution] } := by decide
  refine ⟨⟨by decide +kernel, fun balanced => ?_⟩, by decide +kernel, fun balanced => ?_⟩
  · exact List.cons_ne_nil _ _ (balanced.stack_eq_nil bracket)
  · exact List.cons_ne_nil _ _ (balanced.stack_eq_nil substitution)

end Template.Fragment
