import Template.Proofs.Fragment.Run

/-!
# Texts that open and close brackets

A piece of printed text need not be balanced: it may open brackets that a later piece
closes.  `Leads next text before after` says that reading the text in code changes the
open brackets from `before` to `after` and ends in code again.  Pieces are put together
by `Leads.append`, where each piece sees the first character of what follows it.  For
a piece without a parameter the statement holds by computation; the lemmas here are
about the other ones: fragments, quoted texts, texts without special characters, lists
with separators, and comments.
-/

namespace Template.Fragment

/-- Reading a text in code leads from open brackets to open brackets. -/
def Leads (next : Option Char) (text : String) (before after : List Frame) : Prop :=
  State.run next { stack := before } text.toList = some { stack := after }

variable {next : Option Char} {first second text : String}
variable {before middle after stack : List Frame}

theorem Leads.empty (next : Option Char) (stack : List Frame) : Leads next "" stack stack := rfl

theorem Leads.append (head : Leads (second.toList.head?.or next) first before middle)
    (tail : Leads next second middle after) : Leads next (first ++ second) before after := by
  unfold Leads at head tail ⊢
  rw [String.toList_append, State.run_append, head]
  exact tail

/-- A closed fragment leaves the open brackets alone. -/
theorem Leads.fragment {source : String} (closed : Closed source)
    (nextSeparates : separates next = true) (stack : List Frame) :
    Leads next source stack stack :=
  (closed_iff_balanced.mp closed).run nextSeparates stack

/-! ## Plain characters -/

/-- The characters that mean something in code. -/
def specials : List Char :=
  [Text.doubleQuote, Text.singleQuote, Text.backtick, '/', '(', ')', '[', ']', '{', '}']

theorem State.read_plain {char : Char} (plain : char ∉ specials) (next : Option Char)
    (stack : List Frame) : read { stack } char next = .visible { stack } := by
  simp only [specials, List.mem_cons, List.not_mem_nil, or_false, not_or] at plain
  simp [read, readCode, isCloser, closer?, plain]

theorem State.run_plain {chars : List Char} (plain : ∀ char ∈ chars, char ∉ specials)
    (next : Option Char) (stack : List Frame) : run next { stack } chars = some { stack } := by
  induction chars with
  | nil => rfl
  | cons char rest inductionHypothesis =>
      rw [List.forall_mem_cons] at plain
      rw [run, read_plain plain.1]
      exact inductionHypothesis plain.2

theorem Leads.plain (plain : ∀ char ∈ text.toList, char ∉ specials) (next : Option Char)
    (stack : List Frame) : Leads next text stack stack :=
  State.run_plain plain next stack

theorem forall_not_mem_specials {chars : List Char}
    (plain : chars.all (fun char => !specials.contains char) = true) :
    ∀ char ∈ chars, char ∉ specials := by
  simpa using plain

theorem not_mem_specials_of_isBlank {char : Char} (blank : Text.isBlank char = true) :
    char ∉ specials := by
  intro membership
  have noBlanks : specials.all (fun special => !Text.isBlank special) = true := by decide
  have noBlank : (!Text.isBlank char) = true := List.all_eq_true.mp noBlanks char membership
  rw [blank] at noBlank
  exact Bool.noConfusion noBlank

theorem not_mem_specials_of_isDigit {char : Char} (digit : char.isDigit = true) :
    char ∉ specials := by
  intro membership
  have noDigits : specials.all (fun special => !special.isDigit) = true := by decide
  have noDigit : (!char.isDigit) = true := List.all_eq_true.mp noDigits char membership
  rw [digit] at noDigit
  exact Bool.noConfusion noDigit

/-! ## Quoted texts -/

/-- What stands between the marks of a string: a backslash protects the character after
it, and the mark does not occur otherwise. -/
inductive QuotedText (mark : Char) : List Char → Prop where
  | nil : QuotedText mark []
  | escaped {char : Char} {rest : List Char} (others : QuotedText mark rest) :
      QuotedText mark (Text.backslash :: char :: rest)
  | plain {char : Char} {rest : List Char} (noBackslash : char ≠ Text.backslash)
      (noMark : char ≠ mark) (others : QuotedText mark rest) : QuotedText mark (char :: rest)

namespace QuotedText

variable {mark : Char}

theorem append {first second : List Char} (head : QuotedText mark first)
    (tail : QuotedText mark second) : QuotedText mark (first ++ second) := by
  induction head with
  | nil => exact tail
  | escaped others inductionHypothesis => exact .escaped inductionHypothesis
  | plain noBackslash noMark others inductionHypothesis =>
      exact .plain noBackslash noMark inductionHypothesis

theorem digitChar {digit : Nat} (bound : digit < 16) :
    QuotedText Text.doubleQuote [Nat.digitChar digit] := by
  have every : ∀ digit < 16, Nat.digitChar digit ≠ Text.backslash ∧
      Nat.digitChar digit ≠ Text.doubleQuote := by decide
  exact .plain (every digit bound).1 (every digit bound).2 .nil

theorem escape (char : Char) : QuotedText Text.doubleQuote (Text.escape char) := by
  unfold Text.escape
  iterate 7
    split
    · exact .escaped .nil
  next noQuote noBackslash _ _ _ _ _ =>
  split
  next control =>
    have digits : QuotedText Text.doubleQuote
        ([Nat.digitChar (char.toNat / 16)] ++ [Nat.digitChar (char.toNat % 16)]) :=
      (digitChar (by omega)).append (digitChar (by omega))
    exact .escaped (.plain (by decide) (by decide) (.plain (by decide) (by decide) digits))
  next => exact .plain (by simpa using noBackslash) (by simpa using noQuote) .nil

/-- No character of a text gets out of the quotes around its spelling. -/
theorem escapes (text : List Char) :
    QuotedText Text.doubleQuote (text.flatMap Text.escape) := by
  induction text with
  | nil => exact .nil
  | cons char rest inductionHypothesis => exact (escape char).append inductionHypothesis

end QuotedText

theorem State.run_quoted {mark : Char} {text : List Char} (inside : QuotedText mark text)
    (next : Option Char) (stack : List Frame) :
    run next { mode := .quoted mark, stack } text = some { mode := .quoted mark, stack } := by
  induction inside with
  | nil => rfl
  | escaped others inductionHypothesis => exact inductionHypothesis
  | plain noBackslash noMark others inductionHypothesis =>
      rw [run]
      simp only [read, readQuoted, beq_iff_eq, noBackslash, noMark, Bool.false_eq_true,
        ↓reduceIte]
      exact inductionHypothesis

/-- A quoted text is one token, whatever it says. -/
theorem Leads.quote (text : String) (next : Option Char) (stack : List Frame) :
    Leads next (Text.quote text) stack stack := by
  have inside : State.run next { mode := .quoted Text.doubleQuote, stack }
      (text.toList.flatMap Text.escape ++ [Text.doubleQuote]) = some { stack } := by
    rw [State.run_append, State.run_quoted (QuotedText.escapes text.toList)]
    rfl
  unfold Leads Text.quote Text.quoteChars
  rw [String.toList_ofList]
  exact inside

/-! ## Lists with separators -/

/-- Texts that leave the open brackets alone do so together, if the separator begins with
a character that separates. -/
theorem Leads.intercalate {separator : String} {items : List String} {stack : List Frame}
    (separatorSeparates : ∀ next, separates (separator.toList.head?.or next) = true)
    (separatorLeads : ∀ next, Leads next separator stack stack)
    (itemsLead : ∀ item ∈ items, ∀ next, separates next = true → Leads next item stack stack)
    (nextSeparates : separates next = true) :
    Leads next (separator.intercalate items) stack stack := by
  induction items with
  | nil => exact Leads.empty next stack
  | cons item rest inductionHypothesis =>
      rw [List.forall_mem_cons] at itemsLead
      cases rest with
      | nil =>
          rw [String.intercalate_singleton]
          exact itemsLead.1 next nextSeparates
      | cons following rest =>
          rw [String.intercalate_cons_cons]
          exact ((itemsLead.1 _ (separatorSeparates _)).append (separatorLeads _)).append
            (inductionHypothesis itemsLead.2)

/-! ## Comments -/

namespace State

theorem run_inComment {chars : List Char} (oneLine : '\n' ∉ chars) (next : Option Char)
    (stack : List Frame) :
    run next { mode := .lineComment, stack } chars = some { mode := .lineComment, stack } := by
  induction chars with
  | nil => rfl
  | cons char rest inductionHypothesis =>
      rw [List.mem_cons, not_or] at oneLine
      have read_eq (lookahead : Option Char) :
          read { mode := .lineComment, stack } char lookahead =
            .hidden { mode := .lineComment, stack } := by
        simp [read, Ne.symm oneLine.1]
      rw [run, read_eq]
      exact inductionHypothesis oneLine.2

theorem run_lineComment {chars : List Char} (oneLine : '\n' ∉ chars) (next : Option Char)
    (stack : List Frame) :
    run next { mode := .lineComment, stack } (chars ++ ['\n']) = some { stack } := by
  rw [run_append, run_inComment oneLine]
  rfl

theorem run_blockComment {chars : List Char} (unclosed : ¬ ['*', '/'] <:+: chars)
    (next : Option Char) (stack : List Frame) :
    run next { mode := .blockComment, stack } (chars ++ ['*', '/']) = some { stack } := by
  induction chars with
  | nil => rfl
  | cons char rest inductionHypothesis =>
      have restUnclosed : ¬ ['*', '/'] <:+: rest :=
        fun found => unclosed (found.trans (List.suffix_cons char rest).isInfix)
      have noClose : ¬ (char = '*' ∧ (rest ++ ['*', '/']).head? = some '/') := by
        rintro ⟨rfl, slash⟩
        cases rest with
        | nil => simp at slash
        | cons second rest =>
            simp only [List.cons_append, List.head?_cons, Option.some.injEq] at slash
            subst slash
            exact unclosed (List.prefix_append ['*', '/'] rest).isInfix
      have lookahead : (rest ++ ['*', '/']).head?.or next = (rest ++ ['*', '/']).head? := by
        simp [List.head?_append]
      have read_eq :
          read { mode := .blockComment, stack } char (rest ++ ['*', '/']).head? =
            .hidden { mode := .blockComment, stack } := by
        simp only [read, Bool.false_eq_true, ↓reduceIte]
        rw [if_neg (by simpa using noClose)]
      rw [List.cons_append, run, lookahead, read_eq]
      exact inductionHypothesis restUnclosed

end State

theorem Leads.lineComment (oneLine : '\n' ∉ text.toList) (next : Option Char)
    (stack : List Frame) : Leads next ("//" ++ text ++ "\n") stack stack := by
  have characters : ("//" ++ text ++ "\n").toList = '/' :: '/' :: (text.toList ++ ['\n']) := by
    simp
  unfold Leads
  rw [characters]
  exact State.run_lineComment oneLine next stack

/-- A comment in brackets of its own hides everything up to the first closing one. -/
theorem Leads.blockComment (unclosed : ¬ ['*', '/'] <:+: text.toList) (next : Option Char)
    (stack : List Frame) : Leads next ("/*" ++ text ++ "*/") stack stack := by
  have characters : ("/*" ++ text ++ "*/").toList =
      '/' :: '*' :: (text.toList ++ ['*', '/']) := by
    simp
  unfold Leads
  rw [characters]
  exact State.run_blockComment unclosed next stack

end Template.Fragment
