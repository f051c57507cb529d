import Template.Proofs.Bracketing
import Template.Proofs.Layout.Depth

/-!
# Indentation

Printing statements deeper puts the same margin in front of every line of their text.  As a
statement about the lines of the printer this is `Stmt.linesOf_add`.  Here it is said of the
printed text, where a line is what stands between two line ends: the two notions of a line are
the same if no text that is printed as it is has a line end of its own.  Quoted texts never
have one.

It follows that nesting leaves no trace but the margin: wherever statements stand side by side
in a program, the text printed for them is the text that they have alone, behind the margin of
their depth.
-/

namespace Template

/-! ## Texts of one line -/

namespace Text

/-- A text without a line end. -/
def OneLine (text : String) : Prop :=
  '\n' ∉ text.toList

instance (text : String) : Decidable (OneLine text) :=
  inferInstanceAs (Decidable (_ ∉ _))

@[simp] theorem oneLine_append (first second : String) :
    OneLine (first ++ second) ↔ OneLine first ∧ OneLine second := by
  rw [OneLine, String.toList_append, List.mem_append, not_or]
  rfl

theorem oneLine_between_iff {before middle after : String} (beforeOneLine : OneLine before)
    (afterOneLine : OneLine after) : OneLine (before ++ middle ++ after) ↔ OneLine middle := by
  rw [oneLine_append, oneLine_append, and_iff_right beforeOneLine, and_iff_left afterOneLine]

theorem oneLine_intercalate_iff {separator : String} (oneLine : OneLine separator)
    (parts : List String) :
    OneLine (separator.intercalate parts) ↔ ∀ part ∈ parts, OneLine part := by
  induction parts with
  | nil =>
      simp only [String.intercalate_nil, List.not_mem_nil, false_implies, implies_true, iff_true]
      decide
  | cons part rest inductionHypothesis =>
      cases rest with
      | nil => simp
      | cons next rest =>
          rw [String.intercalate_cons_cons, oneLine_append, oneLine_append, and_iff_left oneLine,
            inductionHypothesis, List.forall_mem_cons (l := next :: rest)]

theorem lineEnd_notMem_escape (char : Char) : '\n' ∉ escape char := by
  unfold escape
  iterate 7
    split
    · decide
  split
  · have digits : ∀ digit < 16, '\n' ≠ Nat.digitChar digit := by decide
    have high := digits (char.toNat / 16) (by omega)
    have low := digits (char.toNat % 16) (by omega)
    simp [high, low, backslash]
  next lineEnd _ _ _ =>
    rw [List.mem_singleton]
    rintro rfl
    exact lineEnd rfl

/-- A quoted text has no line end, whatever it says. -/
theorem oneLine_quote (text : String) : OneLine (quote text) := by
  rw [OneLine, quote, String.toList_ofList, quoteChars, List.mem_cons, List.mem_append,
    List.mem_flatMap]
  rintro (quotes | ⟨char, -, escaped⟩ | quotes)
  · exact absurd quotes (by decide)
  · exact lineEnd_notMem_escape char escaped
  · exact absurd quotes (by decide)

/-! ## Margins -/

/-- Put a margin in front of every line that begins in a text.  At the start of a line the next
character is the first one of the line, and after a line end the next line starts. -/
def indentFrom (margin : List Char) : (atStart : Bool) → List Char → List Char
  | _, [] => []
  | atStart, char :: rest =>
      (if atStart then margin else []) ++ char :: indentFrom margin (char == '\n') rest

/-- Put a margin in front of every line of a text. -/
def indentLines (margin text : String) : String :=
  String.ofList (indentFrom margin.toList true text.toList)

theorem indentFrom_inside (margin : List Char) {text : List Char} (oneLine : '\n' ∉ text)
    (rest : List Char) :
    indentFrom margin false (text ++ '\n' :: rest) =
      text ++ '\n' :: indentFrom margin true rest := by
  induction text with
  | nil => rfl
  | cons char text inductionHypothesis =>
      rw [List.mem_cons, not_or] at oneLine
      have inside : (char == '\n') = false := beq_eq_false_iff_ne.mpr (Ne.symm oneLine.1)
      rw [List.cons_append, indentFrom, inside, inductionHypothesis oneLine.2]
      rfl

/-- A line gets its margin, and the next line is at its start again. -/
theorem indentFrom_line (margin : List Char) {text : List Char} (oneLine : '\n' ∉ text)
    (rest : List Char) :
    indentFrom margin true (text ++ '\n' :: rest) =
      margin ++ text ++ '\n' :: indentFrom margin true rest := by
  cases text with
  | nil => rw [List.nil_append, List.append_nil]; rfl
  | cons char text =>
      rw [List.mem_cons, not_or] at oneLine
      have inside : (char == '\n') = false := beq_eq_false_iff_ne.mpr (Ne.symm oneLine.1)
      rw [List.cons_append, indentFrom, inside, indentFrom_inside margin oneLine.2,
        List.append_assoc]
      rfl

example : indentLines "  " "a\n\n  b\n" = "  a\n  \n    b\n" := by decide +kernel

end Text

open Text (OneLine oneLine_between_iff oneLine_intercalate_iff oneLine_quote)

/-! ## Printed expressions -/

theorem Term.oneLine_render_iff (term : Term) :
    OneLine term.render ↔ ∀ source ∈ term.fragments, OneLine source := by
  cases term with
  | literal text => simp [render, fragments, oneLine_quote]
  | expr source =>
      rw [render, oneLine_between_iff (by decide) (by decide)]
      simp [fragments]

theorem Term.oneLine_sum_iff (terms : List Term) (sources : List String)
    (printed : sources = terms.map render ∨ sources = Text.quote "" :: terms.map render) :
    OneLine (" + ".intercalate sources) ↔
      ∀ source ∈ terms.flatMap fragments, OneLine source := by
  rw [oneLine_intercalate_iff (by decide)]
  have rendered : (∀ source ∈ terms.map render, OneLine source) ↔
      ∀ source ∈ terms.flatMap fragments, OneLine source := by
    simp only [List.forall_mem_map, oneLine_render_iff, List.forall_mem_flatMap]
  rcases printed with rfl | rfl
  · exact rendered
  · rw [List.forall_mem_cons, and_iff_right (oneLine_quote ""), rendered]

theorem Concatenation.oneLine_render_iff (concatenation : Concatenation) :
    OneLine concatenation.render ↔ ∀ source ∈ concatenation.fragments, OneLine source := by
  unfold Concatenation.render fragments
  split
  next none => simp [none, oneLine_quote]
  next literal => simp [literal, Term.fragments, oneLine_quote]
  next expr _ => simp [expr, Term.fragments]
  next terms _ =>
    rw [terms]
    apply Term.oneLine_sum_iff
    split
    · exact .inr rfl
    · exact .inl rfl

theorem Helper.oneLine_call_iff (helper : Helper) (arguments : String) :
    OneLine (helper.identifier ++ "(" ++ arguments ++ ")") ↔ OneLine arguments := by
  have opening : OneLine (helper.identifier ++ "(") := by
    cases helper with
    | iterate | merge | join => decide
  exact oneLine_between_iff opening (by decide)

theorem ClassTerm.oneLine_render_iff (term : ClassTerm) :
    OneLine term.render ↔ ∀ source ∈ term.fragments, OneLine source := by
  cases term with
  | static name => simp [render, fragments, oneLine_quote]
  | dynamic source =>
      rw [render, Helper.oneLine_call_iff]
      simp [fragments]

theorem PropertyValue.oneLine_render_iff (value : PropertyValue) :
    OneLine value.render ↔ ∀ source ∈ value.fragments, OneLine source := by
  cases value with
  | source code => simp [render, fragments]
  | classes terms =>
      rw [render, oneLine_intercalate_iff (by decide)]
      simp only [List.forall_mem_map, ClassTerm.oneLine_render_iff, fragments,
        List.forall_mem_flatMap]

theorem oneLine_renderProperty_iff (key : String) (value : PropertyValue) :
    OneLine (renderProperty key value) ↔ ∀ source ∈ value.fragments, OneLine source := by
  have colon : OneLine ": " := by decide
  rw [renderProperty, Text.oneLine_append, Text.oneLine_append, and_iff_left colon,
    and_iff_right (oneLine_quote key), PropertyValue.oneLine_render_iff]

theorem ObjectLiteral.oneLine_render_iff (object : ObjectLiteral) :
    OneLine object.render ↔ ∀ source ∈ object.fragments, OneLine source := by
  rw [render, oneLine_between_iff (by decide) (by decide), oneLine_intercalate_iff (by decide)]
  simp only [List.forall_mem_map, oneLine_renderProperty_iff, fragments, List.forall_mem_flatMap]

theorem MergeArgument.oneLine_render_iff (argument : MergeArgument) :
    OneLine argument.render ↔ ∀ source ∈ argument.fragments, OneLine source := by
  cases argument with
  | object literal => exact literal.oneLine_render_iff
  | source code => simp [render, fragments]

theorem oneLine_renderAttributes_iff (attributes : Option Attributes) :
    OneLine (renderAttributes attributes) ↔
      ∀ source ∈ Attributes.fragmentsOfOption attributes, OneLine source := by
  match attributes with
  | none =>
      simp only [Attributes.fragmentsOfOption, List.not_mem_nil, false_implies, implies_true,
        iff_true]
      decide
  | some (.object literal) => exact literal.oneLine_render_iff
  | some (.merge arguments) =>
      rw [renderAttributes, Attributes.render, Helper.oneLine_call_iff,
        oneLine_intercalate_iff (by decide)]
      simp only [List.forall_mem_map, MergeArgument.oneLine_render_iff,
        Attributes.fragmentsOfOption, Attributes.fragments, List.forall_mem_flatMap]

/-! ## Printed statements -/

/-- Lines whose texts have no line end. -/
def Line.AllOneLine (lines : List Line) : Prop :=
  ∀ line ∈ lines, OneLine line.text

namespace Line

@[simp] theorem allOneLine_nil : AllOneLine [] := List.forall_mem_nil _

@[simp] theorem allOneLine_cons (depth : Nat) (text : String) (rest : List Line) :
    AllOneLine (⟨depth, text⟩ :: rest) ↔ OneLine text ∧ AllOneLine rest :=
  List.forall_mem_cons

@[simp] theorem allOneLine_append (first second : List Line) :
    AllOneLine (first ++ second) ↔ AllOneLine first ∧ AllOneLine second :=
  List.forall_mem_append

end Line

namespace Stmt

open Line (AllOneLine)

def comments : Stmt → List String
  | .lineComment text | .blockComment text _ => [text]
  | _ => []

/-- The texts that a statement is printed with as they are, apart from the statements in it:
fragments of source and what comments say. -/
def verbatim (stmt : Stmt) : List String :=
  stmt.fragments ++ stmt.comments

/-- Statements whose texts have no line end. -/
def AllUnbroken (stmts : List Stmt) : Prop :=
  ∀ stmt ∈ stmts, ∀ text ∈ stmt.verbatim, OneLine text

instance (stmts : List Stmt) : Decidable (AllUnbroken stmts) :=
  inferInstanceAs (Decidable (∀ stmt ∈ stmts, ∀ text ∈ stmt.verbatim, OneLine text))

@[simp] theorem allUnbroken_nil : AllUnbroken [] := List.forall_mem_nil _

@[simp] theorem allUnbroken_cons (stmt : Stmt) (rest : List Stmt) :
    AllUnbroken (stmt :: rest) ↔ (∀ text ∈ stmt.verbatim, OneLine text) ∧ AllUnbroken rest :=
  List.forall_mem_cons

@[simp] theorem allUnbroken_append (first second : List Stmt) :
    AllUnbroken (first ++ second) ↔ AllUnbroken first ∧ AllUnbroken second :=
  List.forall_mem_append

theorem oneLine_bodyName (index : Nat) : OneLine (bodyName index) := by
  have name : OneLine "__body" := by decide
  have number : OneLine (String.ofList (Nat.toDigits 10 index)) := by
    rw [OneLine, String.toList_ofList]
    intro lineEnd
    have digit := Nat.isDigit_of_mem_toDigits (by decide) (by decide) lineEnd
    exact absurd digit (by decide)
  exact (Text.oneLine_append _ _).mpr ⟨name, number⟩

/-- The texts that are the same in all programs. -/
theorem oneLine_fixed :
    OneLine "\x7b" ∧ OneLine "\x7d" ∧ OneLine "if (" ∧ OneLine "\x7d else if (" ∧
      OneLine ") \x7b" ∧ OneLine "\x7d else \x7b" ∧ OneLine "(function () \x7b" ∧
      OneLine "var __return = [];" ∧ OneLine "var " ∧ OneLine " = function () \x7b" ∧
      OneLine "\x7d;" ∧ OneLine "while (" ∧ OneLine "return __return;" ∧
      OneLine "\x7d).call(this);" ∧ OneLine "(" ∧ OneLine ", (" ∧ OneLine ", " ∧
      OneLine ") => \x7b" ∧ OneLine "\x7d, () => \x7b" ∧ OneLine "\x7d);" ∧ OneLine "//" ∧
      OneLine "/*" ∧ OneLine "*/" ∧ OneLine "block ? block() : null;" ∧ OneLine "TEXT(" ∧
      OneLine "UNESCAPE(" ∧ OneLine "ELEMENT(" ∧ OneLine ");" := by
  decide +kernel

theorem allOneLine_bodyCalls (count depth : Nat) :
    AllOneLine ((List.range count).map fun index =>
      (⟨depth, "__return.push(" ++ bodyName index ++ ".call(this));"⟩ : Line)) := by
  intro line membership
  obtain ⟨index, -, rfl⟩ := List.mem_map.mp membership
  exact (oneLine_between_iff (by decide) (by decide)).mpr (oneLine_bodyName index)

mutual

/-- No line of a statement has a line end inside exactly if no text in the statement that is
printed as it is has one. -/
theorem allOneLine_lines_iff (depth : Nat) (stmt : Stmt) :
    AllOneLine (lines depth stmt) ↔ AllUnbroken stmt.statements := by
  cases stmt with
  | sentinel found => exact allOneLine_sentinelLines_iff depth found
  | code source => simp [lines, statements, verbatim, fragments, comments]
  | scope body =>
      have bodyIff := allOneLine_linesOf_iff (depth + 1) body
      simp [lines, statements, verbatim, fragments, comments, bodyIff, oneLine_fixed]
  | branch test consequent alternate =>
      have consequentIff := allOneLine_linesOf_iff (depth + 1) consequent
      have alternateIff := allOneLine_elseLines_iff depth alternate
      simp [lines, statements, verbatim, fragments, comments, consequentIff, alternateIff,
        oneLine_fixed, and_assoc, and_left_comm]
  | loop test bodies =>
      have bodiesIff := allOneLine_closureLines_iff (depth + 1) 0 bodies
      have calls := allOneLine_bodyCalls bodies.length (depth + 2)
      simp [lines, statements, verbatim, fragments, comments, bodiesIff, calls, oneLine_fixed,
        and_comm]
  | each helper object value key body alternate =>
      have bodyIff := allOneLine_linesOf_iff (depth + 1) body
      have alternateIff := allOneLine_alternateLines_iff depth alternate
      simp [lines, statements, verbatim, fragments, comments, bodyIff, alternateIff, oneLine_fixed,
        and_assoc]
  | lineComment text => simp [lines, statements, verbatim, fragments, comments, oneLine_fixed]
  | blockComment text body =>
      have bodyIff := allOneLine_linesOf_iff (depth + 1) body
      simp [lines, statements, verbatim, fragments, comments, bodyIff, oneLine_fixed]
  | mixinBlock => simp [lines, statements, verbatim, fragments, comments, oneLine_fixed]

theorem allOneLine_sentinelLines_iff (depth : Nat) (found : Sentinel) :
    AllOneLine (sentinelLines depth found) ↔ AllUnbroken (.sentinel found :: found.statements) := by
  cases found with
  | text content =>
      simp [sentinelLines, Sentinel.statements, verbatim, fragments, comments, oneLine_fixed,
        Concatenation.oneLine_render_iff]
  | unescape source =>
      simp [sentinelLines, Sentinel.statements, verbatim, fragments, comments, oneLine_fixed]
  | element tag attributes children =>
      have childrenIff := allOneLine_linesOf_iff (depth + 1) children
      simp [sentinelLines, Sentinel.statements, verbatim, fragments, comments, childrenIff,
        oneLine_fixed, oneLine_quote, oneLine_renderAttributes_iff]

theorem allOneLine_elseLines_iff (depth : Nat) (alternate : Else) :
    AllOneLine (elseLines depth alternate) ↔
      (∀ test ∈ alternate.tests, OneLine test) ∧ AllUnbroken alternate.statements := by
  cases alternate with
  | none => simp [elseLines, Else.tests, Else.statements, oneLine_fixed]
  | branch test consequent alternate =>
      have consequentIff := allOneLine_linesOf_iff (depth + 1) consequent
      have alternateIff := allOneLine_elseLines_iff depth alternate
      simp [elseLines, Else.tests, Else.statements, consequentIff, alternateIff, oneLine_fixed,
        and_assoc, and_left_comm]
  | block body =>
      have bodyIff := allOneLine_linesOf_iff (depth + 1) body
      simp [elseLines, Else.tests, Else.statements, bodyIff, oneLine_fixed]

theorem allOneLine_alternateLines_iff (depth : Nat) (alternate : Option (List Stmt)) :
    AllOneLine (alternateLines depth alternate) ↔ AllUnbroken (statementsOfOption alternate) := by
  cases alternate with
  | none => simp [alternateLines, statementsOfOption, oneLine_fixed]
  | some body =>
      have bodyIff := allOneLine_linesOf_iff (depth + 1) body
      simp [alternateLines, statementsOfOption, bodyIff, oneLine_fixed]

theorem allOneLine_closureLines_iff (depth index : Nat) (bodies : List (List Stmt)) :
    AllOneLine (closureLines depth index bodies) ↔ AllUnbroken (statementsOfAll bodies) := by
  cases bodies with
  | nil => simp [closureLines, statementsOfAll]
  | cons body rest =>
      have bodyIff := allOneLine_linesOf_iff (depth + 1) body
      have restIff := allOneLine_closureLines_iff depth (index + 1) rest
      simp [closureLines, statementsOfAll, bodyIff, restIff, oneLine_bodyName, oneLine_fixed]

theorem allOneLine_linesOf_iff (depth : Nat) (stmts : List Stmt) :
    AllOneLine (linesOf depth stmts) ↔ AllUnbroken (statementsOf stmts) := by
  cases stmts with
  | nil => simp [linesOf, statementsOf]
  | cons stmt rest =>
      simp only [linesOf, statementsOf, Line.allOneLine_append, allUnbroken_append,
        allOneLine_lines_iff depth stmt, allOneLine_linesOf_iff depth rest]

end

end Stmt

/-! ## Margins of printed lines -/

namespace Line

variable {indent : String}

theorem oneLine_margin (oneLine : OneLine indent) (depth : Nat) :
    OneLine (margin indent depth) := by
  induction depth with
  | zero => exact List.not_mem_nil
  | succ depth inductionHypothesis =>
      have last : margin indent 1 = indent := by
        rw [margin, List.replicate_one, String.join_cons, String.join_nil, String.append_empty]
      rw [margin_add, last, Text.oneLine_append]
      exact ⟨inductionHypothesis, oneLine⟩

/-- A margin in front of every line of a printed text moves the lines it was printed from. -/
theorem indentLines_join (indentOneLine : OneLine indent) (levels : Nat) {lines : List Line}
    (oneLine : AllOneLine lines) :
    Text.indentLines (margin indent levels) (join indent lines) =
      join indent (lines.map (deepen levels)) := by
  rw [Text.indentLines, ← String.toList_inj, String.toList_ofList]
  induction lines with
  | nil => rfl
  | cons line rest inductionHypothesis =>
      obtain ⟨depth, text⟩ := line
      rw [allOneLine_cons] at oneLine
      have line : OneLine (margin indent depth ++ text) :=
        (Text.oneLine_append _ _).mpr ⟨oneLine_margin indentOneLine depth, oneLine.1⟩
      have printed : (join indent (⟨depth, text⟩ :: rest)).toList =
          (margin indent depth ++ text).toList ++ '\n' :: (join indent rest).toList := by
        simp [render_eq]
      rw [printed, Text.indentFrom_line _ line, inductionHypothesis oneLine.2]
      simp [deepen, render_eq, margin_add]

end Line

/-! ## Blocks -/

mutual

/-- The blocks in a statement that is printed at a depth, each with its own depth. -/
def Stmt.blocks (depth : Nat) : Stmt → List (Nat × List Stmt)
  | .sentinel found => found.blocks depth
  | .scope body | .blockComment _ body => (depth + 1, body) :: Stmt.blocksOf (depth + 1) body
  | .branch _ consequent alternate =>
      (depth + 1, consequent) :: Stmt.blocksOf (depth + 1) consequent ++ alternate.blocks depth
  | .loop _ bodies => Stmt.blocksOfAll (depth + 2) bodies
  | .each _ _ _ _ body alternate =>
      (depth + 1, body) :: Stmt.blocksOf (depth + 1) body ++
        Stmt.blocksOfOption (depth + 1) alternate
  | .code _ | .lineComment _ | .mixinBlock => []

def Else.blocks (depth : Nat) : Else → List (Nat × List Stmt)
  | .none => []
  | .branch _ consequent alternate =>
      (depth + 1, consequent) :: Stmt.blocksOf (depth + 1) consequent ++ alternate.blocks depth
  | .block body => (depth + 1, body) :: Stmt.blocksOf (depth + 1) body

def Sentinel.blocks (depth : Nat) : Sentinel → List (Nat × List Stmt)
  | .text _ | .unescape _ => []
  | .element _ _ children => (depth + 1, children) :: Stmt.blocksOf (depth + 1) children

def Stmt.blocksOf (depth : Nat) : List Stmt → List (Nat × List Stmt)
  | [] => []
  | stmt :: rest => stmt.blocks depth ++ Stmt.blocksOf depth rest

def Stmt.blocksOfAll (depth : Nat) : List (List Stmt) → List (Nat × List Stmt)
  | [] => []
  | body :: rest =>
      (depth, body) :: Stmt.blocksOf depth body ++ Stmt.blocksOfAll depth rest

def Stmt.blocksOfOption (depth : Nat) : Option (List Stmt) → List (Nat × List Stmt)
  | none => []
  | some body => (depth, body) :: Stmt.blocksOf depth body

end

/-- The blocks of a program that is printed at a depth, the program itself in front. -/
def Program.blocks (depth : Nat) (program : Program) : List (Nat × List Stmt) :=
  (depth, program) :: Stmt.blocksOf depth program

/-- Blocks whose lines stand side by side among some lines and whose statements stand side by
side among some statements. -/
def Stmt.AllInside (blocks : List (Nat × List Stmt)) (lines : List Line) (stmts : List Stmt) :
    Prop :=
  ∀ block ∈ blocks, linesOf block.1 block.2 <:+: lines ∧ statementsOf block.2 <:+: stmts

namespace Stmt.AllInside

variable {blocks : List (Nat × List Stmt)} {lines outer : List Line} {stmts all : List Stmt}

theorem mono (inside : AllInside blocks lines stmts) (linesInfix : lines <:+: outer)
    (stmtsInfix : stmts <:+: all) : AllInside blocks outer all := fun block membership =>
  ⟨(inside block membership).1.trans linesInfix, (inside block membership).2.trans stmtsInfix⟩

theorem nil : AllInside [] lines stmts := List.forall_mem_nil _

/-- A block with the blocks in it. -/
theorem cons {depth : Nat} {body : List Stmt}
    (inside : AllInside blocks (linesOf depth body) (statementsOf body))
    (linesInfix : linesOf depth body <:+: lines) (stmtsInfix : statementsOf body <:+: stmts) :
    AllInside ((depth, body) :: blocks) lines stmts :=
  List.forall_mem_cons.mpr ⟨⟨linesInfix, stmtsInfix⟩, inside.mono linesInfix stmtsInfix⟩

theorem append {others : List (Nat × List Stmt)} (first : AllInside blocks lines stmts)
    (second : AllInside others lines stmts) : AllInside (blocks ++ others) lines stmts :=
  List.forall_mem_append.mpr ⟨first, second⟩

end Stmt.AllInside

namespace Stmt

mutual

/-- The blocks in a statement are printed inside it. -/
theorem allInside_blocks (depth : Nat) (stmt : Stmt) :
    AllInside (stmt.blocks depth) (lines depth stmt) stmt.statements := by
  cases stmt with
  | sentinel found => exact allInside_sentinelBlocks depth found
  | code | lineComment | mixinBlock => exact .nil
  | scope body | blockComment text body =>
      exact (allInside_blocksOf (depth + 1) body).cons ⟨[_], [_], rfl⟩
        (List.suffix_cons _ _).isInfix
  | branch test consequent alternate =>
      have inConsequent := allInside_blocksOf (depth + 1) consequent
      have inAlternate := allInside_elseBlocks depth alternate
      exact (inConsequent.cons ⟨[_], _, rfl⟩ ⟨[_], _, rfl⟩).append
        (inAlternate.mono (List.suffix_append _ _).isInfix
          ((List.suffix_append _ _).trans (List.suffix_cons _ _)).isInfix)
  | loop test bodies =>
      have opening : closureLines (depth + 1) 0 bodies <:+: ⟨depth, "(function () \x7b"⟩ ::
          ⟨depth + 1, "var __return = [];"⟩ :: closureLines (depth + 1) 0 bodies :=
        ((List.suffix_cons _ _).trans (List.suffix_cons _ _)).isInfix
      exact (allInside_blocksOfAll (depth + 1) 0 bodies).mono
        (opening.trans ((List.prefix_append _ _).trans (List.prefix_append _ _)).isInfix)
        (List.suffix_cons _ _).isInfix
  | each helper object value key body alternate =>
      have inBody := allInside_blocksOf (depth + 1) body
      have inAlternate := allInside_blocksOfOption depth alternate
      exact (inBody.cons ⟨[_], _, rfl⟩ ⟨[_], _, rfl⟩).append
        (inAlternate.mono (List.suffix_append _ _).isInfix
          ((List.suffix_append _ _).trans (List.suffix_cons _ _)).isInfix)

theorem allInside_sentinelBlocks (depth : Nat) (found : Sentinel) :
    AllInside (found.blocks depth) (sentinelLines depth found)
      (.sentinel found :: found.statements) := by
  cases found with
  | text | unescape => exact .nil
  | element tag attributes children =>
      exact (allInside_blocksOf (depth + 1) children).cons ⟨[_, _], [_], rfl⟩
        (List.suffix_cons _ _).isInfix

theorem allInside_elseBlocks (depth : Nat) (alternate : Else) :
    AllInside (alternate.blocks depth) (elseLines depth alternate) alternate.statements := by
  cases alternate with
  | none => exact .nil
  | branch test consequent alternate =>
      have inConsequent := allInside_blocksOf (depth + 1) consequent
      have inAlternate := allInside_elseBlocks depth alternate
      exact (inConsequent.cons ⟨[_], _, rfl⟩ (List.prefix_append _ _).isInfix).append
        (inAlternate.mono (List.suffix_append _ _).isInfix (List.suffix_append _ _).isInfix)
  | block body =>
      exact (allInside_blocksOf (depth + 1) body).cons ⟨[_], [_], rfl⟩ List.infix_rfl

theorem allInside_blocksOfOption (depth : Nat) (alternate : Option (List Stmt)) :
    AllInside (blocksOfOption (depth + 1) alternate) (alternateLines depth alternate)
      (statementsOfOption alternate) := by
  cases alternate with
  | none => exact .nil
  | some body =>
      exact (allInside_blocksOf (depth + 1) body).cons ⟨[_], [_], rfl⟩ List.infix_rfl

theorem allInside_blocksOfAll (depth index : Nat) (bodies : List (List Stmt)) :
    AllInside (blocksOfAll (depth + 1) bodies) (closureLines depth index bodies)
      (statementsOfAll bodies) := by
  cases bodies with
  | nil => exact .nil
  | cons body rest =>
      have inBody := allInside_blocksOf (depth + 1) body
      have inRest := allInside_blocksOfAll depth (index + 1) rest
      exact (inBody.cons ⟨[_], _, rfl⟩ (List.prefix_append _ _).isInfix).append
        (inRest.mono ((List.suffix_cons _ _).trans (List.suffix_append _ _)).isInfix
          (List.suffix_append _ _).isInfix)

theorem allInside_blocksOf (depth : Nat) (stmts : List Stmt) :
    AllInside (blocksOf depth stmts) (linesOf depth stmts) (statementsOf stmts) := by
  cases stmts with
  | nil => exact .nil
  | cons stmt rest =>
      have inFirst := allInside_blocks depth stmt
      have inRest := allInside_blocksOf depth rest
      exact (inFirst.mono (List.prefix_append _ _).isInfix (List.prefix_append _ _).isInfix).append
        (inRest.mono (List.suffix_append _ _).isInfix (List.suffix_append _ _).isInfix)

end

theorem statementsOf_infix {part stmts : List Stmt} (inside : part <:+: stmts) :
    statementsOf part <:+: statementsOf stmts := by
  obtain ⟨front, back, rfl⟩ := inside
  rw [statementsOf_append, statementsOf_append]
  exact List.infix_append _ _ _

end Stmt

namespace Program

variable {indent : String} {program : Program}

/-- A program whose texts have no line end, apart from those that are quoted. -/
def Unbroken (program : Program) : Prop :=
  Stmt.AllUnbroken program.statements

instance (program : Program) : Decidable program.Unbroken :=
  inferInstanceAs (Decidable (Stmt.AllUnbroken _))

theorem renderAt_eq_indentLines (indentOneLine : OneLine indent) (unbroken : program.Unbroken)
    (depth : Nat) :
    program.renderAt indent depth =
      Text.indentLines (Line.margin indent depth) (program.render indent) := by
  have oneLine := (Stmt.allOneLine_linesOf_iff 0 program).mpr unbroken
  rw [← renderAt_zero, renderAt, renderAt, Line.indentLines_join indentOneLine depth oneLine,
    ← Stmt.linesOf_add, Nat.add_zero]

theorem allInside_blocks (depth : Nat) (program : Program) :
    Stmt.AllInside (program.blocks depth) (Stmt.linesOf depth program) program.statements :=
  (Stmt.allInside_blocksOf depth program).cons List.infix_rfl List.infix_rfl

/-- Statements at a depth are printed as they are alone, with the margin of the depth in front of
every line.  This holds of a whole program and of all statements that stand side by side in one of
its blocks, at the depth of the block. -/
theorem renderAt_uniform (indentOneLine : OneLine indent) (unbroken : program.Unbroken)
    (depth : Nat) :
    program.renderAt indent depth =
      Text.indentLines (Line.margin indent depth) (program.render indent) ∧
    ∀ inner block, (inner, block) ∈ program.blocks depth → ∀ part, part <:+: block →
      ∃ before after, program.renderAt indent depth =
        before ++ Text.indentLines (Line.margin indent inner) (Program.render indent part) ++
          after := by
  refine ⟨renderAt_eq_indentLines indentOneLine unbroken depth, ?_⟩
  intro inner block membership part inside
  obtain ⟨lines, statements⟩ := allInside_blocks depth program (inner, block) membership
  have partUnbroken : Unbroken part := fun stmt found =>
    unbroken stmt (((Stmt.statementsOf_infix inside).trans statements).subset found)
  rw [← renderAt_eq_indentLines indentOneLine partUnbroken]
  exact Line.exists_join_of_infix indent ((Stmt.infix_linesOf inner inside).trans lines)

/-- A chain of branches, one of them with an empty line. -/
def emptyLine : Program :=
  [.branch "f" [.code ""] (.branch "g" [] (.block [.lineComment " h"]))]

/-- Line ends in tags, keys, class names and literals, and a block of each kind. -/
def brokenNames : Program :=
  [.sentinel (.element "a\nb"
      (some (.object ⟨[("\n", .classes [.static "c\nd", .dynamic "e"])]⟩))
      [.loop "i--" [[.sentinel (.text ⟨[.literal "j\n", .expr "k"], true⟩)], emptyLine]]),
    .each "map" "xs" "x" "y" [.scope [.sentinel (.unescape "l")]]
      (some [.blockComment " m" [.mixinBlock]])]

theorem renderAt_uniform_brokenNames :
    OneLine "\t" ∧ brokenNames.Unbroken ∧ (5, emptyLine) ∈ brokenNames.blocks 2 ∧
      brokenNames.renderAt "\t" 2 =
        Text.indentLines (Line.margin "\t" 2) (brokenNames.render "\t") ∧
      ∃ before after, brokenNames.renderAt "\t" 2 =
        before ++ Text.indentLines (Line.margin "\t" 5) (emptyLine.render "\t") ++ after := by
  have oneLine : OneLine "\t" := by decide
  have unbroken : brokenNames.Unbroken := by decide +kernel
  have closure : (5, emptyLine) ∈ brokenNames.blocks 2 := by
    simp [brokenNames, Program.blocks, Stmt.blocksOf, Stmt.blocks, Sentinel.blocks,
      Stmt.blocksOfAll]
  obtain ⟨whole, blocks⟩ := renderAt_uniform oneLine unbroken 2
  exact ⟨oneLine, unbroken, closure, whole, blocks 5 emptyLine closure emptyLine List.infix_rfl⟩

end Program

end Template
