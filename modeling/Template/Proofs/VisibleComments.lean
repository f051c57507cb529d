import Template.Proofs.Bracketing
import Template.Proofs.Translation

/-!
# Visible comments

A visible comment is printed as a comment of the program.  Nothing in it is escaped, so it
is one comment only if what it says does not end it: a line end in the text of a line comment,
and the end of a comment anywhere between the marks of a block comment.

What stands between the marks of a block comment is a printed program.  The main statement,
`isComment_render_iff`, says which programs can stand there: those without block comments of
their own in which the end of a comment occurs in none of the texts they were put together
from.  Quoting does not help: it changes neither the star nor the slash.
-/

namespace Template

open Fragment (Commentable commentable_append_iff commentable_iff_isChain)

/-! ## One comment -/

namespace Fragment

/-- What follows the first end of a comment. -/
def behindEnd? : List Char → Option (List Char)
  | [] => none
  | '*' :: '/' :: rest => some rest
  | _ :: rest => behindEnd? rest

/-- What follows the comment that a text begins with.  A comment to the end of the line does
not include the line end. -/
def behindComment? : List Char → Option (List Char)
  | '/' :: '/' :: rest => some (rest.dropWhile (· != '\n'))
  | '/' :: '*' :: rest => behindEnd? rest
  | _ => none

/-- A text that is one comment with a line end behind it. -/
def IsComment (text : String) : Prop :=
  behindComment? text.toList = some ['\n']

instance (text : String) : Decidable (IsComment text) :=
  inferInstanceAs (Decidable (_ = _))

theorem behindEnd?_cons {char : Char} {back : List Char}
    (noEnd : ¬ (char = '*' ∧ back.head? = some '/')) :
    behindEnd? (char :: back) = behindEnd? back := by
  rw [behindEnd?]
  rintro rest rfl rfl
  exact noEnd ⟨rfl, rfl⟩

/-- The end behind a text is the first one exactly if there is none in the text. -/
theorem behindEnd?_append_iff (inside : String) (rest : List Char) :
    behindEnd? (inside.toList ++ '*' :: '/' :: rest) = some rest ↔ Commentable inside := by
  rw [commentable_iff_isChain]
  generalize inside.toList = text
  induction text with
  | nil => simp [behindEnd?]
  | cons char text inductionHypothesis =>
      rw [List.isChain_cons, List.cons_append]
      by_cases ends : char = '*' ∧ text.head? = some '/'
      · obtain ⟨rfl, slash⟩ := ends
        obtain ⟨back, rfl⟩ := List.head?_eq_some_iff.mp slash
        -- Here the comment is over, and more than the rest is left.
        constructor
        · intro found
          have split : behindEnd? ('*' :: (('/' :: back) ++ '*' :: '/' :: rest)) =
              some (back ++ '*' :: '/' :: rest) := rfl
          rw [split, Option.some.injEq] at found
          have lengths := congrArg List.length found
          simp only [List.length_append, List.length_cons] at lengths
          omega
        · rintro ⟨apart, -⟩
          exact absurd ⟨rfl, rfl⟩ (apart '/' rfl)
      · have later : behindEnd? (char :: (text ++ '*' :: '/' :: rest)) =
            behindEnd? (text ++ '*' :: '/' :: rest) := by
          apply behindEnd?_cons
          rintro ⟨rfl, slash⟩
          cases text with
          | nil => cases slash
          | cons next text => exact ends ⟨rfl, slash⟩
        rw [later, inductionHypothesis, and_iff_right]
        rintro next nextEq ⟨rfl, rfl⟩
        exact ends ⟨rfl, nextEq⟩

theorem dropWhile_lineEnd_iff (text : List Char) :
    (text ++ ['\n']).dropWhile (· != '\n') = ['\n'] ↔ '\n' ∉ text := by
  induction text with
  | nil => decide
  | cons char text inductionHypothesis =>
      rw [List.cons_append, List.dropWhile_cons, List.mem_cons, not_or]
      by_cases lineEnd : char = '\n'
      · simp [lineEnd]
      · rw [if_pos (by simpa using lineEnd), inductionHypothesis, and_iff_right (Ne.symm lineEnd)]

theorem isComment_line_iff (text : String) :
    IsComment ("//" ++ text ++ "\n") ↔ '\n' ∉ text.toList := by
  have behind : behindComment? ("//" ++ text ++ "\n").toList =
      some ((text.toList ++ ['\n']).dropWhile (· != '\n')) := by
    simp [behindComment?]
  rw [IsComment, behind, Option.some.injEq, dropWhile_lineEnd_iff]

theorem isComment_block_iff (inside : String) :
    IsComment ("/*" ++ inside ++ "*/\n") ↔ Commentable inside := by
  have behind : behindComment? ("/*" ++ inside ++ "*/\n").toList =
      behindEnd? (inside.toList ++ '*' :: '/' :: ['\n']) := by
    simp [behindComment?]
  rw [IsComment, behind, behindEnd?_append_iff]

/-! ## Texts that are put together -/

/-- A text between two others that do not touch the end of a comment. -/
theorem commentable_between_iff {before middle after : String}
    (beforeQuiet : Commentable before) (afterQuiet : Commentable after)
    (noStar : before.toList.getLast? ≠ some '*') (noSlash : after.toList.head? ≠ some '/') :
    Commentable (before ++ middle ++ after) ↔ Commentable middle := by
  rw [commentable_append_iff (.inr noSlash), commentable_append_iff (.inl noStar),
    and_iff_left afterQuiet, and_iff_right beforeQuiet]

/-- Two texts with another between them that does not touch the end of a comment. -/
theorem commentable_apart_iff {separator : String} (quiet : Commentable separator)
    (noStar : separator.toList.getLast? ≠ some '*') (noSlash : separator.toList.head? ≠ some '/')
    (nonempty : separator.toList ≠ []) (first second : String) :
    Commentable (first ++ separator ++ second) ↔ Commentable first ∧ Commentable second := by
  have between : (first ++ separator).toList.getLast? ≠ some '*' := by
    rw [String.toList_append, List.getLast?_append_of_ne_nil _ nonempty]
    exact noStar
  rw [commentable_append_iff (.inl between), commentable_append_iff (.inr noSlash),
    and_iff_left quiet]

theorem commentable_intercalate_iff {separator : String} (quiet : Commentable separator)
    (noStar : separator.toList.getLast? ≠ some '*') (noSlash : separator.toList.head? ≠ some '/')
    (nonempty : separator.toList ≠ []) (parts : List String) :
    Commentable (separator.intercalate parts) ↔ ∀ part ∈ parts, Commentable part := by
  induction parts with
  | nil =>
      simp only [String.intercalate_nil, List.not_mem_nil, false_implies, implies_true, iff_true]
      decide
  | cons part rest inductionHypothesis =>
      cases rest with
      | nil => simp
      | cons next rest =>
          rw [String.intercalate_cons_cons, commentable_apart_iff quiet noStar noSlash nonempty,
            inductionHypothesis, List.forall_mem_cons (l := next :: rest)]

/-- The escape of a character keeps the star and the slash and brings none. -/
theorem escape_cases (char : Char) :
    Text.escape char = [char] ∨
      (char ≠ '*' ∧ char ≠ '/') ∧
        Text.escape char ≠ [] ∧ ∀ other ∈ Text.escape char, other ≠ '*' ∧ other ≠ '/' := by
  unfold Text.escape
  iterate 7
    split
    next same =>
      rw [eq_of_beq same]
      exact .inr (by simp [Text.backslash, Text.doubleQuote])
  split
  next control =>
    have digits : ∀ digit < 16, Nat.digitChar digit ≠ '*' ∧ Nat.digitChar digit ≠ '/' := by decide
    refine .inr ⟨⟨?_, ?_⟩, List.cons_ne_nil _ _, ?_⟩
    · rintro rfl
      exact absurd control (by decide)
    · rintro rfl
      exact absurd control (by decide)
    · simp only [List.forall_mem_cons, List.not_mem_nil, false_implies, implies_true, and_true]
      exact ⟨by decide, by decide, by decide, by decide, digits _ (by omega), digits _ (by omega)⟩
  next => exact .inl rfl

theorem isChain_escape (char : Char) :
    (Text.escape char).IsChain fun first second => ¬ (first = '*' ∧ second = '/') := by
  rcases escape_cases char with itself | ⟨-, -, others⟩
  · rw [itself]
    exact List.isChain_singleton char
  · rw [List.isChain_iff_forall_rel_of_append_cons_cons]
    rintro first second front back split ⟨rfl, rfl⟩
    exact (others '*' (by simp [split])).1 rfl

theorem getLast?_escape {char : Char} : (Text.escape char).getLast? = some '*' ↔ char = '*' := by
  rcases escape_cases char with itself | ⟨⟨noStar, -⟩, -, others⟩
  · simp [itself]
  · simp only [noStar, iff_false]
    intro star
    exact (others '*' (List.mem_of_getLast? star)).1 rfl

theorem head?_flatMap_escape {text : List Char} :
    (text.flatMap Text.escape).head? = some '/' ↔ text.head? = some '/' := by
  cases text with
  | nil => simp
  | cons char text =>
      rw [List.flatMap_cons]
      rcases escape_cases char with itself | ⟨⟨-, noSlash⟩, nonempty, others⟩
      · simp [itself]
      · rw [List.head?_append_of_ne_nil _ nonempty, List.head?_cons, Option.some.injEq]
        simp only [noSlash, iff_false]
        intro slash
        exact (others '/' (List.mem_of_head? slash)).2 rfl

theorem isChain_flatMap_escape_iff (text : List Char) :
    ((text.flatMap Text.escape).IsChain fun first second => ¬ (first = '*' ∧ second = '/')) ↔
      text.IsChain fun first second => ¬ (first = '*' ∧ second = '/') := by
  induction text with
  | nil => simp
  | cons char text inductionHypothesis =>
      rw [List.flatMap_cons, List.isChain_append, List.isChain_cons, inductionHypothesis,
        and_iff_right (isChain_escape char), and_comm]
      refine and_congr_left fun _ => ?_
      simp only [Option.mem_def]
      constructor
      · rintro apart next nextEq ⟨rfl, rfl⟩
        exact apart '*' (getLast?_escape.mpr rfl) '/' (head?_flatMap_escape.mpr nextEq) ⟨rfl, rfl⟩
      · rintro apart last lastEq next nextEq ⟨rfl, rfl⟩
        exact apart '/' (head?_flatMap_escape.mp nextEq) ⟨getLast?_escape.mp lastEq, rfl⟩

/-- A quoted text ends a comment exactly if the text does. -/
theorem commentable_quote_iff (text : String) :
    Commentable (Text.quote text) ↔ Commentable text := by
  have quoted : Text.quote text =
      "\"" ++ String.ofList (text.toList.flatMap Text.escape) ++ "\"" := by
    rw [← String.toList_inj]
    simp [Text.quote, Text.quoteChars]
  rw [quoted, commentable_between_iff (by decide) (by decide) (by decide) (by decide),
    commentable_iff_isChain, commentable_iff_isChain, String.toList_ofList,
    isChain_flatMap_escape_iff]

end Fragment

open Fragment (commentable_apart_iff commentable_between_iff commentable_intercalate_iff
  commentable_quote_iff)

/-! ## The texts of expressions -/

def Term.texts : Term → List String
  | .literal text => [text]
  | .expr source => [source]

/-- The texts that a concatenation is put together from, quoted or not. -/
def Concatenation.texts (concatenation : Concatenation) : List String :=
  concatenation.terms.flatMap Term.texts

def ClassTerm.texts : ClassTerm → List String
  | .static name => [name]
  | .dynamic source => [source]

def PropertyValue.texts : PropertyValue → List String
  | .source code => [code]
  | .classes terms => terms.flatMap ClassTerm.texts

def ObjectLiteral.texts (object : ObjectLiteral) : List String :=
  object.props.flatMap fun property => property.1 :: property.2.texts

def MergeArgument.texts : MergeArgument → List String
  | .object literal => literal.texts
  | .source code => [code]

/-- The texts that attributes are put together from, quoted or not. -/
def Attributes.texts : Attributes → List String
  | .object literal => literal.texts
  | .merge arguments => arguments.flatMap MergeArgument.texts

def Attributes.textsOfOption : Option Attributes → List String
  | none => []
  | some attributes => attributes.texts

theorem Term.commentable_render_iff (term : Term) :
    Commentable term.render ↔ ∀ text ∈ term.texts, Commentable text := by
  cases term with
  | literal text => simp [render, texts, commentable_quote_iff]
  | expr source =>
      rw [render, commentable_between_iff (by decide) (by decide) (by decide) (by decide)]
      simp [texts]

theorem Term.commentable_sum_iff (terms : List Term) (sources : List String)
    (printed : sources = terms.map render ∨ sources = Text.quote "" :: terms.map render) :
    Commentable (" + ".intercalate sources) ↔
      ∀ text ∈ terms.flatMap texts, Commentable text := by
  have quiet : Commentable (Text.quote "") := by decide
  rw [commentable_intercalate_iff (by decide) (by decide) (by decide) (by decide)]
  have rendered : (∀ source ∈ terms.map render, Commentable source) ↔
      ∀ text ∈ terms.flatMap texts, Commentable text := by
    simp only [List.forall_mem_map, commentable_render_iff, List.forall_mem_flatMap]
  rcases printed with rfl | rfl
  · exact rendered
  · rw [List.forall_mem_cons, and_iff_right quiet, rendered]

theorem Concatenation.commentable_render_iff (concatenation : Concatenation) :
    Commentable concatenation.render ↔ ∀ text ∈ concatenation.texts, Commentable text := by
  unfold Concatenation.render texts
  split
  next none =>
    simp only [none, List.flatMap_nil, List.not_mem_nil, false_implies, implies_true, iff_true]
    decide
  next literal => simp [literal, Term.texts, commentable_quote_iff]
  next expr _ => simp [expr, Term.texts]
  next terms _ =>
    rw [terms]
    apply Term.commentable_sum_iff
    split
    · exact .inr rfl
    · exact .inl rfl

/-- The arguments of a call decide whether the call ends a comment. -/
theorem Helper.commentable_call_iff (helper : Helper) (arguments : String) :
    Commentable (helper.identifier ++ "(" ++ arguments ++ ")") ↔ Commentable arguments := by
  have opening : Commentable (helper.identifier ++ "(") := by
    cases helper with
    | iterate | merge | join => decide +kernel
  exact commentable_between_iff opening (by decide) (by simp) (by decide)

theorem ClassTerm.commentable_render_iff (term : ClassTerm) :
    Commentable term.render ↔ ∀ text ∈ term.texts, Commentable text := by
  cases term with
  | static name => simp [render, texts, commentable_quote_iff]
  | dynamic source =>
      rw [render, Helper.commentable_call_iff]
      simp [texts]

theorem PropertyValue.commentable_render_iff (value : PropertyValue) :
    Commentable value.render ↔ ∀ text ∈ value.texts, Commentable text := by
  cases value with
  | source code => simp [render, texts]
  | classes terms =>
      have quiet : Commentable " + \" \" + " := by decide +kernel
      rw [render, commentable_intercalate_iff quiet (by simp) (by simp) (by simp)]
      simp only [List.forall_mem_map, ClassTerm.commentable_render_iff, texts,
        List.forall_mem_flatMap]

theorem commentable_renderProperty_iff (key : String) (value : PropertyValue) :
    Commentable (renderProperty key value) ↔ ∀ text ∈ key :: value.texts, Commentable text := by
  have colon : Commentable ": " := by decide
  have behindKey : (Text.quote key ++ ": ").toList.getLast? ≠ some '*' := by simp
  rw [renderProperty, commentable_append_iff (.inl behindKey),
    commentable_append_iff (.inr (by decide)), commentable_quote_iff, and_iff_left colon,
    PropertyValue.commentable_render_iff, List.forall_mem_cons]

theorem ObjectLiteral.commentable_render_iff (object : ObjectLiteral) :
    Commentable object.render ↔ ∀ text ∈ object.texts, Commentable text := by
  rw [render, commentable_between_iff (by decide) (by decide) (by decide) (by decide),
    commentable_intercalate_iff (by decide) (by decide) (by decide) (by decide)]
  simp only [List.forall_mem_map, commentable_renderProperty_iff, texts, List.forall_mem_flatMap]

theorem MergeArgument.commentable_render_iff (argument : MergeArgument) :
    Commentable argument.render ↔ ∀ text ∈ argument.texts, Commentable text := by
  cases argument with
  | object literal => exact literal.commentable_render_iff
  | source code => simp [render, texts]

theorem commentable_renderAttributes_iff (attributes : Option Attributes) :
    Commentable (renderAttributes attributes) ↔
      ∀ text ∈ Attributes.textsOfOption attributes, Commentable text := by
  match attributes with
  | none =>
      simp only [Attributes.textsOfOption, List.not_mem_nil, false_implies, implies_true, iff_true]
      decide
  | some (.object literal) => exact literal.commentable_render_iff
  | some (.merge arguments) =>
      rw [renderAttributes, Attributes.render, Helper.commentable_call_iff,
        commentable_intercalate_iff (by decide) (by decide) (by decide) (by decide)]
      simp only [List.forall_mem_map, MergeArgument.commentable_render_iff,
        Attributes.textsOfOption, Attributes.texts, List.forall_mem_flatMap]

/-! ## Statements inside a comment -/

namespace Stmt

/-- The texts that a statement is put together from, apart from the statements in it. -/
def texts : Stmt → List String
  | .sentinel (.text content) => content.texts
  | .sentinel (.unescape source) => [source]
  | .sentinel (.element tag attributes _) => tag :: Attributes.textsOfOption attributes
  | .code source => [source]
  | .branch test _ alternate => test :: alternate.tests
  | .loop test _ => [test]
  | .each helper object value key _ _ => [helper, object, value, key]
  | .lineComment text | .blockComment text _ => [text]
  | .scope _ | .mixinBlock => []

def isBlockComment : Stmt → Bool
  | .blockComment _ _ => true
  | _ => false

/-- A statement that may stand inside a block comment, if the statements in it may. -/
def Quiet (stmt : Stmt) : Prop :=
  stmt.isBlockComment = false ∧ ∀ text ∈ stmt.texts, Commentable text

def AllQuiet (stmts : List Stmt) : Prop :=
  ∀ stmt ∈ stmts, stmt.Quiet

instance (stmt : Stmt) : Decidable stmt.Quiet :=
  inferInstanceAs (Decidable (_ ∧ _))

instance (stmts : List Stmt) : Decidable (AllQuiet stmts) :=
  inferInstanceAs (Decidable (∀ stmt ∈ stmts, stmt.Quiet))

@[simp] theorem quiet_text (content : Concatenation) :
    Quiet (.sentinel (.text content)) ↔ ∀ text ∈ content.texts, Commentable text :=
  and_iff_right rfl

@[simp] theorem quiet_unescape (source : String) :
    Quiet (.sentinel (.unescape source)) ↔ Commentable source := by
  simp [Quiet, isBlockComment, texts]

@[simp] theorem quiet_element (tag : String) (attributes : Option Attributes)
    (children : List Stmt) :
    Quiet (.sentinel (.element tag attributes children)) ↔
      Commentable tag ∧ ∀ text ∈ Attributes.textsOfOption attributes, Commentable text := by
  simp [Quiet, isBlockComment, texts]

@[simp] theorem quiet_code (source : String) : Quiet (.code source) ↔ Commentable source := by
  simp [Quiet, isBlockComment, texts]

@[simp] theorem quiet_scope (body : List Stmt) : Quiet (.scope body) := by
  simp [Quiet, isBlockComment, texts]

@[simp] theorem quiet_branch (test : String) (consequent : List Stmt) (alternate : Else) :
    Quiet (.branch test consequent alternate) ↔
      Commentable test ∧ ∀ other ∈ alternate.tests, Commentable other := by
  simp [Quiet, isBlockComment, texts]

@[simp] theorem quiet_loop (test : String) (bodies : List (List Stmt)) :
    Quiet (.loop test bodies) ↔ Commentable test := by
  simp [Quiet, isBlockComment, texts]

@[simp] theorem quiet_each (helper object value key : String) (body : List Stmt)
    (alternate : Option (List Stmt)) :
    Quiet (.each helper object value key body alternate) ↔
      ∀ text ∈ [helper, object, value, key], Commentable text :=
  and_iff_right rfl

@[simp] theorem quiet_lineComment (text : String) :
    Quiet (.lineComment text) ↔ Commentable text := by
  simp [Quiet, isBlockComment, texts]

@[simp] theorem not_quiet_blockComment (text : String) (body : List Stmt) :
    ¬ Quiet (.blockComment text body) := by
  simp [Quiet, isBlockComment]

@[simp] theorem quiet_mixinBlock : Quiet .mixinBlock := by
  simp [Quiet, isBlockComment, texts]

@[simp] theorem allQuiet_nil : AllQuiet [] := List.forall_mem_nil _

@[simp] theorem allQuiet_cons (stmt : Stmt) (rest : List Stmt) :
    AllQuiet (stmt :: rest) ↔ stmt.Quiet ∧ AllQuiet rest :=
  List.forall_mem_cons

@[simp] theorem allQuiet_append (first second : List Stmt) :
    AllQuiet (first ++ second) ↔ AllQuiet first ∧ AllQuiet second :=
  List.forall_mem_append

theorem commentable_bodyName (index : Nat) (before after : String)
    (beforeQuiet : Commentable before) (afterQuiet : Commentable after)
    (noStar : before.toList.getLast? ≠ some '*') (noSlash : after.toList.head? ≠ some '/') :
    Commentable (before ++ bodyName index ++ after) := by
  rw [commentable_between_iff beforeQuiet afterQuiet noStar noSlash]
  intro occurs
  have star : '*' ∈ (bodyName index).toList := occurs.subset (by decide)
  simp only [bodyName, String.toList_append, String.toList_ofList, List.mem_append] at star
  rcases star with inName | inDigits
  · exact absurd inName (by decide)
  · have digit := Nat.isDigit_of_mem_toDigits (by decide) (by decide) inDigits
    exact absurd digit (by decide)

end Stmt

/-- Lines in none of which the end of a comment occurs. -/
def Line.AllCommentable (lines : List Line) : Prop :=
  ∀ line ∈ lines, Commentable line.text

namespace Line

@[simp] theorem allCommentable_nil : AllCommentable [] := List.forall_mem_nil _

@[simp] theorem allCommentable_cons (depth : Nat) (text : String) (rest : List Line) :
    AllCommentable (⟨depth, text⟩ :: rest) ↔ Commentable text ∧ AllCommentable rest :=
  List.forall_mem_cons

@[simp] theorem allCommentable_append (first second : List Line) :
    AllCommentable (first ++ second) ↔ AllCommentable first ∧ AllCommentable second :=
  List.forall_mem_append

end Line

namespace Stmt

open Line (AllCommentable)

/-- The lines that are the same in all programs. -/
theorem commentable_fixed :
    ∀ text ∈ ["\x7b", "\x7d", "(function () \x7b", "var __return = [];", "return __return;",
        "\x7d).call(this);", "\x7d;", "\x7d);", "\x7d, () => \x7b", "\x7d else \x7b",
        "block ? block() : null;"], Commentable text := by
  decide +kernel

theorem commentable_brace : Commentable "\x7b" := by decide

theorem commentable_endBrace : Commentable "\x7d" := by decide

theorem not_commentable_end : ¬ Commentable "*/" := by decide

theorem commentable_test_iff (test : String) :
    Commentable ("if (" ++ test ++ ") \x7b") ↔ Commentable test :=
  commentable_between_iff (by decide) (by decide) (by decide) (by decide)

theorem commentable_elseTest_iff (test : String) :
    Commentable ("\x7d else if (" ++ test ++ ") \x7b") ↔ Commentable test :=
  commentable_between_iff (by decide +kernel) (by decide) (by decide) (by decide)

theorem commentable_loopTest_iff (test : String) :
    Commentable ("while (" ++ test ++ ") \x7b") ↔ Commentable test :=
  commentable_between_iff (by decide +kernel) (by decide) (by decide) (by decide)

theorem commentable_iteration_iff (helper object value key : String) :
    Commentable (helper ++ "(" ++ object ++ ", (" ++ value ++ ", " ++ key ++ ") => \x7b") ↔
      ∀ text ∈ [helper, object, value, key], Commentable text := by
  have comma : Commentable ", " := by decide
  have opening : Commentable "(" := by decide
  have arguments : Commentable ", (" := by decide
  have closing : Commentable ") => \x7b" := by decide +kernel
  rw [commentable_append_iff (.inr (by simp)), and_iff_left closing,
    commentable_apart_iff comma (by simp) (by simp) (by simp),
    commentable_apart_iff arguments (by simp) (by simp) (by simp),
    commentable_apart_iff opening (by simp) (by simp) (by simp)]
  simp [and_assoc]

theorem allCommentable_bodyCalls (count depth : Nat) :
    AllCommentable ((List.range count).map fun index =>
      (⟨depth, "__return.push(" ++ bodyName index ++ ".call(this));"⟩ : Line)) := by
  intro line membership
  obtain ⟨index, -, rfl⟩ := List.mem_map.mp membership
  exact commentable_bodyName index _ _ (by decide +kernel) (by decide +kernel) (by simp) (by simp)

mutual

/-- The end of a comment occurs in no line of a statement exactly if the statement and those
in it are quiet. -/
theorem allCommentable_lines_iff (depth : Nat) (stmt : Stmt) :
    AllCommentable (lines depth stmt) ↔ AllQuiet stmt.statements := by
  cases stmt with
  | sentinel found => exact allCommentable_sentinelLines_iff depth found
  | code source => simp [lines, statements]
  | scope body =>
      have bodyIff := allCommentable_linesOf_iff (depth + 1) body
      simp [lines, statements, bodyIff, commentable_brace, commentable_endBrace]
  | branch test consequent alternate =>
      have consequentIff := allCommentable_linesOf_iff (depth + 1) consequent
      have alternateIff := allCommentable_elseLines_iff depth alternate
      simp only [lines, statements, Line.allCommentable_cons, Line.allCommentable_append,
        allQuiet_cons, allQuiet_append, commentable_test_iff, consequentIff, alternateIff,
        quiet_branch, and_and_and_comm]
  | loop test bodies =>
      have bodiesIff := allCommentable_closureLines_iff (depth + 1) 0 bodies
      have calls := allCommentable_bodyCalls bodies.length (depth + 2)
      have opening : Commentable "(function () \x7b" := commentable_fixed _ (by simp)
      have accumulator : Commentable "var __return = [];" := commentable_fixed _ (by simp)
      have result : Commentable "return __return;" := commentable_fixed _ (by simp)
      have closing : Commentable "\x7d).call(this);" := commentable_fixed _ (by simp)
      simp [lines, statements, bodiesIff, calls, opening, accumulator, result, closing,
        commentable_loopTest_iff, commentable_endBrace, and_comm]
  | each helper object value key body alternate =>
      have bodyIff := allCommentable_linesOf_iff (depth + 1) body
      have alternateIff := allCommentable_alternateLines_iff depth alternate
      simp only [lines, statements, Line.allCommentable_cons, Line.allCommentable_append,
        allQuiet_cons, allQuiet_append, commentable_iteration_iff, bodyIff, alternateIff,
        quiet_each, and_assoc]
  | lineComment text =>
      have slashes : Commentable "//" := by decide
      have behindSlashes : Commentable ("//" ++ text) ↔ Commentable text := by
        rw [commentable_append_iff (.inl (by decide)), and_iff_right slashes]
      simp [lines, statements, behindSlashes]
  | blockComment text body =>
      simp [lines, statements, not_commentable_end]
  | mixinBlock =>
      have block : Commentable "block ? block() : null;" := commentable_fixed _ (by simp)
      simp [lines, statements, block]

theorem allCommentable_sentinelLines_iff (depth : Nat) (found : Sentinel) :
    AllCommentable (sentinelLines depth found) ↔
      AllQuiet (.sentinel found :: found.statements) := by
  cases found with
  | text content =>
      have call : Commentable ("TEXT(" ++ content.render ++ ");") ↔ Commentable content.render :=
        commentable_between_iff (by decide) (by decide) (by decide) (by decide)
      simp only [sentinelLines, Sentinel.statements, Line.allCommentable_cons,
        Line.allCommentable_nil, allQuiet_cons, allQuiet_nil, call, quiet_text,
        Concatenation.commentable_render_iff]
  | unescape source =>
      have call : Commentable ("UNESCAPE(" ++ source ++ ");") ↔ Commentable source :=
        commentable_between_iff (by decide +kernel) (by decide) (by decide) (by decide)
      simp only [sentinelLines, Sentinel.statements, Line.allCommentable_cons,
        Line.allCommentable_nil, allQuiet_cons, allQuiet_nil, call, quiet_unescape]
  | element tag attributes children =>
      have childrenIff := allCommentable_linesOf_iff (depth + 1) children
      have comma : Commentable ", " := by decide
      have opening : Commentable "ELEMENT(" := by decide +kernel
      have closing : Commentable ");" := by decide
      have call : Commentable
          ("ELEMENT(" ++ Text.quote tag ++ ", " ++ renderAttributes attributes ++ ");") ↔
            Commentable tag ∧ ∀ text ∈ Attributes.textsOfOption attributes, Commentable text := by
        rw [commentable_append_iff (.inr (by simp)), and_iff_left closing,
          commentable_apart_iff comma (by simp) (by simp) (by simp),
          commentable_append_iff (.inl (by simp)), and_iff_right opening, commentable_quote_iff,
          commentable_renderAttributes_iff]
      simp [sentinelLines, Sentinel.statements, call, childrenIff, commentable_brace,
        commentable_endBrace]

theorem allCommentable_elseLines_iff (depth : Nat) (alternate : Else) :
    AllCommentable (elseLines depth alternate) ↔
      (∀ test ∈ alternate.tests, Commentable test) ∧ AllQuiet alternate.statements := by
  cases alternate with
  | none => simp [elseLines, Else.tests, Else.statements, commentable_endBrace]
  | branch test consequent alternate =>
      have consequentIff := allCommentable_linesOf_iff (depth + 1) consequent
      have alternateIff := allCommentable_elseLines_iff depth alternate
      simp only [elseLines, Else.tests, Else.statements, Line.allCommentable_cons,
        Line.allCommentable_append, allQuiet_append, commentable_elseTest_iff, consequentIff,
        alternateIff, List.forall_mem_cons, and_and_and_comm]
  | block body =>
      have bodyIff := allCommentable_linesOf_iff (depth + 1) body
      have opening : Commentable "\x7d else \x7b" := commentable_fixed _ (by simp)
      simp [elseLines, Else.tests, Else.statements, bodyIff, opening, commentable_endBrace]

theorem allCommentable_alternateLines_iff (depth : Nat) (alternate : Option (List Stmt)) :
    AllCommentable (alternateLines depth alternate) ↔ AllQuiet (statementsOfOption alternate) := by
  have closing : Commentable "\x7d);" := commentable_fixed _ (by simp)
  cases alternate with
  | none => simp [alternateLines, statementsOfOption, closing]
  | some body =>
      have bodyIff := allCommentable_linesOf_iff (depth + 1) body
      have opening : Commentable "\x7d, () => \x7b" := commentable_fixed _ (by simp)
      simp [alternateLines, statementsOfOption, bodyIff, opening, closing]

theorem allCommentable_closureLines_iff (depth index : Nat) (bodies : List (List Stmt)) :
    AllCommentable (closureLines depth index bodies) ↔ AllQuiet (statementsOfAll bodies) := by
  cases bodies with
  | nil => simp [closureLines, statementsOfAll]
  | cons body rest =>
      have bodyIff := allCommentable_linesOf_iff (depth + 1) body
      have restIff := allCommentable_closureLines_iff depth (index + 1) rest
      have opening : Commentable ("var " ++ bodyName index ++ " = function () \x7b") :=
        commentable_bodyName index _ _ (by decide) (by decide +kernel) (by simp) (by simp)
      have closing : Commentable "\x7d;" := commentable_fixed _ (by simp)
      simp [closureLines, statementsOfAll, bodyIff, restIff, opening, closing]

theorem allCommentable_linesOf_iff (depth : Nat) (stmts : List Stmt) :
    AllCommentable (linesOf depth stmts) ↔ AllQuiet (statementsOf stmts) := by
  cases stmts with
  | nil => simp [linesOf, statementsOf]
  | cons stmt rest =>
      simp only [linesOf, statementsOf, Line.allCommentable_append, allQuiet_append,
        allCommentable_lines_iff depth stmt, allCommentable_linesOf_iff depth rest]

end

end Stmt

/-! ## The text of a visible comment -/

/-- A comment whose text, and whose statements, do not end it early. -/
def Stmt.StaysComment : Stmt → Prop
  | .lineComment text => '\n' ∉ text.toList
  | .blockComment text body => Commentable text ∧ Stmt.AllQuiet (Stmt.statementsOf body)
  | _ => False

instance (stmt : Stmt) : Decidable stmt.StaysComment :=
  match stmt with
  | .lineComment _ => inferInstanceAs (Decidable (_ ∉ _))
  | .blockComment _ _ => inferInstanceAs (Decidable (_ ∧ _))
  | .sentinel _ | .code _ | .scope _ | .branch _ _ _ | .loop _ _ | .each _ _ _ _ _ _
  | .mixinBlock => inferInstanceAs (Decidable False)

/-- A comment that is printed. -/
def Node.isVisibleComment : Node → Bool
  | .comment _ visible _ | .blockComment _ visible _ _ => visible
  | _ => false

namespace Program

variable {indent : String}

theorem isComment_lineComment_iff (text : String) :
    Fragment.IsComment (render indent [.lineComment text]) ↔ '\n' ∉ text.toList := by
  have printed : render indent [.lineComment text] = "//" ++ text ++ "\n" := by
    simp [render, Stmt.linesOf, Stmt.lines, Line.render]
  rw [printed, Fragment.isComment_line_iff]

theorem isComment_blockComment_iff (blank : Text.Blank indent) (text : String)
    (body : List Stmt) :
    Fragment.IsComment (render indent [.blockComment text body]) ↔
      Commentable text ∧ Stmt.AllQuiet (Stmt.statementsOf body) := by
  let bodyText := String.join ((Stmt.linesOf 1 body).map (Line.render indent))
  have printed : render indent [.blockComment text body] =
      "/*" ++ (text ++ "\n" ++ bodyText) ++ "*/\n" := by
    simp [render, Stmt.linesOf, Stmt.lines, Line.render, bodyText, String.append_assoc]
  have lineEnd : (text ++ "\n").toList.getLast? ≠ some '*' := by simp
  rw [printed, Fragment.isComment_block_iff, commentable_append_iff (.inl lineEnd),
    commentable_append_iff (.inr (by decide)), and_iff_left Fragment.commentable_lineBreak,
    Line.commentable_join_iff blank]
  exact and_congr_right fun _ => Stmt.allCommentable_linesOf_iff 1 body

end Program

namespace Settings

/-- A visible comment gives one statement, and this is printed as one comment exactly if the
text of a line comment is one line, or if the end of a comment occurs in none of the texts
between the marks of a block comment and there is no other block comment between them. -/
theorem isComment_render_iff (settings : Settings) {indent : String} (blank : Text.Blank indent)
    {root : Node} (visible : root.isVisibleComment = true) {generated : Intermediate}
    (success : settings.generate root = .ok generated) :
    ∃ stmt, generated.program = [stmt] ∧
      (Fragment.IsComment (generated.program.render indent) ↔ stmt.StaysComment) := by
  obtain ⟨-, rfl⟩ := generate_eq_ok_iff.mp success
  cases root with
  | comment value isVisible location =>
      obtain rfl : isVisible = true := visible
      exact ⟨.lineComment value, rfl, Program.isComment_lineComment_iff value⟩
  | blockComment value isVisible content location =>
      obtain rfl : isVisible = true := visible
      exact ⟨.blockComment value (content.translate settings.indexName), rfl,
        Program.isComment_blockComment_iff blank value _⟩
  | block | tag | text | literal | code | conditional | loop | each | mixinBlock | rejected =>
      cases visible

/-- A block comment around an element, an iteration, a loop and a line comment.  Stars and
slashes stand next to each other where they are put together, but never as an end. -/
def starredComment : Node :=
  .blockComment " *" true ⟨[
    .tag ⟨"a", [⟨"class", .source "[x, '/*']", true⟩, ⟨"*-a/", .source "1", true⟩], [],
      some ⟨" y /* z ", true, true, none, {}⟩, ⟨[.text "/#\x7bx\x7d*" {}], {}⟩, {}⟩,
    .each ⟨"xs", "x", none, ⟨[.literal "*" {}], {}⟩, some ⟨[.literal "/" {}], {}⟩, {}⟩,
    .loop "x*" ⟨[.comment "/ note *" true {}], {}⟩ {}], {}⟩ {}

theorem isComment_render_iff_starred :
    Text.Blank "  " ∧ starredComment.isVisibleComment = true ∧
      ∃ generated, ({} : Settings).generate starredComment = .ok generated ∧
        Fragment.IsComment (generated.program.render "  ") := by
  have blank : Text.Blank "  " := List.all_eq_true.mp (by decide)
  have visible : starredComment.isVisibleComment = true := rfl
  have success : ({} : Settings).generate starredComment =
      .ok (({} : Settings).translate starredComment) := generate_eq_ok_iff.mpr ⟨by decide, rfl⟩
  refine ⟨blank, visible, _, success, ?_⟩
  obtain ⟨stmt, program, isCommentIff⟩ := isComment_render_iff {} blank visible success
  obtain rfl := List.head_eq_of_cons_eq program
  exact isCommentIff.mpr (by decide +kernel)

/-- A line end in the text of a line comment. -/
def brokenLine : Node := .comment " note\nf();" true {}

/-- A visible block comment in another one. -/
def nestedComment : Node :=
  .blockComment "" true ⟨[.blockComment "" true ⟨[], {}⟩ {}, .code ⟨"f()", false, false, none, {}⟩],
    {}⟩ {}

/-- Both comments end early, and a call that they should hide is live. -/
theorem isComment_render_iff_live :
    (({} : Settings).generate brokenLine).map Intermediate.render = .ok "// note\nf();\n" ∧
      (({} : Settings).generate nestedComment).map Intermediate.render =
        .ok "/*\n  /*\n  */\n  f()\n*/\n" ∧
      ¬ ∀ (root : Node) (generated : Intermediate), root.isVisibleComment = true →
        ({} : Settings).generate root = .ok generated → Fragment.IsComment generated.render := by
  have lineSuccess : ({} : Settings).generate brokenLine =
      .ok (({} : Settings).translate brokenLine) := generate_eq_ok_iff.mpr ⟨rfl, rfl⟩
  have blockSuccess : ({} : Settings).generate nestedComment =
      .ok (({} : Settings).translate nestedComment) := generate_eq_ok_iff.mpr ⟨rfl, rfl⟩
  refine ⟨by rw [lineSuccess]; decide +kernel, by rw [blockSuccess]; decide +kernel, ?_⟩
  intro inert
  have isComment := inert brokenLine _ rfl lineSuccess
  revert isComment
  decide +kernel

end Settings

end Template
