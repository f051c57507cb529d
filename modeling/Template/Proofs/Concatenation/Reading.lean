import Template.Proofs.Concatenation
import Template.Proofs.Fragment.Splitting
import Template.Proofs.Literal.Quoting

/-!
# Reading concatenations back

The source of a concatenation tells its terms, if the concatenation has grown from nothing.
Cut at the plus signs outside all brackets, strings and comments it falls apart into the
sources of the terms, with an empty string in front of them where the first one is an
expression (`Concatenation.sources`).  A literal is a quoted text, and an expression stands in
parentheses, so plus signs, quotes and brackets in them do not count.
-/

namespace Template

open Fragment (Closed Undivided)

/-! ## Reading terms -/

namespace Term

/-- The term with a source: a string is a literal, and anything else is an expression in
parentheses. -/
def read? (source : String) : Option Term :=
  if source.toList.head? == some Text.doubleQuote then
    match Literal.read? source with
    | some (.text text) => some (.literal text)
    | _ => none
  else (Fragment.unwrap? '(' ')' source).map .expr

theorem toList_render_expr (source : String) :
    (render (.expr source)).toList = '(' :: (source.toList ++ [')']) := by
  simp [render]

theorem toList_render_literal (text : String) :
    (render (.literal text)).toList = Text.quoteChars text.toList := by
  simp [render, Text.quote]

theorem read?_render (term : Term) : read? term.render = some term := by
  cases term with
  | literal text =>
      have quoted : (render (.literal text)).toList.head? = some Text.doubleQuote := by
        rw [toList_render_literal]
        rfl
      have value : Literal.read? (render (.literal text)) = some (.text text) := by
        rw [render, Text.quote, Literal.read?_quoteChars, String.ofList_toList]
      simp [read?, quoted, value]
  | expr source =>
      have inside : Fragment.unwrap? '(' ')' (render (.expr source)) = some source :=
        Fragment.unwrap?_wrapped '(' ')' source
      have opens : (render (.expr source)).toList.head? = some '(' := by
        rw [toList_render_expr]
        rfl
      simp [read?, opens, inside, Text.doubleQuote]

theorem mapM_read?_render (terms : List Term) :
    (terms.map render).mapM read? = some terms := by
  induction terms with
  | nil => rfl
  | cons term rest inductionHypothesis =>
      rw [List.map_cons, List.mapM_cons, read?_render, inductionHypothesis]
      rfl

theorem undivided_render {term : Term} (closed : ∀ source ∈ term.fragments, Closed source) :
    Undivided '+' term.render.toList := by
  cases term with
  | literal text =>
      rw [toList_render_literal]
      exact Undivided.quoteChars text.toList
  | expr source =>
      rw [toList_render_expr]
      have balanced := Fragment.closed_iff_balanced.mp (closed source List.mem_cons_self)
      exact Undivided.group rfl (by decide) balanced

theorem strip_render (term : Term) : Text.strip term.render.toList = term.render.toList := by
  cases term with
  | literal text =>
      rw [toList_render_literal]
      exact Literal.strip_quoteChars text.toList
  | expr source =>
      rw [toList_render_expr]
      exact Text.strip_between rfl rfl source.toList

end Term

/-! ## Cutting at plus signs -/

namespace Fragment

/-- Sources without blanks around them that are added up come apart again. -/
theorem topLevelParts?_sum {sources : List String} (nonempty : sources ≠ [])
    (undivided : ∀ source ∈ sources, Undivided '+' source.toList)
    (stripped : ∀ source ∈ sources, Text.strip source.toList = source.toList) :
    (topLevelParts? '+' (" + ".intercalate sources)).map (·.map Text.trim) = some sources := by
  obtain ⟨first, rest, rfl⟩ := List.exists_cons_of_ne_nil nonempty
  have undividedTexts : ∀ text ∈ first.toList :: rest.map String.toList, Undivided '+' text := by
    simpa using undivided
  have blank : ∀ char ∈ [' '], Text.isBlank char = true := List.all_eq_true.mp (by decide)
  have apart : partsFrom '+' {} (" + ".intercalate (first :: rest)).toList =
      some (padded [' '] [' '] first.toList (rest.map String.toList)) := by
    rw [String.toList_intercalate]
    exact partsFrom_intercalate [' '] [' '] (by decide) (by decide)
      (List.forall_mem_append.mpr ⟨blank, blank⟩) (by decide) undividedTexts
  have restored : (first :: rest).map (String.ofList ∘ Text.strip ∘ String.toList) =
      first :: rest := by
    refine (List.map_congr_left ?_).trans (List.map_id _)
    intro source membership
    simp [stripped source membership]
  have trim_ofList : Text.trim ∘ String.ofList = String.ofList ∘ Text.strip := by
    funext text
    simp [Text.trim]
  calc (topLevelParts? '+' (" + ".intercalate (first :: rest))).map (·.map Text.trim)
    _ = some ((padded [' '] [' '] first.toList (rest.map String.toList)).map
          (String.ofList ∘ Text.strip)) := by
        rw [topLevelParts?, apart, Option.map_some, Option.map_some, List.map_map, trim_ofList]
    _ = some (((first :: rest).map String.toList).map (String.ofList ∘ Text.strip)) := by
        rw [← List.map_map, map_strip_padded blank blank, List.map_map]
        rfl
    _ = some (first :: rest) := by
        rw [List.map_map, Function.comp_assoc, restored]

end Fragment

namespace Concatenation

/-! ## The terms of a source -/

/-- The sources without an empty string in front. -/
def withoutEmptyString : List String → List String
  | [] => []
  | first :: rest => if first == Text.quote "" then rest else first :: rest

/-- The terms of the concatenation with a source. -/
def termsOf? (source : String) : Option (List Term) :=
  match Fragment.topLevelParts? '+' source with
  | none => none
  | some parts => (withoutEmptyString (parts.map Text.trim)).mapM Term.read?

/-- The sources that are printed with plus signs between them. -/
def sources (concatenation : Concatenation) : List String :=
  match concatenation.terms with
  | .literal text :: rest => (.literal text :: rest).map Term.render
  | terms => Text.quote "" :: terms.map Term.render

variable {concatenation : Concatenation}

theorem render_eq_intercalate (coerced : concatenation.coerced = true) :
    concatenation.render = " + ".intercalate concatenation.sources := by
  obtain ⟨terms, coercedTerms⟩ := concatenation
  cases coerced
  cases terms with
  | nil => rfl
  | cons first rest =>
      cases first with
      | literal text =>
          cases rest with
          | nil => rfl
          | cons second rest => rfl
      | expr source =>
          cases rest with
          | nil => rfl
          | cons second rest => rfl

theorem mem_sources {source : String} (membership : source ∈ concatenation.sources) :
    ∃ term, (term = .literal "" ∨ term ∈ concatenation.terms) ∧ term.render = source := by
  unfold sources at membership
  split at membership
  next text rest termsEq =>
    obtain ⟨term, occurs, rendered⟩ := List.mem_map.mp membership
    exact ⟨term, .inr (termsEq ▸ occurs), rendered⟩
  next =>
    rcases List.mem_cons.mp membership with rfl | rendered
    · exact ⟨.literal "", .inl rfl, rfl⟩
    · obtain ⟨term, occurs, rendered⟩ := List.mem_map.mp rendered
      exact ⟨term, .inr occurs, rendered⟩

theorem withoutEmptyString_sources (noEmptyLiteral : .literal "" ∉ concatenation.terms) :
    withoutEmptyString concatenation.sources = concatenation.terms.map Term.render := by
  unfold sources
  split
  next text rest termsEq =>
    have nonempty : text ≠ "" := by
      rintro rfl
      exact noEmptyLiteral (termsEq ▸ List.mem_cons_self)
    have quoted : (Text.quote text == Text.quote "") = false := by
      simpa using Text.quote_injective.ne nonempty
    rw [termsEq, List.map_cons, withoutEmptyString, Term.render, quoted]
    rfl
  next => simp [withoutEmptyString]

theorem termsOf?_render (normal : concatenation.Normal)
    (closed : ∀ source ∈ concatenation.fragments, Closed source) :
    termsOf? concatenation.render = some concatenation.terms := by
  have nonempty : concatenation.sources ≠ [] := by
    unfold sources
    split <;> simp
  have undivided : ∀ source ∈ concatenation.sources, Undivided '+' source.toList := by
    intro source membership
    obtain ⟨term, empty | occurs, rfl⟩ := mem_sources membership
    · rw [empty]
      exact Term.undivided_render (by simp [Term.fragments])
    · refine Term.undivided_render fun fragment inTerm => closed fragment ?_
      exact List.mem_flatMap.mpr ⟨term, occurs, inTerm⟩
  have stripped : ∀ source ∈ concatenation.sources,
      Text.strip source.toList = source.toList := by
    intro source membership
    obtain ⟨term, -, rfl⟩ := mem_sources membership
    exact term.strip_render
  obtain ⟨parts, cut, trimmed⟩ :=
    Option.map_eq_some_iff.mp (Fragment.topLevelParts?_sum nonempty undivided stripped)
  rw [termsOf?, render_eq_intercalate normal.coerced, cut]
  dsimp only
  rw [trimmed, withoutEmptyString_sources normal.noEmptyLiteral, Term.mapM_read?_render]

theorem Normal.eq_of_terms {other : Concatenation} (normal : concatenation.Normal)
    (otherNormal : other.Normal) (same : concatenation.terms = other.terms) :
    concatenation = other := by
  have coercedEq : concatenation.coerced = other.coerced :=
    normal.coerced.trans otherNormal.coerced.symm
  cases concatenation
  cases other
  cases same
  cases coercedEq
  rfl

/-! ## Growing term by term -/

/-- Append a term. A literal may be empty, and it may follow a literal. -/
def append (concatenation : Concatenation) : Term → Concatenation
  | .literal text => concatenation.appendText text
  | .expr source => concatenation.appendExpr source

/-- The concatenation that grows from nothing by the given steps. -/
def grown (steps : List Term) : Concatenation :=
  steps.foldl append start

theorem Normal.append (normal : concatenation.Normal) (step : Term) :
    (concatenation.append step).Normal := by
  cases step with
  | literal text => exact normal.appendText text
  | expr source => exact normal.appendExpr source

theorem Normal.foldl_append (normal : concatenation.Normal) (steps : List Term) :
    (steps.foldl Concatenation.append concatenation).Normal := by
  induction steps generalizing concatenation with
  | nil => exact normal
  | cons step rest inductionHypothesis => exact inductionHypothesis (normal.append step)

theorem fragments_append (concatenation : Concatenation) (step : Term) :
    (concatenation.append step).fragments = concatenation.fragments ++ step.fragments := by
  cases step with
  | literal text => simp [append, Term.fragments]
  | expr source => simp [append, Term.fragments]

theorem fragments_foldl_append (concatenation : Concatenation) (steps : List Term) :
    (steps.foldl append concatenation).fragments =
      concatenation.fragments ++ steps.flatMap Term.fragments := by
  induction steps generalizing concatenation with
  | nil => simp
  | cons step rest inductionHypothesis =>
      rw [List.foldl_cons, inductionHypothesis, fragments_append, List.append_assoc,
        List.flatMap_cons]

theorem closed_grown {steps : List Term} (closed : ∀ source, .expr source ∈ steps → Closed source) :
    ∀ source ∈ (grown steps).fragments, Closed source := by
  intro source membership
  rw [grown, fragments_foldl_append, fragments_start, List.nil_append,
    List.mem_flatMap] at membership
  obtain ⟨step, stepMembership, occurs⟩ := membership
  cases step with
  | literal text => cases occurs
  | expr stepSource =>
      obtain rfl := List.mem_singleton.mp occurs
      exact closed source stepMembership

theorem normal_grown (steps : List Term) : (grown steps).Normal :=
  normal_start.foldl_append steps

/-- The source of a concatenation that has grown from nothing tells its terms. -/
theorem termsOf?_render_grown (steps : List Term)
    (closed : ∀ source, .expr source ∈ steps → Closed source) :
    termsOf? (grown steps).render = some (grown steps).terms ∧
      ∀ others, (∀ source, .expr source ∈ others → Closed source) →
        (grown others).render = (grown steps).render → grown others = grown steps := by
  have reads := termsOf?_render (normal_grown steps) (closed_grown closed)
  refine ⟨reads, ?_⟩
  intro others othersClosed sameSource
  have othersRead := termsOf?_render (normal_grown others) (closed_grown othersClosed)
  rw [sameSource, reads] at othersRead
  have sameTerms : (grown others).terms = (grown steps).terms := (Option.some.inj othersRead).symm
  exact (normal_grown others).eq_of_terms (normal_grown steps) sameTerms

/-- Plus signs, quotes, brackets and comments in literals and in expressions. -/
def hiddenPluses : List Term :=
  [.expr " a + b ", .literal "\" + (", .literal "", .literal "//", .expr "f(')') /* + */",
    .expr "`$\x7b1 + 2\x7d+`", .literal " + "]

/-- The same concatenation in other steps. -/
def mergedPluses : List Term :=
  [.expr " a + b ", .literal "\" + (//", .expr "f(')') /* + */", .expr "`$\x7b1 + 2\x7d+`",
    .literal " ", .literal "+ "]

theorem termsOf?_render_grown_hiddenPluses :
    (∀ source, .expr source ∈ hiddenPluses → Closed source) ∧
      termsOf? (grown hiddenPluses).render =
        some [.expr " a + b ", .literal "\" + (//", .expr "f(')') /* + */",
          .expr "`$\x7b1 + 2\x7d+`", .literal " + "] ∧
      (grown mergedPluses).render = (grown hiddenPluses).render ∧
      grown mergedPluses = grown hiddenPluses := by
  have closed_of_all {steps : List Term}
      (every : ∀ step ∈ steps, ∀ source ∈ step.fragments, Closed source) (source : String)
      (occurs : .expr source ∈ steps) : Closed source :=
    every (.expr source) occurs source List.mem_cons_self
  have closed : ∀ source, .expr source ∈ hiddenPluses → Closed source :=
    closed_of_all (by decide +kernel)
  have mergedClosed : ∀ source, .expr source ∈ mergedPluses → Closed source :=
    closed_of_all (by decide +kernel)
  have same : (grown mergedPluses).render = (grown hiddenPluses).render := by decide +kernel
  obtain ⟨reads, determined⟩ := termsOf?_render_grown hiddenPluses closed
  exact ⟨closed, reads, same, determined mergedPluses mergedClosed same⟩

end Concatenation

end Template
