import Mathlib.Data.List.Chain
import Template.Layout
import Template.Proofs.Fragment.Leading

/-!
# Lines inside a comment

A comment around statements hides their lines as long as the end of a comment occurs
in none of them.  Indentation of white space neither adds such an end nor takes one
away, so that it is the same to look at the lines alone or at a printed program, at
any depth.
-/

namespace Template

/-- A text of white space only. -/
def Text.Blank (text : String) : Prop :=
  ∀ char ∈ text.toList, isBlank char = true

namespace Fragment

/-- The end of a comment does not occur in the text. -/
def Commentable (text : String) : Prop :=
  ¬ "*/".toList <:+: text.toList

instance (text : String) : Decidable (Commentable text) :=
  inferInstanceAs (Decidable (¬ _ <:+: _))

theorem commentable_iff_isChain {text : String} :
    Commentable text ↔
      text.toList.IsChain fun first second => ¬ (first = '*' ∧ second = '/') := by
  rw [List.isChain_iff_forall_rel_of_append_cons_cons]
  constructor
  · rintro commentable first second front back split ⟨rfl, rfl⟩
    exact commentable ⟨front, back, by simp [split]⟩
  · rintro separated ⟨front, back, split⟩
    have occurrence : text.toList = front ++ '*' :: '/' :: back := by simp [← split]
    exact separated occurrence ⟨rfl, rfl⟩

/-- The end of a comment does not arise between two texts, if the first does not end in
its star or the second does not begin with its slash. -/
theorem commentable_append_iff {first second : String}
    (apart : first.toList.getLast? ≠ some '*' ∨ second.toList.head? ≠ some '/') :
    Commentable (first ++ second) ↔ Commentable first ∧ Commentable second := by
  rw [commentable_iff_isChain, commentable_iff_isChain, commentable_iff_isChain,
    String.toList_append, List.isChain_append]
  constructor
  · rintro ⟨firstChain, secondChain, -⟩
    exact ⟨firstChain, secondChain⟩
  · rintro ⟨firstChain, secondChain⟩
    refine ⟨firstChain, secondChain, ?_⟩
    rintro last lastEq following followingEq ⟨rfl, rfl⟩
    rcases apart with noStar | noSlash
    · exact noStar lastEq
    · exact noSlash followingEq

theorem commentable_of_blank {text : String} (blank : Text.Blank text) : Commentable text := by
  intro occurs
  have star : '*' ∈ text.toList := occurs.subset (by decide)
  have starBlank : Text.isBlank '*' = true := blank '*' star
  exact absurd starBlank (by decide)

theorem commentable_lineBreak : Commentable "\n" := by decide

end Fragment

open Fragment (Commentable commentable_append_iff commentable_of_blank)

/-! ## Lines -/

namespace Line

variable {indent : String} (blank : Text.Blank indent)

include blank

theorem blank_indentation (depth : Nat) :
    Text.Blank (String.join (List.replicate depth indent)) := by
  intro char membership
  rw [String.toList_join] at membership
  obtain ⟨unit, unitMembership, charMembership⟩ := List.mem_flatMap.mp membership
  rw [List.eq_of_mem_replicate unitMembership] at charMembership
  exact blank char charMembership

theorem commentable_render_iff (line : Line) :
    Commentable (line.render indent) ↔ Commentable line.text := by
  have indentationBlank := blank_indentation blank line.depth
  have noStar : (String.join (List.replicate line.depth indent)).toList.getLast? ≠ some '*' := by
    intro star
    have starBlank : Text.isBlank '*' = true :=
      indentationBlank '*' (List.mem_of_getLast? star)
    exact absurd starBlank (by decide)
  unfold Line.render
  rw [commentable_append_iff (Or.inr (by decide)), commentable_append_iff (Or.inl noStar)]
  exact ⟨fun ⟨⟨_, text⟩, _⟩ => text,
    fun text => ⟨⟨commentable_of_blank indentationBlank, text⟩, Fragment.commentable_lineBreak⟩⟩

theorem commentable_join_iff (lines : List Line) :
    Commentable (String.join (lines.map (render indent))) ↔
      ∀ line ∈ lines, Commentable line.text := by
  induction lines with
  | nil =>
      simp only [List.map_nil, String.join_nil, List.not_mem_nil, false_implies, implies_true,
        iff_true]
      decide
  | cons line rest inductionHypothesis =>
      have lastBreak : (line.render indent).toList.getLast? = some '\n' := by
        simp [Line.render]
      have noStar : (line.render indent).toList.getLast? ≠ some '*' := by
        rw [lastBreak]
        decide
      rw [List.map_cons, String.join_cons, commentable_append_iff (Or.inl noStar),
        commentable_render_iff blank line, inductionHypothesis, List.forall_mem_cons]

end Line

/-! ## The depth of lines -/

namespace Stmt

mutual

/-- The depth of statements moves their lines and leaves the texts of the lines as they
are. -/
theorem texts_lines (depth other : Nat) (stmt : Stmt) :
    (lines depth stmt).map Line.text = (lines other stmt).map Line.text := by
  cases stmt with
  | sentinel found => exact texts_sentinelLines depth other found
  | code | lineComment | mixinBlock => rfl
  | scope body | blockComment text body =>
      simp only [lines, List.map_cons, List.map_append, List.cons_append, List.map_nil,
        texts_linesOf (depth + 1) (other + 1) body]
  | branch test consequent alternate =>
      simp only [lines, List.map_cons, List.map_append, List.cons_append,
        texts_linesOf (depth + 1) (other + 1) consequent, texts_elseLines depth other alternate]
  | loop test bodies =>
      simp only [lines, List.map_cons, List.map_append, List.cons_append, List.map_nil,
        List.map_map, Function.comp_def, texts_closureLines (depth + 1) (other + 1) 0 bodies]
  | each helper object value key body alternate =>
      simp only [lines, List.map_cons, List.map_append, List.cons_append,
        texts_linesOf (depth + 1) (other + 1) body, texts_alternateLines depth other alternate]

theorem texts_sentinelLines (depth other : Nat) (found : Sentinel) :
    (sentinelLines depth found).map Line.text = (sentinelLines other found).map Line.text := by
  cases found with
  | text | unescape => rfl
  | element tag attributes children =>
      simp only [sentinelLines, List.map_cons, List.map_append, List.cons_append, List.map_nil,
        texts_linesOf (depth + 1) (other + 1) children]

theorem texts_elseLines (depth other : Nat) (alternate : Else) :
    (elseLines depth alternate).map Line.text = (elseLines other alternate).map Line.text := by
  cases alternate with
  | none => rfl
  | branch test consequent alternate =>
      simp only [elseLines, List.map_cons, List.map_append, List.cons_append,
        texts_linesOf (depth + 1) (other + 1) consequent, texts_elseLines depth other alternate]
  | block body =>
      simp only [elseLines, List.map_cons, List.map_append, List.cons_append, List.map_nil,
        texts_linesOf (depth + 1) (other + 1) body]

theorem texts_alternateLines (depth other : Nat) (alternate : Option (List Stmt)) :
    (alternateLines depth alternate).map Line.text =
      (alternateLines other alternate).map Line.text := by
  cases alternate with
  | none => rfl
  | some body =>
      simp only [alternateLines, List.map_cons, List.map_append, List.cons_append, List.map_nil,
        texts_linesOf (depth + 1) (other + 1) body]

theorem texts_closureLines (depth other index : Nat) (bodies : List (List Stmt)) :
    (closureLines depth index bodies).map Line.text =
      (closureLines other index bodies).map Line.text := by
  cases bodies with
  | nil => rfl
  | cons body rest =>
      simp only [closureLines, List.map_cons, List.map_append, List.cons_append,
        texts_linesOf (depth + 1) (other + 1) body,
        texts_closureLines depth other (index + 1) rest]

theorem texts_linesOf (depth other : Nat) (stmts : List Stmt) :
    (linesOf depth stmts).map Line.text = (linesOf other stmts).map Line.text := by
  cases stmts with
  | nil => rfl
  | cons stmt rest =>
      simp only [linesOf, List.map_append, texts_lines depth other stmt,
        texts_linesOf depth other rest]

end

/-- Whether printed statements can stand inside a comment does not depend on their
depth. -/
theorem commentable_linesOf_iff {indent : String}
    (blank : Text.Blank indent) (depth : Nat)
    (stmts : List Stmt) :
    Commentable (String.join ((linesOf depth stmts).map (Line.render indent))) ↔
      Commentable (Program.render indent stmts) := by
  have byTexts (depth : Nat) :
      Commentable (String.join ((linesOf depth stmts).map (Line.render indent))) ↔
        ∀ text ∈ (linesOf depth stmts).map Line.text, Commentable text := by
    rw [Line.commentable_join_iff blank, List.forall_mem_map]
  rw [Program.render, byTexts depth, byTexts 0, texts_linesOf depth 0]

end Stmt

end Template
