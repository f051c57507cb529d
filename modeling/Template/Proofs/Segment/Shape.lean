import Template.Proofs.Bracketing
import Template.Proofs.Concatenation
import Template.Proofs.Text.Trimming
import Template.Proofs.Translation

/-!
# The shape of the sentinels of a text

What holds of the sentinels of a text whatever the text is.  A buffer that is gathered stays
normal from segment to segment, it is put out only if there is something in it, and a raw
expression follows wherever it is put out before the end.  So no text stands beside another
one and none is empty, unless it is all there is.  The expressions in the sentinels are
the fragments of markers without the blanks around them (`Segment.marks_of_mem`).
-/

namespace Template

def Sentinel.isText : Sentinel → Bool
  | .text _ => true
  | .unescape _ | .element .. => false

namespace Segment

variable {buffer content : Concatenation} {sentinel : Sentinel} {source : String}

theorem mem_flush : sentinel ∈ flush buffer ↔ buffer.terms ≠ [] ∧ sentinel = .text buffer := by
  unfold flush Concatenation.isEmpty
  split
  next empty => simp_all
  next nonempty => simp_all

/-! ## Expressions come from markers -/

/-- A source is what a marker among the segments holds, without the blanks around it. -/
def Marks (segments : List Segment) (source : String) : Prop :=
  ∃ sigil raw, .marked sigil raw ∈ segments ∧ Text.strip raw ≠ [] ∧
    source = String.ofList (Text.strip raw)

theorem Marks.cons {rest : List Segment} (marks : Marks rest source) (segment : Segment) :
    Marks (segment :: rest) source := by
  obtain ⟨sigil, raw, membership, found⟩ := marks
  exact ⟨sigil, raw, .tail _ membership, found⟩

/-- An expression that is put out has been gathered before or is that of a marker. -/
theorem mem_fragments_gather (segments : List Segment) (put : sentinel ∈ gather buffer segments)
    (occurs : source ∈ (Stmt.sentinel sentinel).fragments) :
    source ∈ buffer.fragments ∨ Marks segments source := by
  fun_induction gather buffer segments with
  | case1 buffer =>
      obtain ⟨-, rfl⟩ := mem_flush.mp put
      exact .inl occurs
  | case2 buffer text rest inductionHypothesis
  | case3 buffer sigil rest inductionHypothesis
  | case4 buffer text rest inductionHypothesis =>
      rw [Concatenation.fragments_appendText] at inductionHypothesis
      exact (inductionHypothesis put).imp_right fun marks => marks.cons _
  | case5 buffer sigil raw rest stripped blank inductionHypothesis =>
      exact (inductionHypothesis put).imp_right fun marks => marks.cons _
  | case6 buffer raw rest stripped visible inductionHypothesis =>
      rw [List.isEmpty_iff] at visible
      rw [Concatenation.fragments_appendExpr, List.mem_append,
        List.mem_singleton] at inductionHypothesis
      rcases inductionHypothesis put with (before | rfl) | marks
      · exact .inl before
      · exact .inr ⟨.escaped, raw, List.mem_cons_self, visible, rfl⟩
      · exact .inr (marks.cons _)
  | case7 buffer raw rest stripped visible inductionHypothesis =>
      rw [List.isEmpty_iff] at visible
      rw [List.mem_append, List.mem_cons] at put
      rcases put with flushed | rfl | later
      · obtain ⟨-, rfl⟩ := mem_flush.mp flushed
        exact .inl occurs
      · rw [List.mem_singleton.mp occurs]
        exact .inr ⟨.raw, raw, List.mem_cons_self, visible, rfl⟩
      · rcases inductionHypothesis later with gathered | marks
        · cases gathered
        · exact .inr (marks.cons _)

theorem marks_of_mem {text : String} (put : sentinel ∈ sentinelsOfText text)
    (occurs : source ∈ (Stmt.sentinel sentinel).fragments) :
    Marks (ofText text.toList) source := by
  unfold sentinelsOfText sentinels at put
  split at put
  next =>
    rw [List.mem_singleton.mp put] at occurs
    cases occurs
  next =>
    rcases mem_fragments_gather (ofText text.toList) put occurs with gathered | marks
    · cases gathered
    · exact marks

/-! ## Texts that are put out -/

/-- A text that is put out is normal and says something, if the buffer is normal. -/
theorem normal_of_mem_gather (normal : buffer.Normal) (segments : List Segment)
    (put : .text content ∈ gather buffer segments) : content.Normal ∧ content.terms ≠ [] := by
  fun_induction gather buffer segments with
  | case1 buffer =>
      obtain ⟨nonempty, same⟩ := mem_flush.mp put
      cases same
      exact ⟨normal, nonempty⟩
  | case2 buffer text rest inductionHypothesis
  | case3 buffer sigil rest inductionHypothesis
  | case4 buffer text rest inductionHypothesis => exact inductionHypothesis (normal.appendText _) put
  | case5 buffer sigil raw rest stripped blank inductionHypothesis =>
      exact inductionHypothesis normal put
  | case6 buffer raw rest stripped visible inductionHypothesis =>
      exact inductionHypothesis (normal.appendExpr _) put
  | case7 buffer raw rest stripped visible inductionHypothesis =>
      rw [List.mem_append, List.mem_cons] at put
      rcases put with flushed | raw | later
      · obtain ⟨nonempty, same⟩ := mem_flush.mp flushed
        cases same
        exact ⟨normal, nonempty⟩
      · cases raw
      · exact inductionHypothesis Concatenation.normal_start later

/-- No two texts are put out side by side. -/
theorem isChain_gather (buffer : Concatenation) (segments : List Segment) :
    (gather buffer segments).IsChain fun first second =>
      ¬ (first.isText = true ∧ second.isText = true) := by
  have alone (buffer : Concatenation) : (flush buffer).IsChain fun first second =>
      ¬ (first.isText = true ∧ second.isText = true) := by
    unfold flush
    split
    · exact List.IsChain.nil
    · exact List.isChain_singleton _
  fun_induction gather buffer segments with
  | case1 buffer => exact alone buffer
  | case2 | case3 | case4 | case5 | case6 => assumption
  | case7 buffer raw rest stripped visible inductionHypothesis =>
      refine List.isChain_append.mpr ⟨alone buffer, ?_, ?_⟩
      · refine List.isChain_cons.mpr ⟨?_, inductionHypothesis⟩
        simp [Sentinel.isText]
      · simp [Sentinel.isText]

/-! ## The sentinels of a text -/

/-- The shape of the sentinels of any text. -/
theorem sentinelsOfText_shape (text : String) :
    sentinelsOfText text ≠ [] ∧
    (∀ sentinel ∈ sentinelsOfText text, sentinel.isElement = false) ∧
    (∀ content, .text content ∈ sentinelsOfText text → content.Normal) ∧
    (∀ sentinel ∈ sentinelsOfText text, ∀ source ∈ (Stmt.sentinel sentinel).fragments,
      Text.IsTrimmed source) ∧
    ((sentinelsOfText text).IsChain fun first second =>
      ¬ (first.isText = true ∧ second.isText = true)) ∧
    ∀ content, .text content ∈ sentinelsOfText text → content.terms = [] →
      sentinelsOfText text = [.text content] := by
  have trimmed : ∀ sentinel ∈ sentinelsOfText text,
      ∀ source ∈ (Stmt.sentinel sentinel).fragments, Text.IsTrimmed source := by
    intro sentinel put source occurs
    obtain ⟨sigil, raw, -, visible, rfl⟩ := marks_of_mem put occurs
    exact Text.isTrimmed_strip visible
  refine ⟨?_, isElement_sentinelsOfText text, ?_, trimmed, ?_, ?_⟩
  all_goals unfold sentinelsOfText sentinels
  · split
    next => exact List.cons_ne_nil _ _
    next nonempty => exact nonempty
  · intro content put
    split at put
    next =>
      cases List.mem_singleton.mp put
      exact Concatenation.normal_start
    next => exact (normal_of_mem_gather Concatenation.normal_start _ put).1
  · split
    next => exact List.isChain_singleton _
    next => exact isChain_gather _ _
  · intro content put empty
    split at put
    next none =>
      cases List.mem_singleton.mp put
      rfl
    next => exact absurd empty (normal_of_mem_gather Concatenation.normal_start _ put).2

end Segment

end Template
