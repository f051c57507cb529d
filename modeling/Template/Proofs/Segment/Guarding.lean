import Mathlib.Data.List.SplitBy
import Template.Proofs.Concatenation
import Template.Proofs.Segment.Cutting

/-!
# Writing texts with markers

The way back from sentinels to a text: a literal is written with a backslash in front of
every marker in it, an expression in the braces of a marker.  Whatever the literals say, the
sentinels of the written text are the literals and expressions again, gathered in texts as
far as no raw expression comes between them.  The one thing that cannot be written is a
literal that ends with a backslash in front of an expression.
-/

namespace Template

open Fragment (Balanced matchingClose?)
open Text (backslash byteSize)

namespace Sigil

/-- Behind the first character only an opening brace matters. -/
theorem ofText?_congr {char : Char} {first second : List Char}
    (same : first.head? = some '{' ↔ second.head? = some '{') :
    ofText? (char :: first) = ofText? (char :: second) := by
  have byHead (rest : List Char) :
      ofText? (char :: rest) = if rest.head? = some '{' then ofChar? char else none := by
    unfold ofText?
    split
    next same =>
      cases same
      rfl
    next other =>
      cases rest with
      | nil => rfl
      | cons second rest =>
          rw [if_neg]
          intro brace
          exact other char rest (by simpa using brace)
  rw [byHead, byHead]
  simp only [same]

theorem ofText?_brace (rest : List Char) : ofText? ('{' :: rest) = none := by
  unfold ofText?
  split
  next same =>
    cases same
    rfl
  next => rfl

end Sigil

namespace Segment

/-! ## Guarded markers -/

/-- Put a backslash in front of every marker. -/
def guardMarkers : List Char → List Char
  | [] => []
  | char :: rest =>
      if (Sigil.ofText? (char :: rest)).isSome then backslash :: char :: guardMarkers rest
      else char :: guardMarkers rest

theorem gather_consChar (buffer : Concatenation) (char : Char) (segments : List Segment) :
    gather buffer (consChar char segments) =
      gather (buffer.appendText (String.ofList [char])) segments := by
  cases segments with
  | nil => rfl
  | cons first others =>
      cases first with
      | chunk text =>
          rw [consChar, gather, gather, Concatenation.appendText_appendText,
            ← String.ofList_append, List.singleton_append]
      | guarded | marked | unclosed => rfl

/-- Behind its backslash a guarded marker is read like other characters. -/
theorem gather_ofText_guarded (buffer : Concatenation) (sigil : Sigil) (rest : List Char) :
    gather buffer (ofText (backslash :: sigil.char :: '{' :: rest)) =
      gather (buffer.appendText (String.ofList [sigil.char])) (ofText ('{' :: rest)) := by
  rw [ofText_guarded, ofText_plain (Sigil.ofText?_brace rest) (by simp [backslash]),
    gather_consChar, Concatenation.appendText_appendText, ← String.ofList_append, gather]
  rfl

variable {text rest : List Char}

theorem head?_guardMarkers (noBrace : rest.head? ≠ some '{') :
    (guardMarkers text ++ rest).head? = some '{' ↔ text.head? = some '{' := by
  cases text with
  | nil => simpa [guardMarkers] using noBrace
  | cons char text =>
      rw [guardMarkers]
      split
      next marker =>
        obtain ⟨sigil, found⟩ := Option.isSome_iff_exists.mp marker
        obtain ⟨others, split⟩ := Sigil.eq_of_ofText? found
        cases split
        cases sigil <;> simp [Sigil.char, backslash]
      next => simp

theorem ofText?_guardMarkers (nonempty : text ≠ []) (noBrace : rest.head? ≠ some '{') :
    Sigil.ofText? (guardMarkers text ++ rest) = none := by
  cases text with
  | nil => exact absurd rfl nonempty
  | cons char text =>
      rw [guardMarkers]
      split
      next => exact Sigil.ofText?_backslash _
      next noMarker =>
        rw [List.cons_append, Sigil.ofText?_congr (head?_guardMarkers noBrace)]
        simpa using noMarker

/-- A text whose markers are guarded is read as it is. -/
theorem gather_ofText_guardMarkers (noBrace : rest.head? ≠ some '{')
    (noGuard : text.getLast? = some backslash → Sigil.ofText? rest = none)
    (buffer : Concatenation) :
    gather buffer (ofText (guardMarkers text ++ rest)) =
      gather (buffer.appendText (String.ofList text)) (ofText rest) := by
  induction text generalizing buffer with
  | nil => rfl
  | cons char text inductionHypothesis =>
      have noGuardLater : text.getLast? = some backslash → Sigil.ofText? rest = none := by
        intro ending
        apply noGuard
        rw [List.getLast?_cons, ending]
        rfl
      have later := inductionHypothesis noGuardLater (buffer.appendText (String.ofList [char]))
      rw [Concatenation.appendText_appendText, ← String.ofList_append,
        List.singleton_append] at later
      rw [← later, guardMarkers]
      split
      next marker =>
        obtain ⟨sigil, found⟩ := Option.isSome_iff_exists.mp marker
        obtain ⟨others, split⟩ := Sigil.eq_of_ofText? found
        cases split
        rw [guardMarkers, Sigil.ofText?_brace]
        exact gather_ofText_guarded buffer sigil (guardMarkers others ++ rest)
      next noMarker =>
        have plain : Sigil.ofText? (char :: (guardMarkers text ++ rest)) = none := by
          rw [Sigil.ofText?_congr (head?_guardMarkers noBrace)]
          simpa using noMarker
        have unguarded : char = backslash →
            Sigil.ofText? (guardMarkers text ++ rest) = none := by
          intro isBackslash
          by_cases empty : text = []
          · subst empty
            exact noGuard (by simp [isBackslash])
          · exact ofText?_guardMarkers empty noBrace
        rw [List.cons_append, ofText_plain plain unguarded, gather_consChar]

end Segment

/-! ## Parts of a text -/

/-- What a text is to say: characters as they are, or an expression with its marker. -/
inductive Part where
  | literal (text : String)
  | marked (sigil : Sigil) (source : String)
  deriving DecidableEq, Repr

namespace Part

/-- How a part is written. -/
def spelling : Part → List Char
  | .literal text => Segment.guardMarkers text.toList
  | .marked sigil source => sigil.char :: '{' :: (source.toList ++ ['}'])

/-- What a part has to be by itself: a literal says something, and an expression is trimmed
and fills its braces. -/
def Sound : Part → Prop
  | .literal text => text ≠ ""
  | .marked _ source => source ≠ "" ∧ Text.trim source = source ∧
      matchingClose? (String.ofList ('{' :: (source.toList ++ ['}']))) =
        some (byteSize source.toList + 1)

instance : DecidablePred Sound
  | .literal _ => inferInstanceAs (Decidable (_ ≠ _))
  | .marked _ _ => inferInstanceAs (Decidable (_ ∧ _))

/-- A part may stand in front of another one. -/
def Fits : Part → Part → Prop
  | .literal _, .literal _ => False
  | .literal text, .marked _ _ => text.toList.getLast? ≠ some backslash
  | .marked _ _, _ => True

instance : DecidableRel Fits
  | .literal _, .literal _ => inferInstanceAs (Decidable False)
  | .literal _, .marked _ _ => inferInstanceAs (Decidable (_ ≠ _))
  | .marked _ _, _ => inferInstanceAs (Decidable True)

/-- Whether a part is put out in a text. -/
def inText : Part → Bool
  | .literal _ | .marked .escaped _ => true
  | .marked .raw _ => false

/-- Whether two parts in a row are put out in one text. -/
def joins (first second : Part) : Bool := first.inText && second.inText

def term : Part → Term
  | .literal text => .literal text
  | .marked _ source => .expr source

/-- The sentinel of a raw expression, or of parts that are put out in one text. -/
def sentinelOf : List Part → Sentinel
  | [.marked .raw source] => .unescape source
  | run => .text { terms := run.map term, coerced := true }

/-- The sentinels of parts: one for each raw expression, and one for each longest run of
other parts. -/
def sentinels (parts : List Part) : List Sentinel :=
  if parts = [] then [.text Concatenation.start]
  else (parts.splitBy joins).map sentinelOf

/-! ## Reading what is written -/

variable {run parts : List Part}

theorem sentinelOf_run (inText : ∀ part ∈ run, part.inText = true) :
    sentinelOf run = .text { terms := run.map term, coerced := true } := by
  unfold sentinelOf
  split
  next source => cases inText (.marked .raw source) (List.mem_singleton_self _)
  next => rfl

/-- Parts that are put out in a text are put out in one text. -/
theorem map_sentinelOf_splitBy (inText : ∀ part ∈ run, part.inText = true) :
    (run.splitBy joins).map sentinelOf =
      Segment.flush { terms := run.map term, coerced := true } := by
  by_cases empty : run = []
  · rw [empty]
    rfl
  · have together : run.IsChain fun first second => joins first second = true := by
      rw [List.isChain_iff_forall_rel_of_append_cons_cons]
      intro first second front back split
      simp [joins, inText first (by simp [split]), inText second (by simp [split])]
    rw [List.splitBy_of_isChain empty together, List.map_singleton, sentinelOf_run inText]
    simp [Segment.flush, Concatenation.isEmpty, empty]

/-- A raw expression ends a run. -/
theorem splitBy_raw (run parts : List Part) (source : String) :
    (run ++ .marked .raw source :: parts).splitBy joins =
      run.splitBy joins ++ [.marked .raw source] :: parts.splitBy joins := by
  rw [List.splitBy_append_cons _ (by simp [joins, inText]), ← List.singleton_append,
    List.splitBy_append (by simp [joins, inText])]
  rfl

/-- A literal in front of which no literal may stand becomes a term of its own. -/
theorem appendText_run {text : String} (nonempty : text ≠ "")
    (fits : ∀ last ∈ run.getLast?, Fits last (.literal text)) :
    Concatenation.appendText { terms := run.map term, coerced := true } text =
      { terms := (run ++ [Part.literal text]).map term, coerced := true } := by
  have added : Term.append text (run.map term) = run.map term ++ [.literal text] := by
    rcases Term.append_cases text (run.map term) with ⟨front, last, ending, -⟩ | ⟨-, added⟩
    · have lastTerm : (run.map term).getLast? = some (.literal last) := by simp [ending]
      rw [List.getLast?_map, Option.map_eq_some_iff] at lastTerm
      obtain ⟨part, isLast, literal⟩ := lastTerm
      cases part with
      | literal => cases fits _ isLast
      | marked => cases literal
    · exact added
  rw [Concatenation.appendText_of_ne nonempty, List.map_append]
  exact congrArg (Concatenation.mk · true) added

theorem head?_spelling (fits : ∀ next ∈ parts.head?, ∀ text, next ≠ .literal text) :
    (parts.flatMap spelling).head? ≠ some '{' := by
  cases parts with
  | nil => simp
  | cons part parts =>
      cases part with
      | literal text => exact absurd rfl (fits _ rfl text)
      | marked sigil source => cases sigil <;> simp [spelling, Sigil.char]

/-- The sentinels of parts, where `run` has been read and is still being gathered. -/
theorem gather_ofText_spelling (inText : ∀ part ∈ run, part.inText = true)
    (sound : ∀ part ∈ parts, part.Sound) (fits : (run ++ parts).IsChain Fits) :
    Segment.gather { terms := run.map term, coerced := true }
        (Segment.ofText (parts.flatMap spelling)) =
      ((run ++ parts).splitBy joins).map sentinelOf := by
  induction parts generalizing run with
  | nil =>
      rw [List.append_nil]
      exact (map_sentinelOf_splitBy inText).symm
  | cons part parts inductionHypothesis =>
      rw [List.forall_mem_cons] at sound
      obtain ⟨partSound, sound⟩ := sound
      have gathered (isInText : part.inText = true) :
          Segment.gather { terms := (run ++ [part]).map term, coerced := true }
              (Segment.ofText (parts.flatMap spelling)) =
            ((run ++ part :: parts).splitBy joins).map sentinelOf := by
        rw [List.append_cons run part parts] at fits ⊢
        refine inductionHypothesis ?_ sound fits
        simpa [or_imp, forall_and] using ⟨inText, isInText⟩
      rw [List.isChain_append] at fits
      obtain ⟨-, partsFit, boundary⟩ := fits
      rw [List.flatMap_cons]
      cases part with
      | literal text =>
          rw [List.isChain_cons] at partsFit
          have noBrace : (parts.flatMap spelling).head? ≠ some '{' := by
            refine head?_spelling ?_
            rintro next isNext other rfl
            exact partsFit.1 _ isNext
          have noGuard : text.toList.getLast? = some backslash →
              Sigil.ofText? (parts.flatMap spelling) = none := by
            intro ending
            cases parts with
            | nil => rfl
            | cons next parts =>
                have related := partsFit.1 next rfl
                cases next with
                | literal => exact related.elim
                | marked => exact absurd ending related
          rw [spelling, Segment.gather_ofText_guardMarkers noBrace noGuard, String.ofList_toList,
            appendText_run partSound fun last isLast => boundary last isLast _ rfl]
          exact gathered rfl
      | marked sigil source =>
          obtain ⟨nonempty, trimmed, fills⟩ := partSound
          have balanced : Balanced source.toList := by
            rw [Nat.add_comm] at fills
            exact (Fragment.matchingClose?_eq_iff_balanced rfl).mp fills
          have stripped : Text.strip source.toList = source.toList := by
            rw [Text.trim, ← String.toList_inj, String.toList_ofList] at trimmed
            exact trimmed
          have visible : source.toList ≠ [] := by simpa using nonempty
          rw [spelling, List.cons_append, List.cons_append, List.append_assoc,
            List.singleton_append, Segment.ofText_marked sigil balanced]
          cases sigil with
          | escaped =>
              rw [← gathered rfl]
              simp [Segment.gather, stripped, visible, Concatenation.appendExpr, term]
          | raw =>
              have later : Segment.gather Concatenation.start
                    (Segment.ofText (parts.flatMap spelling)) =
                  (parts.splitBy joins).map sentinelOf :=
                @inductionHypothesis [] (by simp) sound (List.isChain_cons.mp partsFit).2
              rw [splitBy_raw, List.map_append, map_sentinelOf_splitBy inText, List.map_cons,
                ← later]
              simp [Segment.gather, stripped, visible, sentinelOf]

end Part

namespace Segment

/-- Parts can be written so that they are read again, and any text can be written as a
literal. -/
theorem sentinelsOfText_spelling :
    (∀ parts : List Part, (∀ part ∈ parts, part.Sound) → parts.IsChain Part.Fits →
      sentinelsOfText (String.ofList (parts.flatMap Part.spelling)) = Part.sentinels parts) ∧
    ∀ text : String, sentinelsOfText (String.ofList (guardMarkers text.toList)) =
      [.text { terms := if text = "" then [] else [.literal text], coerced := true }] := by
  constructor
  · intro parts sound fits
    have gathered : gather Concatenation.start (ofText (parts.flatMap Part.spelling)) =
        (parts.splitBy Part.joins).map Part.sentinelOf :=
      @Part.gather_ofText_spelling [] parts (by simp) sound fits
    rw [sentinelsOfText, String.toList_ofList, sentinels, gathered, Part.sentinels]
    by_cases empty : parts = []
    · rw [empty]
      rfl
    · rw [if_neg empty]
      have nonempty : (parts.splitBy Part.joins).map Part.sentinelOf ≠ [] := by simp [empty]
      split
      next none => exact absurd none nonempty
      next => rfl
  · intro text
    have gathered : gather Concatenation.start (ofText (guardMarkers text.toList)) =
        flush (Concatenation.start.appendText text) := by
      rw [← List.append_nil (guardMarkers _), gather_ofText_guardMarkers (by simp) (fun _ => rfl),
        String.ofList_toList]
      rfl
    rw [sentinelsOfText, String.toList_ofList, sentinels, gathered]
    by_cases empty : text = ""
    · rw [empty]
      rfl
    · rw [Concatenation.appendText_of_ne empty, if_neg empty]
      rfl

/-- A literal with a marker behind a backslash, an expression that hides a brace, a raw one
with braces, and a literal that begins with a brace and ends with a backslash. -/
def markerLike : List Part :=
  [.literal "\\#\x7b!", .marked .escaped "\"\x7d\"", .marked .raw "f(\x7b\x7d)",
    .literal "\x7b\\"]

theorem sentinelsOfText_spelling_markerLike :
    (∀ part ∈ markerLike, part.Sound) ∧ markerLike.IsChain Part.Fits ∧
      String.ofList (markerLike.flatMap Part.spelling) =
        "\\\\#\x7b!#\x7b\"\x7d\"\x7d!\x7bf(\x7b\x7d)\x7d\x7b\\" ∧
      sentinelsOfText (String.ofList (markerLike.flatMap Part.spelling)) =
        [.text { terms := [.literal "\\#\x7b!", .expr "\"\x7d\""], coerced := true },
          .unescape "f(\x7b\x7d)",
          .text { terms := [.literal "\x7b\\"], coerced := true }] := by
  have sound : ∀ part ∈ markerLike, part.Sound := by decide +kernel
  have fits : markerLike.IsChain Part.Fits := by decide +kernel
  refine ⟨sound, fits, by decide +kernel, ?_⟩
  rw [sentinelsOfText_spelling.1 markerLike sound fits]
  rfl

end Segment

end Template
