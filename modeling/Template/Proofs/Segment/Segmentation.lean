import Template.Proofs.Concatenation
import Template.Proofs.Segment.Cutting
import Template.Proofs.Text.Trimming

/-!
# Segmentations of a text

What it means to divide a text into segments, said without the way it is done: the
segments spell the text, none of them hides a marker, a marker with a backslash in front
is guarded, and a marker without one is closed at its matching brace or begins the rest of
the text.  Cutting a text gives a segmentation, and there is no other one
(`Segment.ofText_eq_iff`).

What segments give is said a second time, too: `Emission.take` goes through them from left
to right with the sentinels put out so far and the terms of the text that is being gathered,
to which it adds without the operations of concatenations.  The main statement joins both: the
sentinels of a text are what its one segmentation gives.
-/

namespace Template

open Fragment (Balanced matchingClose? spanClose?)
open Text (backslash byteSize)

namespace Segment

/-! ## Segmentations -/

/-- The characters of the text that a segment stands for. -/
def spelling : Segment → List Char
  | .chunk text => text
  | .guarded sigil => [backslash, sigil.char, '{']
  | .marked sigil raw => sigil.char :: '{' :: (raw ++ ['}'])
  | .unclosed text => text

def isChunk : Segment → Bool
  | .chunk _ => true
  | .guarded _ | .marked _ _ | .unclosed _ => false

def isUnclosed : Segment → Bool
  | .unclosed _ => true
  | .chunk _ | .guarded _ | .marked _ _ => false

/-- Whether a segment begins with a marker. -/
def opens : Segment → Bool
  | .marked _ _ | .unclosed _ => true
  | .chunk _ | .guarded _ => false

/-- There is no marker in a text. -/
def Unmarked (text : List Char) : Prop :=
  ∀ sigil : Sigil, ¬ [sigil.char, '{'] <:+: text

/-- What a segment has to be by itself: a chunk has no marker, a marker is closed by the
last brace of its segment, and one that is not closed is closed nowhere. -/
def Sound : Segment → Prop
  | .chunk text => text ≠ [] ∧ Unmarked text
  | .guarded _ => True
  | .marked _ raw =>
      matchingClose? (String.ofList ('{' :: (raw ++ ['}']))) = some (1 + byteSize raw)
  | .unclosed text =>
      ∃ (sigil : Sigil) (rest : List Char), text = sigil.char :: '{' :: rest ∧
        matchingClose? (String.ofList ('{' :: rest)) = none

/-- The segments divide the text.  A chunk reaches as far as it can, and a marker stands
behind a backslash only if it is guarded. -/
structure Segmentation (text : List Char) (segments : List Segment) : Prop where
  spelled : segments.flatMap spelling = text
  sound : ∀ segment ∈ segments, segment.Sound
  chunksApart : segments.IsChain fun first second =>
    ¬ (first.isChunk = true ∧ second.isChunk = true)
  unclosedLast : ∀ (front back : List Segment) (rest : List Char),
    segments = front ++ .unclosed rest :: back → back = []
  unguarded : ∀ (front back : List Segment) (segment : Segment),
    segments = front ++ segment :: back → segment.opens = true →
      (front.flatMap spelling).getLast? ≠ some backslash

theorem sound_marked_iff {sigil : Sigil} {raw : List Char} :
    (marked sigil raw).Sound ↔ Balanced raw :=
  Fragment.matchingClose?_eq_iff_balanced (rfl : Fragment.closer? '{' = some '}')

theorem sound_unclosed (sigil : Sigil) {rest : List Char}
    (noClose : spanClose? ('{' :: rest) = none) :
    (unclosed (sigil.char :: '{' :: rest)).Sound := by
  refine ⟨sigil, rest, rfl, ?_⟩
  rw [matchingClose?, String.toList_ofList, noClose]
  rfl

/-- A segment may stand in front of another one. -/
def Fits (first second : Segment) : Prop :=
  ¬ (first.isChunk = true ∧ second.isChunk = true) ∧ first.isUnclosed = false ∧
    (second.opens = true → first.spelling.getLast? ≠ some backslash)

/-- A segmentation, with all conditions on neighbours put on two segments in a row. -/
structure Divides (text : List Char) (segments : List Segment) : Prop where
  spelled : segments.flatMap spelling = text
  sound : ∀ segment ∈ segments, segment.Sound
  fits : segments.IsChain Fits

variable {segment : Segment} {segments : List Segment} {text rest : List Char}

theorem Sound.spelling_ne_nil (sound : segment.Sound) : segment.spelling ≠ [] := by
  cases segment with
  | chunk text => exact sound.1
  | guarded | marked => exact List.cons_ne_nil _ _
  | unclosed text =>
      obtain ⟨sigil, rest, rfl, -⟩ := sound
      exact List.cons_ne_nil _ _

theorem Sound.spelling_of_opens (sound : segment.Sound) (opens : segment.opens = true) :
    ∃ (sigil : Sigil) (rest : List Char), segment.spelling = sigil.char :: '{' :: rest := by
  cases segment with
  | chunk | guarded => cases opens
  | marked sigil raw => exact ⟨sigil, raw ++ ['}'], rfl⟩
  | unclosed text =>
      obtain ⟨sigil, rest, rfl, -⟩ := sound
      exact ⟨sigil, rest, rfl⟩

theorem segmentation_iff_divides : Segmentation text segments ↔ Divides text segments := by
  constructor
  · rintro ⟨spelled, sound, chunksApart, unclosedLast, unguarded⟩
    refine ⟨spelled, sound, ?_⟩
    rw [List.isChain_iff_forall_rel_of_append_cons_cons] at chunksApart ⊢
    intro first second front back split
    refine ⟨chunksApart split, ?_, ?_⟩
    · cases first with
      | unclosed rest => cases unclosedLast front (second :: back) rest split
      | chunk | guarded | marked => rfl
    · intro opens last
      have longer : segments = (front ++ [first]) ++ second :: back := by simp [split]
      refine unguarded (front ++ [first]) back second longer opens ?_
      rw [List.flatMap_append, List.flatMap_singleton, List.getLast?_append, last]
      rfl
  · rintro ⟨spelled, sound, fits⟩
    have neighbours := List.isChain_iff_forall_rel_of_append_cons_cons.mp fits
    refine ⟨spelled, sound, fits.imp fun _ _ related => related.1, ?_, ?_⟩
    · intro front back rest split
      cases back with
      | nil => rfl
      | cons second back => cases (neighbours split).2.1
    · intro front back segment split opens
      rcases List.eq_nil_or_concat' front with rfl | ⟨others, last, rfl⟩
      · simp
      · have lastSound : last.Sound := sound last (by simp [split])
        have related : Fits last segment := neighbours (by simpa using split)
        rw [List.flatMap_append, List.flatMap_singleton,
          List.getLast?_append_of_ne_nil _ lastSound.spelling_ne_nil]
        exact related.2.2 opens

/-! ## Cutting a text divides it -/

theorem Divides.cons (later : Divides rest segments) (segment : Segment) (sound : segment.Sound)
    (fits : ∀ next ∈ segments.head?, Fits segment next) :
    Divides (segment.spelling ++ rest) (segment :: segments) where
  spelled := by rw [List.flatMap_cons, later.spelled]
  sound := List.forall_mem_cons.mpr ⟨sound, later.sound⟩
  fits := List.isChain_cons.mpr ⟨fits, later.fits⟩

theorem Divides.tail (divides : Divides text (segment :: segments)) :
    Divides (segments.flatMap spelling) segments where
  spelled := rfl
  sound := (List.forall_mem_cons.mp divides.sound).2
  fits := (List.isChain_cons.mp divides.fits).2

/-- Anything may stand behind a guarded marker. -/
theorem guarded_fits (sigil : Sigil) (next : Segment) : Fits (.guarded sigil) next := by
  refine ⟨by simp [isChunk], rfl, ?_⟩
  intro _
  simp [spelling, backslash]

/-- Anything may stand behind a marker that is closed. -/
theorem marked_fits (sigil : Sigil) (raw : List Char) (next : Segment) :
    Fits (.marked sigil raw) next := by
  refine ⟨by simp [isChunk], rfl, ?_⟩
  intro _
  rw [spelling, ← List.cons_append, ← List.cons_append, List.getLast?_append]
  simp [backslash]

theorem unmarked_cons {char : Char} (nonempty : text ≠ []) (unmarked : Unmarked text)
    (noMarker : Sigil.ofText? (char :: (text ++ rest)) = none) : Unmarked (char :: text) := by
  intro sigil found
  rcases List.infix_cons_iff.mp found with ⟨others, split⟩ | inside
  · cases text with
    | nil => exact nonempty rfl
    | cons second text =>
        obtain ⟨rfl, rfl, -⟩ : sigil.char = char ∧ '{' = second ∧ others = text := by
          simpa using split
        rw [List.cons_append, Sigil.ofText?_char] at noMarker
        cases noMarker
  · exact unmarked sigil inside

/-- A character in front of segments that do not begin with a chunk. -/
theorem Divides.single {char : Char} (later : Divides rest segments)
    (noChunk : ∀ next ∈ segments.head?, next.isChunk = false)
    (noGuard : char = backslash → Sigil.ofText? rest = none) :
    Divides (char :: rest) (.chunk [char] :: segments) := by
  refine later.cons (.chunk [char]) ⟨List.cons_ne_nil _ _, ?_⟩ ?_
  · intro sigil found
    have short := found.length_le
    simp at short
  · intro next isNext
    refine ⟨by simp [noChunk next isNext], rfl, ?_⟩
    intro opens last
    obtain ⟨others, rfl⟩ : ∃ others, segments = next :: others :=
      List.head?_eq_some_iff.mp isNext
    obtain ⟨sigil, more, spelled⟩ :=
      (later.sound next List.mem_cons_self).spelling_of_opens opens
    have begins : rest = sigil.char :: '{' :: (more ++ others.flatMap spelling) := by
      rw [← later.spelled, List.flatMap_cons, spelled]
      rfl
    have isBackslash : char = backslash := by simpa [spelling] using last
    rw [begins, Sigil.ofText?_char] at noGuard
    cases noGuard isBackslash

/-- A character in front of a chunk. -/
theorem Divides.extend {char : Char} (later : Divides rest (.chunk text :: segments))
    (noMarker : Sigil.ofText? (char :: rest) = none) :
    Divides (char :: rest) (.chunk (char :: text) :: segments) := by
  have textSound : text ≠ [] ∧ Unmarked text := later.sound _ List.mem_cons_self
  have spelled : text ++ segments.flatMap spelling = rest := later.spelled
  have fits := (List.isChain_cons.mp later.fits).1
  rw [← spelled] at noMarker ⊢
  refine later.tail.cons (.chunk (char :: text))
    ⟨List.cons_ne_nil _ _, unmarked_cons textSound.1 textSound.2 noMarker⟩ ?_
  intro next isNext
  obtain ⟨apart, -, unguarded⟩ := fits next isNext
  refine ⟨apart, rfl, ?_⟩
  intro opens
  change (char :: text).getLast? ≠ some backslash
  rw [List.getLast?_cons_of_ne_nil textSound.1]
  exact unguarded opens

theorem Divides.consChar {char : Char} (later : Divides rest segments)
    (noMarker : Sigil.ofText? (char :: rest) = none)
    (noGuard : char = backslash → Sigil.ofText? rest = none) :
    Divides (char :: rest) (consChar char segments) := by
  cases segments with
  | nil => exact later.single (by simp) noGuard
  | cons first others =>
      cases first with
      | chunk text => exact later.extend noMarker
      | guarded | marked | unclosed => exact later.single (by simp [isChunk]) noGuard

theorem divides_ofText (text : List Char) : Divides text (ofText text) := by
  induction text using textInduction with
  | nil => exact ⟨rfl, by simp [ofText, segmentsFrom], List.IsChain.nil⟩
  | marked sigil raw rest balanced later =>
      rw [ofText_marked sigil balanced]
      have whole := later.cons (.marked sigil raw) (sound_marked_iff.mpr balanced)
        fun next _ => marked_fits sigil raw next
      simpa [spelling] using whole
  | unclosed sigil rest noClose =>
      rw [ofText_unclosed sigil noClose]
      refine ⟨by simp [spelling], ?_, List.isChain_singleton _⟩
      intro segment membership
      rw [List.mem_singleton.mp membership]
      exact sound_unclosed sigil noClose
  | guarded sigil rest later =>
      rw [ofText_guarded]
      exact later.cons (.guarded sigil) trivial fun next _ => guarded_fits sigil next
  | plain char rest noMarker noGuard later =>
      rw [ofText_plain noMarker noGuard]
      exact later.consChar noMarker noGuard

/-! ## Only one segmentation -/

theorem Unmarked.of_cons {char : Char} (unmarked : Unmarked (char :: text)) : Unmarked text :=
  fun sigil found => unmarked sigil (found.trans (List.suffix_cons char text).isInfix)

theorem Unmarked.ofText?_eq_none (unmarked : Unmarked text) (nonempty : text ≠ [])
    (noBrace : rest.head? ≠ some '{') : Sigil.ofText? (text ++ rest) = none := by
  cases marker : Sigil.ofText? (text ++ rest) with
  | none => rfl
  | some sigil =>
      obtain ⟨others, split⟩ := Sigil.eq_of_ofText? marker
      match text, split with
      | [_], split =>
          obtain ⟨-, rfl⟩ : _ ∧ rest = '{' :: others := by simpa using split
          exact absurd rfl noBrace
      | _ :: _ :: text, split =>
          obtain ⟨rfl, rfl, -⟩ : _ = sigil.char ∧ _ = '{' ∧ _ := by simpa using split
          exact absurd (List.prefix_append [sigil.char, '{'] text).isInfix (unmarked sigil)

/-- A chunk is cut off whole. -/
theorem ofText_chunk (nonempty : text ≠ []) (unmarked : Unmarked text)
    (noBrace : rest.head? ≠ some '{')
    (noGuard : text.getLast? = some backslash → Sigil.ofText? rest = none)
    (noChunk : ∀ next ∈ (ofText rest).head?, next.isChunk = false) :
    ofText (text ++ rest) = .chunk text :: ofText rest := by
  induction text with
  | nil => exact absurd rfl nonempty
  | cons char text inductionHypothesis =>
      have noMarker : Sigil.ofText? (char :: (text ++ rest)) = none :=
        unmarked.ofText?_eq_none nonempty noBrace
      by_cases single : text = []
      · subst single
        rw [List.nil_append] at noMarker
        rw [List.singleton_append, ofText_plain noMarker (fun same => noGuard (by simp [same]))]
        cases segments : ofText rest with
        | nil => rfl
        | cons next others =>
            rw [segments] at noChunk
            cases next with
            | chunk => exact absurd (noChunk _ rfl) (by simp [isChunk])
            | guarded | marked | unclosed => rfl
      · have following : Sigil.ofText? (text ++ rest) = none :=
          unmarked.of_cons.ofText?_eq_none single noBrace
        rw [List.getLast?_cons_of_ne_nil single] at noGuard
        rw [List.cons_append, ofText_plain noMarker (fun _ => following),
          inductionHypothesis single unmarked.of_cons noGuard]
        rfl

/-- Segments that do not begin with a chunk begin with a backslash or a marker. -/
theorem Divides.beginning (divides : Divides text segments)
    (noChunk : ∀ next ∈ segments.head?, next.isChunk = false) :
    text = [] ∨ (∃ rest, text = backslash :: rest) ∨
      ∃ (sigil : Sigil) (rest : List Char), text = sigil.char :: '{' :: rest ∧
        ∃ next ∈ segments.head?, next.opens = true := by
  obtain ⟨rfl, sound, -⟩ := divides
  cases segments with
  | nil => exact .inl rfl
  | cons first others =>
      have ofOpens (opens : first.opens = true) :
          ∃ (sigil : Sigil) (rest : List Char),
            (first :: others).flatMap spelling = sigil.char :: '{' :: rest ∧
              ∃ next ∈ (first :: others).head?, next.opens = true := by
        obtain ⟨sigil, rest, spelled⟩ :=
          (sound first List.mem_cons_self).spelling_of_opens opens
        exact ⟨sigil, rest ++ others.flatMap spelling, by simp [spelled], first, rfl, opens⟩
      cases first with
      | chunk => exact absurd (noChunk _ rfl) (by simp [isChunk])
      | guarded sigil => exact .inr (.inl ⟨_, rfl⟩)
      | marked | unclosed => exact .inr (.inr (ofOpens rfl))

theorem Divides.head?_ne_brace (divides : Divides text segments)
    (noChunk : ∀ next ∈ segments.head?, next.isChunk = false) : text.head? ≠ some '{' := by
  rcases divides.beginning noChunk with rfl | ⟨rest, rfl⟩ | ⟨sigil, rest, rfl, -⟩
  · simp
  · simp [backslash]
  · cases sigil <;> simp [Sigil.char]

theorem Divides.ofText?_eq_none (divides : Divides text segments)
    (noChunk : ∀ next ∈ segments.head?, next.isChunk = false)
    (noOpening : ∀ next ∈ segments.head?, ¬ next.opens = true) : Sigil.ofText? text = none := by
  rcases divides.beginning noChunk with rfl | ⟨rest, rfl⟩ | ⟨-, -, -, next, isNext, opens⟩
  · rfl
  · exact Sigil.ofText?_backslash rest
  · exact absurd opens (noOpening next isNext)

/-- Segments that divide a text are those it is cut into.  The induction is on the segments,
each of which is cut off the rest of the text by one equation. -/
theorem Divides.ofText_eq (divides : Divides text segments) : ofText text = segments := by
  induction segments generalizing text with
  | nil =>
      rw [← divides.spelled]
      rfl
  | cons first others inductionHypothesis =>
      have later := divides.tail
      have restEq : ofText (others.flatMap spelling) = others := inductionHypothesis later
      have firstSound : first.Sound := divides.sound first List.mem_cons_self
      have fits := (List.isChain_cons.mp divides.fits).1
      rw [← divides.spelled, List.flatMap_cons]
      cases first with
      | chunk text =>
          have noChunk : ∀ next ∈ others.head?, next.isChunk = false := by
            intro next isNext
            simpa [isChunk] using (fits next isNext).1
          have noGuard : text.getLast? = some backslash →
              Sigil.ofText? (others.flatMap spelling) = none := by
            intro ending
            refine later.ofText?_eq_none noChunk fun next isNext opens => ?_
            exact (fits next isNext).2.2 opens ending
          have noBrace := later.head?_ne_brace noChunk
          rw [← restEq] at noChunk
          rw [spelling, ofText_chunk firstSound.1 firstSound.2 noBrace noGuard noChunk, restEq]
      | guarded sigil => exact (ofText_guarded sigil _).trans (congrArg _ restEq)
      | marked sigil raw =>
          rw [spelling, List.cons_append, List.cons_append, List.append_assoc,
            List.singleton_append, ofText_marked sigil (sound_marked_iff.mp firstSound), restEq]
      | unclosed text =>
          obtain ⟨sigil, rest, rfl, noClose⟩ := firstSound
          rw [matchingClose?, String.toList_ofList, Option.map_eq_none_iff] at noClose
          cases others with
          | nil =>
              rw [List.flatMap_nil, List.append_nil]
              exact ofText_unclosed sigil noClose
          | cons next others => cases (fits next rfl).2.1

/-- Cutting a text gives its one segmentation. -/
theorem ofText_eq_iff : ofText text = segments ↔ Segmentation text segments := by
  rw [segmentation_iff_divides]
  constructor
  · rintro rfl
    exact divides_ofText text
  · exact Divides.ofText_eq

end Segment

/-! ## What segments give -/

/-- The sentinels put out so far, and the terms of the text that is being gathered. -/
structure Emission where
  done : List Sentinel := []
  current : List Term := []

namespace Emission

variable (emission : Emission)

/-- The text that is being gathered, which is a string whatever its terms are. -/
def gathered : Concatenation := { terms := emission.current, coerced := true }

/-- Go on with characters.  A literal at the end grows, and anything else at the end has a new
literal put behind it. -/
def write (text : List Char) : Emission :=
  if text = [] then emission
  else
    match emission.current.getLast? with
    | some (.literal last) =>
        { emission with
          current := emission.current.dropLast ++ [.literal (last ++ String.ofList text)] }
    | some (.expr _) | none =>
        { emission with current := emission.current ++ [.literal (String.ofList text)] }

/-- Put out the gathered text, if there is one. -/
def flushed : List Sentinel :=
  if emission.current = [] then emission.done else emission.done ++ [.text emission.gathered]

/-- Go on with a segment. -/
def take : Segment → Emission
  | .chunk text | .unclosed text => emission.write text
  | .guarded sigil => emission.write [sigil.char, '{']
  | .marked sigil raw =>
      if raw.all Text.isBlank then emission
      else
        let source := String.ofList ((raw.dropWhile Text.isBlank).rdropWhile Text.isBlank)
        match sigil with
        | .escaped => { emission with current := emission.current ++ [.expr source] }
        | .raw => { done := emission.flushed ++ [.unescape source] }

/-- The sentinels at the end of the segments: the gathered text comes last, if there is one
or nothing else has been put out. -/
def finished : List Sentinel :=
  if emission.done = [] then [.text emission.gathered] else emission.flushed

theorem done_write (text : List Char) : (emission.write text).done = emission.done := by
  unfold write
  split
  · rfl
  · split <;> rfl

/-- Written characters are appended to the gathered text. -/
theorem gathered_write (text : List Char) :
    (emission.write text).gathered = emission.gathered.appendText (String.ofList text) := by
  obtain ⟨done, current⟩ := emission
  by_cases empty : text = []
  · rw [empty, String.ofList_nil, Concatenation.appendText_empty]
    rfl
  · have nonempty : String.ofList text ≠ "" := by simpa using empty
    rw [Concatenation.appendText_of_ne nonempty, write, if_neg empty]
    rcases List.eq_nil_or_concat' current with rfl | ⟨front, last, rfl⟩
    · rfl
    · cases last with
      | literal | expr => simp [gathered]

theorem flushed_eq_append :
    emission.flushed = emission.done ++ Segment.flush emission.gathered := by
  unfold flushed Segment.flush Concatenation.isEmpty gathered
  split
  next empty => simp [empty]
  next nonempty => simp [nonempty]

/-- One segment more from the left is one segment less for the rest. -/
theorem append_gather_take (segment : Segment) (rest : List Segment) :
    (emission.take segment).done ++ Segment.gather (emission.take segment).gathered rest =
      emission.done ++ Segment.gather emission.gathered (segment :: rest) := by
  cases segment with
  | chunk | guarded | unclosed =>
      rw [take, done_write, gathered_write]
      rfl
  | marked sigil raw =>
      by_cases blank : raw.all Text.isBlank = true
      · have nothing : Text.strip raw = [] := Text.strip_eq_nil_iff.mpr blank
        rw [take, if_pos blank]
        cases sigil <;> simp [Segment.gather, nothing]
      · have visible : Text.strip raw ≠ [] := fun none => blank (Text.strip_eq_nil_iff.mp none)
        have trimmed : (raw.dropWhile Text.isBlank).rdropWhile Text.isBlank = Text.strip raw := rfl
        rw [take, if_neg blank, trimmed]
        cases sigil with
        | escaped =>
            simp only [Segment.gather, List.isEmpty_iff, visible, ↓reduceIte]
            rfl
        | raw =>
            simp only [Segment.gather, List.isEmpty_iff, visible, ↓reduceIte, flushed_eq_append,
              List.append_assoc, List.singleton_append]
            rfl

theorem flushed_foldl_take (segments : List Segment) :
    (segments.foldl take emission).flushed =
      emission.done ++ Segment.gather emission.gathered segments := by
  induction segments generalizing emission with
  | nil => exact emission.flushed_eq_append
  | cons segment rest inductionHypothesis =>
      rw [List.foldl_cons, inductionHypothesis, append_gather_take]

end Emission

namespace Segment

/-- What segments give, taken from left to right. -/
def emitted (segments : List Segment) : List Sentinel :=
  (segments.foldl Emission.take {}).finished

theorem sentinels_eq_emitted (segments : List Segment) :
    sentinels segments = emitted segments := by
  have flushed : (segments.foldl Emission.take {}).flushed =
      gather Concatenation.start segments := Emission.flushed_foldl_take {} segments
  unfold sentinels emitted
  rw [← flushed]
  obtain ⟨done, current⟩ := segments.foldl Emission.take {}
  cases done with
  | nil | cons => cases current <;> rfl

/-- The sentinels of a text are what its segments give, from left to right, and there is
one way only to divide the text into segments. -/
theorem sentinelsOfText_segmentation (text : String) :
    ∃ segments, Segmentation text.toList segments ∧ sentinelsOfText text = emitted segments ∧
      ∀ others, Segmentation text.toList others → others = segments := by
  refine ⟨ofText text.toList, ofText_eq_iff.mp rfl, sentinels_eq_emitted _, ?_⟩
  intro others segmentation
  exact (ofText_eq_iff.mpr segmentation).symm

end Segment

end Template
