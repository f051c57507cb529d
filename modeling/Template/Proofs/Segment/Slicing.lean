import Template.Proofs.Fragment.Slicing
import Template.Proofs.Segment.Segmentation

/-!
# Interpolated text cut at byte positions

The sentinels of a text once more, by a loop that looks for the first marker of what is left of
the text.  It cuts off the text in front of the marker, then the marker or the fragment in it,
and goes on behind it.  All cuts are made at byte positions: where the marker starts and stops,
and where its brace is closed, counted from that brace.

A round never fails, leaves less text and gives what the segments it takes off the text give
(`exists_cutMarker`).  So the loop ends for every text, with the sentinels that are read off the
characters (`cutSentinels_eq`).
-/

namespace Template

open Fragment (Balanced closePosition matchingClose? spanClose?)
open Text

namespace Segment

/-- A marker in a text, with the position where it starts. -/
structure Marker where
  start : Nat
  guarded : Bool
  sigil : Sigil
  deriving DecidableEq, Repr

namespace Marker

/-- The characters of a marker, up to its brace. -/
def spelling (marker : Marker) : List Char :=
  if marker.guarded then [backslash, marker.sigil.char, '{'] else [marker.sigil.char, '{']

/-- The position behind the brace of a marker. -/
def stop (marker : Marker) : Nat := marker.start + byteSize marker.spelling

end Marker

/-- The first marker of characters that begin at a position. -/
def markerFrom (position : Nat) : List Char → Option Marker
  | [] => none
  | char :: rest =>
    match Sigil.ofText? (char :: rest) with
    | some sigil => some ⟨position, false, sigil⟩
    | none =>
      match (if char == backslash then Sigil.ofText? rest else none) with
      | some sigil => some ⟨position, true, sigil⟩
      | none => markerFrom (position + char.utf8Size) rest

/-- The first marker of a text. -/
def firstMarker? (text : String) : Option Marker := markerFrom 0 text.toList

/-- Take off a text what is in front of its first marker and what the marker stands for.  A
marker whose brace is not closed takes the rest of the text with it. -/
def cutMarker (emission : Emission) (rest : String) (marker : Marker) :
    Cut (Emission × String) := do
  let chunk ← slice rest 0 marker.start
  let emission := emission.take (.chunk chunk.toList)
  if marker.guarded then
    return (emission.take (.guarded marker.sigil), ← sliceFrom rest marker.stop)
  else
    let opening ← stepBack marker.stop 1
    match ← closePosition (← sliceFrom rest opening) with
    | none =>
      let unclosed ← sliceFrom rest marker.start
      return (emission.take (.unclosed unclosed.toList), "")
    | some close =>
      let raw ← slice rest (opening + 1) (opening + close)
      let later ← sliceFrom rest (opening + close + 1)
      return (emission.take (.marked marker.sigil raw.toList), later)

end Segment

namespace Emission

theorem eq_of_gathered {first second : Emission} (done : first.done = second.done)
    (gathered : first.gathered = second.gathered) : first = second := by
  cases first
  cases done
  cases gathered
  rfl

theorem write_nil (emission : Emission) : emission.write [] = emission := rfl

theorem write_append (emission : Emission) (first second : List Char) :
    (emission.write first).write second = emission.write (first ++ second) := by
  apply eq_of_gathered
  · rw [done_write, done_write, done_write]
  · rw [gathered_write, gathered_write, gathered_write, Concatenation.appendText_appendText,
      String.ofList_append]

end Emission

namespace Segment

variable {marker : Marker} {rest : String}

/-! ## The first marker -/

theorem foldl_take_consChar (char : Char) (segments : List Segment) (emission : Emission) :
    (consChar char segments).foldl Emission.take emission =
      segments.foldl Emission.take (emission.write [char]) := by
  cases segments with
  | nil => rfl
  | cons segment segments =>
      cases segment with
      | chunk text =>
          exact congrArg (segments.foldl Emission.take) (emission.write_append [char] text).symm
      | guarded | marked | unclosed => rfl

/-- Either there is no marker and the whole text is written, or the first one stands behind
text that is written. -/
theorem markerFrom_cases (position : Nat) (text : List Char) :
    (markerFrom position text = none ∧ ∀ emission : Emission,
      (ofText text).foldl Emission.take emission = emission.write text) ∨
    ∃ marker chunk behind, markerFrom position text = some marker ∧
      text = chunk ++ (marker.spelling ++ behind) ∧ marker.start = position + byteSize chunk ∧
      ∀ emission : Emission, (ofText text).foldl Emission.take emission =
        (ofText (marker.spelling ++ behind)).foldl Emission.take (emission.write chunk) := by
  induction text generalizing position with
  | nil => exact .inl ⟨rfl, fun emission => emission.write_nil.symm⟩
  | cons char rest inductionHypothesis =>
      cases unguarded : Sigil.ofText? (char :: rest) with
      | some sigil =>
          obtain ⟨behind, split⟩ := Sigil.eq_of_ofText? unguarded
          refine .inr ⟨⟨position, false, sigil⟩, [], behind, ?_, split, rfl, fun emission => ?_⟩
          · rw [markerFrom, unguarded]
          · rw [emission.write_nil, split]
            rfl
      | none =>
          cases guarded : (if char == backslash then Sigil.ofText? rest else none) with
          | some sigil =>
              obtain ⟨isBackslash, marker⟩ := Option.ite_none_right_eq_some.mp guarded
              obtain rfl : char = backslash := eq_of_beq isBackslash
              obtain ⟨behind, split⟩ := Sigil.eq_of_ofText? marker
              refine .inr ⟨⟨position, true, sigil⟩, [], behind, ?_, congrArg _ split, rfl,
                fun emission => ?_⟩
              · rw [markerFrom, unguarded]
                simp only [guarded]
              · rw [emission.write_nil, split]
                rfl
          | none =>
              -- A backslash that guards no marker is written like any other character.
              have noGuard : char = backslash → Sigil.ofText? rest = none := by
                rintro rfl
                simpa using guarded
              have further : markerFrom position (char :: rest) =
                  markerFrom (position + char.utf8Size) rest := by
                rw [markerFrom, unguarded]
                simp only [guarded]
              have written (emission : Emission) :
                  (ofText (char :: rest)).foldl Emission.take emission =
                    (ofText rest).foldl Emission.take (emission.write [char]) := by
                rw [ofText_plain unguarded noGuard, foldl_take_consChar]
              rw [further]
              rcases inductionHypothesis (position + char.utf8Size) with
                ⟨none, whole⟩ | ⟨marker, chunk, behind, found, rfl, start, same⟩
              · refine .inl ⟨none, fun emission => ?_⟩
                rw [written, whole, emission.write_append, List.singleton_append]
              · refine .inr ⟨marker, char :: chunk, behind, found, rfl, ?_, fun emission => ?_⟩
                · rw [start, byteSize_cons, Nat.add_assoc]
                · rw [written, same, emission.write_append, List.singleton_append]

/-! ## One round -/

section

variable {sigil : Sigil} {chunk raw behind : List Char}

theorem cutMarker_guarded
    (split : rest.toList = chunk ++ (backslash :: sigil.char :: '{' :: behind))
    (emission : Emission) :
    cutMarker emission rest ⟨byteSize chunk, true, sigil⟩ =
      .ok ((emission.write chunk).take (.guarded sigil), String.ofList behind) := by
  have later : sliceFrom rest (Marker.stop ⟨byteSize chunk, true, sigil⟩) =
      .ok (String.ofList behind) := by
    have passed : rest.toList = (chunk ++ [backslash, sigil.char, '{']) ++ behind := by
      simpa using split
    refine sliceFrom_of_split passed ?_
    rw [byteSize_append]
    rfl
  simp only [cutMarker, slice_zero_of_split split rfl, later, Cut.ok_bind, Cut.pure_eq,
    String.toList_ofList, ↓reduceIte]
  rfl

theorem stepBack_stop (chunk : List Char) (sigil : Sigil) :
    stepBack (Marker.stop ⟨byteSize chunk, false, sigil⟩) 1 =
      .ok (byteSize (chunk ++ [sigil.char])) := by
  have size : Marker.stop ⟨byteSize chunk, false, sigil⟩ =
      byteSize (chunk ++ [sigil.char]) + 1 := by
    rw [byteSize_append, Nat.add_assoc]
    rfl
  rw [size, stepBack, if_pos (Nat.le_add_left _ _), Nat.add_sub_cancel]

theorem cutMarker_unclosed (split : rest.toList = chunk ++ (sigil.char :: '{' :: behind))
    (noClose : spanClose? ('{' :: behind) = none) (emission : Emission) :
    cutMarker emission rest ⟨byteSize chunk, false, sigil⟩ =
      .ok ((emission.write chunk).take (.unclosed (sigil.char :: '{' :: behind)), "") := by
  have opened : sliceFrom rest (byteSize (chunk ++ [sigil.char])) =
      .ok (String.ofList ('{' :: behind)) :=
    sliceFrom_of_split (by simpa using split) rfl
  have unclosed : sliceFrom rest (byteSize chunk) =
      .ok (String.ofList (sigil.char :: '{' :: behind)) :=
    sliceFrom_of_split split rfl
  have nowhere : matchingClose? (String.ofList ('{' :: behind)) = none := by
    rw [matchingClose?, String.toList_ofList, noClose]
    rfl
  simp only [cutMarker, slice_zero_of_split split rfl, stepBack_stop, opened,
    Fragment.closePosition_eq, nowhere, unclosed, Cut.ok_bind, Cut.pure_eq,
    String.toList_ofList, Bool.false_eq_true, ↓reduceIte]
  rfl

theorem cutMarker_marked
    (split : rest.toList = chunk ++ (sigil.char :: '{' :: (raw ++ '}' :: behind)))
    (balanced : Balanced raw) (emission : Emission) :
    cutMarker emission rest ⟨byteSize chunk, false, sigil⟩ =
      .ok ((emission.write chunk).take (.marked sigil raw), String.ofList behind) := by
  have opened : sliceFrom rest (byteSize (chunk ++ [sigil.char])) =
      .ok (String.ofList ('{' :: (raw ++ '}' :: behind))) :=
    sliceFrom_of_split (by simpa using split) rfl
  have close : matchingClose? (String.ofList ('{' :: (raw ++ '}' :: behind))) =
      some (1 + byteSize raw) := by
    rw [matchingClose?, String.toList_ofList, balanced.spanClose?_eq rfl]
    rfl
  have fragment : slice rest (byteSize (chunk ++ [sigil.char]) + 1)
      (byteSize (chunk ++ [sigil.char]) + (1 + byteSize raw)) = .ok (String.ofList raw) := by
    have passed : rest.toList = (chunk ++ [sigil.char] ++ ['{']) ++ (raw ++ '}' :: behind) := by
      simpa using split
    refine slice_of_split passed ?_ (Nat.add_assoc _ _ _).symm
    rw [byteSize_append (chunk ++ [sigil.char])]
    rfl
  have later : sliceFrom rest (byteSize (chunk ++ [sigil.char]) + (1 + byteSize raw) + 1) =
      .ok (String.ofList behind) := by
    have passed : rest.toList = (chunk ++ [sigil.char] ++ '{' :: (raw ++ ['}'])) ++ behind := by
      simpa using split
    refine sliceFrom_of_split passed ?_
    have size : byteSize ('{' :: (raw ++ ['}'])) = 1 + byteSize raw + 1 := by
      rw [byteSize_cons, byteSize_append, ← Nat.add_assoc]
      rfl
    rw [byteSize_append (chunk ++ [sigil.char]), size, Nat.add_assoc]
  simp only [cutMarker, slice_zero_of_split split rfl, stepBack_stop, opened,
    Fragment.closePosition_eq, close, fragment, later, Cut.ok_bind, Cut.pure_eq,
    String.toList_ofList, Bool.false_eq_true, ↓reduceIte]
  rfl

end

/-- A round ends without a fault, leaves less text, and gives what the segments give that it
takes off the text. -/
theorem exists_cutMarker (found : firstMarker? rest = some marker) (emission : Emission) :
    ∃ next later, cutMarker emission rest marker = .ok (next, later) ∧
      later.utf8ByteSize < rest.utf8ByteSize ∧
      (ofText later.toList).foldl Emission.take next =
        (ofText rest.toList).foldl Emission.take emission := by
  rcases markerFrom_cases 0 rest.toList with
    ⟨none, -⟩ | ⟨marker, chunk, behind, first, split, start, same⟩
  · cases found.symm.trans none
  cases found.symm.trans first
  rw [same emission]
  obtain ⟨_, guarded, sigil⟩ := marker
  obtain rfl := start.trans (Nat.zero_add _)
  cases guarded with
  | true =>
      refine ⟨_, _, cutMarker_guarded split emission, ?_, ?_⟩
      · have passed : rest.toList = (chunk ++ [backslash, sigil.char, '{']) ++ behind := by
          simpa [Marker.spelling] using split
        exact utf8ByteSize_lt_of_split passed (by simp)
      · rw [String.toList_ofList]
        change _ = (ofText (backslash :: sigil.char :: '{' :: behind)).foldl _ _
        rw [ofText_guarded, List.foldl_cons]
        rfl
  | false =>
      replace split : rest.toList = chunk ++ (sigil.char :: '{' :: behind) := split
      change ∃ next later, _ ∧ _ ∧ _ = (ofText (sigil.char :: '{' :: behind)).foldl _ _
      cases close : spanClose? ('{' :: behind) with
      | none =>
          refine ⟨_, _, cutMarker_unclosed split close emission, ?_, ?_⟩
          · have passed : rest.toList = (chunk ++ (sigil.char :: '{' :: behind)) ++ [] := by
              rw [List.append_nil, split]
            exact utf8ByteSize_lt_of_split passed (by simp)
          · rw [ofText_unclosed sigil close]
            rfl
      | some divided =>
          obtain ⟨before, after⟩ := divided
          obtain ⟨opener, raw, closer, pair, items, text, rfl⟩ :=
            Fragment.spanClose?_eq_some_iff.mp close
          cases text
          cases pair
          refine ⟨_, _, cutMarker_marked split items.balanced emission, ?_, ?_⟩
          · have passed : rest.toList =
                (chunk ++ sigil.char :: '{' :: (raw ++ ['}'])) ++ after := by
              simpa using split
            exact utf8ByteSize_lt_of_split passed (by simp)
          · rw [String.toList_ofList, ofText_marked sigil items.balanced, List.foldl_cons]

theorem shorter_of_cutMarker {emission next : Emission} {later : String}
    (found : firstMarker? rest = some marker)
    (round : cutMarker emission rest marker = .ok (next, later)) :
    later.utf8ByteSize < rest.utf8ByteSize := by
  obtain ⟨_, _, same, shorter, -⟩ := exists_cutMarker found emission
  cases round.symm.trans same
  exact shorter

/-! ## All rounds -/

/-- Go on round by round until there is no marker any more. -/
def cutFrom (emission : Emission) (rest : String) : Cut Emission :=
  match found : firstMarker? rest with
  | none => .ok (emission.write rest.toList)
  | some marker =>
    match round : cutMarker emission rest marker with
    | .error misplaced => .error misplaced
    | .ok (next, later) =>
      have := shorter_of_cutMarker found round
      cutFrom next later
  termination_by rest.utf8ByteSize

/-- The sentinels of an interpolated text. -/
def cutSentinels (text : String) : Cut (List Sentinel) := do
  return (← cutFrom {} text).finished

theorem cutFrom_eq (emission : Emission) (rest : String) :
    cutFrom emission rest = .ok ((ofText rest.toList).foldl Emission.take emission) := by
  induction size : rest.utf8ByteSize using Nat.strongRecOn generalizing emission rest with
  | ind size fewer =>
      subst size
      rw [cutFrom]
      split
      next none =>
        rcases markerFrom_cases 0 rest.toList with ⟨-, whole⟩ | ⟨marker, _, _, found, -⟩
        · rw [whole]
        · cases none.symm.trans found
      next marker found =>
        obtain ⟨next, later, round, shorter, same⟩ := exists_cutMarker found emission
        split
        next misplaced fault => cases fault.symm.trans round
        next next' later' round' =>
          cases round'.symm.trans round
          rw [fewer _ shorter next later rfl, same]

/-- The loop gives the sentinels of the text, whatever the text is. -/
theorem cutSentinels_eq (text : String) : cutSentinels text = .ok (sentinelsOfText text) := by
  rw [cutSentinels, cutFrom_eq, Cut.ok_bind, Cut.pure_eq, sentinelsOfText, sentinels_eq_emitted]
  rfl

end Segment

end Template
