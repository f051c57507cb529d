import Template.Proofs.Fragment.Elements
import Template.Proofs.Text.Slicing

/-!
# Fragments cut at byte positions

The questions about a fragment once more, answered by a walk over the characters of the source
in their places.  At each visible character the walk hands the byte position, the character and
the number of open brackets to a visitor, which may stop it there.  The parts of a source and
the inside of an array are cut out of it at the positions found on the way, and such a cut can
fail.

It never does: each function gives a result for every source, and the result is the one that is
read off the characters (`closePosition_eq`, `cutParts_eq`, `cutElements_eq`).
-/

namespace Template.Fragment

open Template.Text

/-- How a walk over a source ends. -/
inductive Ending where
  | stopped (position : Nat)
  | finished
  | broken
  deriving DecidableEq, Repr

/-- The position at which a walk was stopped. -/
def Ending.position? : Ending → Option Nat
  | .stopped position => some position
  | .finished | .broken => none

/-- Walk over characters in their places.  The visitor sees each visible character with its
position and the number of brackets that are open behind it; what it returns is kept for the
next one, with the decision whether to stop. -/
def walk {Kept : Type} (visit : Kept → Nat → Char → Nat → Cut (Kept × Bool)) (kept : Kept)
    (state : State) : List (Nat × Char) → Cut (Kept × Ending)
  | [] => .ok (kept, .finished)
  | (position, char) :: rest =>
    match state.read char (rest.head?.map Prod.snd) with
    | .broken => .ok (kept, .broken)
    | .hidden next => walk visit kept next rest
    | .visible next =>
      match visit kept position char next.stack.length with
      | .error misplaced => .error misplaced
      | .ok (kept, true) => .ok (kept, .stopped position)
      | .ok (kept, false) => walk visit kept next rest

/-- Stop at a closing bracket that leaves no bracket open. -/
def stopAtClose (_ : Unit) (_ : Nat) (char : Char) (depth : Nat) : Cut (Unit × Bool) :=
  .ok ((), depth == 0 && isCloser char)

/-- The byte position of the bracket that closes the one a source starts with. -/
def closePosition (source : String) : Cut (Option Nat) :=
  match source.toList.head?.bind closer? with
  | none => .ok none
  | some _ => do
    let (_, ending) ← walk stopAtClose () {} (placed source)
    return ending.position?

/-- At a separator outside all brackets, cut off the part that began at `start`; the next one
begins behind the separator. -/
def cutOff (source : String) (separator : Char) (kept : List String × Nat) (position : Nat)
    (char : Char) (depth : Nat) : Cut ((List String × Nat) × Bool) :=
  let (parts, start) := kept
  if depth == 0 && char == separator then do
    let part ← slice source start position
    return ((parts ++ [part], position + char.utf8Size), false)
  else .ok ((parts, start), false)

/-- When the walk has come to the end of the source, the rest of it is the last part. -/
def lastPart (source : String) (walked : (List String × Nat) × Ending) :
    Cut (Option (List String)) :=
  let ((parts, start), ending) := walked
  match ending with
  | .finished => do
    let part ← sliceFrom source start
    return some (parts ++ [part])
  | .stopped _ | .broken => .ok none

/-- The parts of a source between the separators outside all brackets. -/
def cutParts (separator : Char) (source : String) : Cut (Option (List String)) := do
  lastPart source (← walk (cutOff source separator) ([], 0) {} (placed source))

/-- The sources of the elements of an array literal, cut out between its brackets. -/
def cutElements (source : String) : Cut (Option (List String)) := do
  let array := trim source
  if array.toList.head? = some '[' then
    let close ← closePosition array
    let last ← stepBack array.utf8ByteSize 1
    if close = some last then
      let parts ← cutParts ',' (← slice array 1 last)
      return parts.map fun parts => (parts.map trim).filter (· ≠ "")
    else return none
  else return none

variable {source : String} {separator : Char} {text : List Char}

theorem length_beq_zero (stack : List Frame) : (stack.length == 0) = stack.isEmpty := by
  cases stack <;> rfl

/-! ## Closing brackets -/

theorem walk_stopAtClose (state : State) (position : Nat) (text : List Char) :
    ∃ ending, walk stopAtClose () state (placedFrom position text) = .ok ((), ending) ∧
      ending.position? =
        (untilClose state text).map fun (before, _) => position + byteSize before := by
  induction text generalizing state position with
  | nil => exact ⟨.finished, rfl, rfl⟩
  | cons char rest inductionHypothesis =>
      have goesOn (next : State) :
          ∃ ending, walk stopAtClose () next (placedFrom (position + char.utf8Size) rest) =
              .ok ((), ending) ∧
            ending.position? = ((untilClose next rest).map fun (before, after) =>
              (char :: before, after)).map fun (before, _) => position + byteSize before := by
        obtain ⟨ending, walked, same⟩ := inductionHypothesis next (position + char.utf8Size)
        refine ⟨ending, walked, ?_⟩
        rw [same, Option.map_map]
        exact congrArg (Option.map · _) (funext fun _ => Nat.add_assoc _ _ _)
      rw [placedFrom, walk, untilClose, head?_placedFrom]
      cases state.read char rest.head? with
      | broken => exact ⟨.broken, rfl, rfl⟩
      | hidden next => exact goesOn next
      | visible next =>
          simp only [stopAtClose, length_beq_zero]
          cases next.stack.isEmpty && isCloser char with
          | true => exact ⟨.stopped position, rfl, rfl⟩
          | false => exact goesOn next

theorem closePosition_eq (source : String) :
    closePosition source = .ok (matchingClose? source) := by
  unfold closePosition matchingClose? spanClose? placed
  cases source.toList with
  | nil => rfl
  | cons opener rest =>
      obtain ⟨ending, walked, same⟩ := walk_stopAtClose {} 0 (opener :: rest)
      simp only [List.head?_cons, Option.bind_some]
      cases closer? opener with
      | none => rfl
      | some closer =>
          simp only [walked, Option.isSome_some, ↓reduceIte]
          change Except.ok ending.position? = _
          simp only [same, Nat.zero_add]

/-- The bracket that is found stands behind another one, and both are characters of one byte. -/
theorem exists_of_matchingClose? {position : Nat} (found : matchingClose? source = some position) :
    ∃ opener body closer rest, closer? opener = some closer ∧ Balanced body ∧
      source.toList = opener :: (body ++ closer :: rest) ∧ opener.utf8Size = 1 ∧
      closer.utf8Size = 1 ∧ position = 1 + byteSize body := by
  obtain ⟨⟨before, after⟩, span, size⟩ := Option.map_eq_some_iff.mp found
  obtain ⟨opener, body, closer, pair, items, split, same⟩ := spanClose?_eq_some_iff.mp span
  obtain ⟨openerSize, closerSize⟩ : opener.utf8Size = 1 ∧ closer.utf8Size = 1 := by
    rcases pair_cases pair with ⟨rfl, rfl⟩ | ⟨rfl, rfl⟩ | ⟨rfl, rfl⟩ <;> exact ⟨rfl, rfl⟩
  refine ⟨opener, body, closer, after, pair, items.balanced, split, openerSize, closerSize, ?_⟩
  change byteSize before = position at size
  rw [← size, same, byteSize_cons, openerSize]

theorem isBoundary_matchingClose? {position : Nat}
    (found : matchingClose? source = some position) :
    0 < position ∧ IsBoundary source position ∧ IsBoundary source (position + 1) := by
  obtain ⟨opener, body, closer, rest, -, -, split, openerSize, closerSize, rfl⟩ :=
    exists_of_matchingClose? found
  refine ⟨Nat.lt_add_right _ Nat.one_pos, ?_, ?_⟩
  · refine isBoundary_iff.mpr ⟨opener :: body, closer :: rest, split, ?_⟩
    rw [byteSize_cons, openerSize]
  · refine isBoundary_iff.mpr ⟨opener :: (body ++ [closer]), rest, by simpa using split, ?_⟩
    rw [byteSize_cons, byteSize_append, byteSize_cons, byteSize_nil, openerSize, closerSize,
      Nat.add_assoc]

/-! ## Parts -/

theorem consChars_concat (front : List Char) (char : Char) (parts : List (List Char)) :
    consChars (front ++ [char]) parts = consChars front (consPart char parts) :=
  List.foldr_append

/-- The part that is being read begins behind `before`, and `current` is what has been read of
it. -/
theorem walk_cutOff {before current : List Char} (parts : List String) (state : State)
    (split : source.toList = before ++ (current ++ text)) :
    (walk (cutOff source separator) (parts, byteSize before) state
        (placedFrom (byteSize (before ++ current)) text) >>= lastPart source) =
      .ok ((partsFrom separator state text).map fun found =>
        parts ++ (consChars current found).map String.ofList) := by
  induction text generalizing state before current parts with
  | nil =>
      have rest : sliceFrom source (byteSize before) = .ok (String.ofList current) := by
        rw [List.append_nil] at split
        exact sliceFrom_of_split split rfl
      change (sliceFrom source (byteSize before) >>= _) = _
      rw [rest]
      simp [partsFrom]
  | cons char rest inductionHypothesis =>
      have goesOn (next : State) :
          (walk (cutOff source separator) (parts, byteSize before) next
              (placedFrom (byteSize (before ++ current) + char.utf8Size) rest) >>=
                lastPart source) =
            .ok (((partsFrom separator next rest).map (consPart char)).map fun found =>
              parts ++ (consChars current found).map String.ofList) := by
        have longer : source.toList = before ++ ((current ++ [char]) ++ rest) := by
          simpa using split
        have size : byteSize (before ++ (current ++ [char])) =
            byteSize (before ++ current) + char.utf8Size := by simp [Nat.add_assoc]
        rw [← size, inductionHypothesis parts next longer, Option.map_map]
        exact congrArg (fun image => Except.ok (Option.map image _))
          (funext fun found => by rw [Function.comp_apply, consChars_concat])
      rw [placedFrom, walk, partsFrom, head?_placedFrom]
      cases state.read char rest.head? with
      | broken => rfl
      | hidden next => exact goesOn next
      | visible next =>
          simp only [cutOff, length_beq_zero]
          cases next.stack.isEmpty && char == separator with
          | true =>
              have part : slice source (byteSize before) (byteSize (before ++ current)) =
                  .ok (String.ofList current) :=
                slice_of_split split rfl (byteSize_append before current)
              have behind : source.toList = (before ++ (current ++ [char])) ++ ([] ++ rest) := by
                simpa using split
              have later := inductionHypothesis (parts ++ [String.ofList current]) next behind
              rw [List.append_nil, ← List.append_assoc, byteSize_append, byteSize_cons,
                byteSize_nil, Nat.add_zero] at later
              rw [part]
              refine Eq.trans later ?_
              rw [if_pos rfl, Option.map_map]
              exact congrArg (fun image => Except.ok (Option.map image _))
                (funext fun found => by
                  rw [Function.comp_apply, consChars_cons, List.append_nil, List.map_cons,
                    List.append_assoc]
                  rfl)
          | false => exact goesOn next

theorem cutParts_eq (separator : Char) (source : String) :
    cutParts separator source = .ok (topLevelParts? separator source) := by
  have split : source.toList = [] ++ ([] ++ source.toList) := rfl
  exact walk_cutOff [] {} split

/-! ## Elements -/

theorem elementsOf_eq (parts : List (List Char)) :
    ((parts.map String.ofList).map trim).filter (· ≠ "") = elementsOf parts := by
  induction parts with
  | nil => rfl
  | cons part parts inductionHypothesis =>
      rw [elementsOf_cons, List.map_cons, List.map_cons, List.filter_cons, inductionHypothesis]
      simp [trim]

/-- Behind the bracket that an array begins with there is a position for another one. -/
theorem stepBack_last {array : String} (opened : array.toList.head? = some '[') :
    stepBack array.utf8ByteSize 1 = .ok (byteSize array.toList - 1) := by
  obtain ⟨rest, chars⟩ := List.head?_eq_some_iff.mp opened
  have positive : 1 ≤ byteSize array.toList := by
    rw [chars, byteSize_cons]
    exact Nat.le_add_right 1 _
  rw [utf8ByteSize_eq, stepBack, if_pos positive]

theorem slice_inside {array : String} {inside : List Char}
    (bracketed : array.toList = '[' :: (inside ++ [']'])) :
    slice array 1 (byteSize array.toList - 1) = .ok (String.ofList inside) := by
  have split : array.toList = ['['] ++ (inside ++ [']']) := bracketed
  refine slice_of_split split rfl ?_
  have size : byteSize array.toList = 1 + (byteSize inside + 1) := by
    rw [bracketed, byteSize_cons, byteSize_append]
    rfl
  omega

theorem cutElements_eq (source : String) : cutElements source = .ok (arrayElements? source) := by
  have recognised := isSome_arrayElements?_iff source
  unfold cutElements
  by_cases opened : (trim source).toList.head? = some '['
  · simp only [opened, ↓reduceIte, stepBack_last opened, closePosition_eq, Cut.ok_bind]
    by_cases closed : matchingClose? (trim source) = some (byteSize (trim source).toList - 1)
    · obtain ⟨inside, balanced, bracketed⟩ : ∃ inside, Balanced inside ∧
          (trim source).toList = '[' :: (inside ++ [']']) := by
        rw [← matchingClose?_last_iff, String.ofList_toList]
        exact ⟨opened, closed⟩
      have stripped : strip source.toList = '[' :: (inside ++ [']']) := by
        rw [← bracketed, trim, String.toList_ofList]
      rw [if_pos closed, slice_inside bracketed, Cut.ok_bind, cutParts_eq, Cut.ok_bind,
        Cut.pure_eq, arrayElements?_of_balanced balanced stripped, topLevelParts?,
        String.toList_ofList, Option.map_map]
      exact congrArg (fun image => Except.ok (Option.map image _)) (funext elementsOf_eq)
    · have none : arrayElements? source = none := by
        rw [← Option.not_isSome_iff_eq_none, recognised]
        exact fun both => closed both.2
      rw [if_neg closed, none, Cut.pure_eq]
  · have none : arrayElements? source = none := by
      rw [← Option.not_isSome_iff_eq_none, recognised]
      exact fun both => opened both.1
    simp only [opened, ↓reduceIte, none, Cut.pure_eq]

end Template.Fragment
