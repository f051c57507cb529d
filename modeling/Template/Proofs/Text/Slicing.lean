import Template.Text.Blank

/-!
# Cuts at byte positions

A text is kept in UTF-8, so a byte position has a meaning only where a character begins or
the text ends.  A cut at any other position is a fault, and so is a piece that ends before it
begins (`slice`).  A function made of such cuts gives a result for every input exactly if none
of its positions is ever misplaced.

A cut is known by the three texts it leaves: what is in front of the piece, the piece, and
what is behind it (`slice_eq_ok_iff`).
-/

namespace Template.Text

/-- Why a cut fails. -/
inductive Misplaced where
  /-- A position beyond the end of a text or inside one of its characters. -/
  | offBoundary (text : String) (position : Nat)
  /-- A piece that ends before it begins. -/
  | reversed (start stop : Nat)
  /-- A position before the beginning of a text. -/
  | underflow (position distance : Nat)
  deriving DecidableEq, Repr

/-- The result of cutting texts. -/
abbrev Cut (α : Type) := Except Misplaced α

@[simp] theorem Cut.ok_bind {α β : Type} (value : α) (next : α → Cut β) :
    ((Except.ok value : Cut α) >>= next) = next value := rfl

@[simp] theorem Cut.pure_eq {α : Type} (value : α) : (pure value : Cut α) = .ok value := rfl

/-- A character begins at the position, or the text ends there. -/
abbrev IsBoundary (text : String) (position : Nat) : Prop :=
  String.Pos.Raw.IsValid text ⟨position⟩

/-- The piece of a text from one position to another. -/
def slice (text : String) (start stop : Nat) : Cut String :=
  if first : IsBoundary text start then
    if last : IsBoundary text stop then
      if start ≤ stop then .ok (String.extract (⟨⟨start⟩, first⟩ : text.Pos) ⟨⟨stop⟩, last⟩)
      else .error (.reversed start stop)
    else .error (.offBoundary text stop)
  else .error (.offBoundary text start)

/-- The piece of a text from a position to its end. -/
def sliceFrom (text : String) (start : Nat) : Cut String :=
  slice text start text.utf8ByteSize

/-- The position so many bytes before another one. -/
def stepBack (position distance : Nat) : Cut Nat :=
  if distance ≤ position then .ok (position - distance)
  else .error (.underflow position distance)

/-- Characters with the positions of their first bytes. -/
def placedFrom (position : Nat) : List Char → List (Nat × Char)
  | [] => []
  | char :: rest => (position, char) :: placedFrom (position + char.utf8Size) rest

/-- The characters of a text with the positions of their first bytes. -/
def placed (text : String) : List (Nat × Char) := placedFrom 0 text.toList

variable {text : String} {start stop position : Nat}

theorem utf8ByteSize_ofList (chars : List Char) :
    (String.ofList chars).utf8ByteSize = byteSize chars := by
  induction chars with
  | nil => rfl
  | cons char rest inductionHypothesis =>
      rw [String.ofList_cons, String.utf8ByteSize_append, String.utf8ByteSize_singleton,
        inductionHypothesis, byteSize_cons]

theorem utf8ByteSize_eq (text : String) : text.utf8ByteSize = byteSize text.toList := by
  rw [← utf8ByteSize_ofList, String.ofList_toList]

/-! ## Boundaries -/

theorem splits_of_split {front back : List Char} {position : text.Pos}
    (split : text.toList = front ++ back) (size : position.offset.byteIdx = byteSize front) :
    position.Splits (String.ofList front) (String.ofList back) where
  eq_append := by
    rw [← String.toList_inj]
    simpa using split
  offset_eq_rawEndPos := by
    rw [← utf8ByteSize_ofList] at size
    exact String.Pos.Raw.ext size

/-- A boundary is where a text falls into two. -/
theorem isBoundary_iff : IsBoundary text position ↔
    ∃ front back, text.toList = front ++ back ∧ position = byteSize front := by
  rw [IsBoundary, String.Pos.Raw.isValid_iff_exists_append]
  constructor
  · rintro ⟨front, back, rfl, same⟩
    refine ⟨front.toList, back.toList, String.toList_append, ?_⟩
    rw [← utf8ByteSize_eq]
    exact congrArg String.Pos.Raw.byteIdx same
  · rintro ⟨front, back, split, rfl⟩
    refine ⟨String.ofList front, String.ofList back, ?_, ?_⟩
    · rw [← String.toList_inj]
      simpa using split
    · exact String.Pos.Raw.ext (utf8ByteSize_ofList front).symm

/-! ## Pieces -/

theorem extract_eq_of_splits {first last : text.Pos} {front piece back : String}
    (before : first.Splits front (piece ++ back)) (behind : last.Splits (front ++ piece) back) :
    String.extract first last = piece := by
  have middle (front piece back : ByteArray) :
      (front ++ (piece ++ back)).extract (front.size + 0) (front.size + piece.size) = piece := by
    rw [ByteArray.extract_append_size_add, ByteArray.extract_append_eq_left rfl]
  rw [← String.toByteArray_inj, String.toByteArray_extract, before.offset_eq_rawEndPos,
    behind.offset_eq_rawEndPos, before.eq_append, String.toByteArray_append,
    String.toByteArray_append, String.byteIdx_rawEndPos, String.byteIdx_rawEndPos,
    String.utf8ByteSize_append]
  exact middle front.toByteArray piece.toByteArray back.toByteArray

/-- A piece with what is in front of it and what is behind it is the text. -/
theorem slice_eq_ok_iff {piece : String} : slice text start stop = .ok piece ↔
    ∃ front back, text.toList = front ++ (piece.toList ++ back) ∧ start = byteSize front ∧
      stop = byteSize (front ++ piece.toList) := by
  constructor
  · intro found
    unfold slice at found
    split at found
    next first =>
      split at found
      next last =>
        split at found
        next ordered =>
          have before := (⟨⟨start⟩, first⟩ : text.Pos).splits
          have behind := (⟨⟨stop⟩, last⟩ : text.Pos).splits
          generalize (text.sliceTo ⟨⟨start⟩, first⟩).copy = front at before
          generalize (text.sliceFrom ⟨⟨start⟩, first⟩).copy = others at before
          generalize (text.sliceTo ⟨⟨stop⟩, last⟩).copy = wider at behind
          generalize (text.sliceFrom ⟨⟨stop⟩, last⟩).copy = back at behind
          obtain ⟨middle, rfl, rfl⟩ := (before.le_iff_exists_eq_append behind).mp ordered
          rw [extract_eq_of_splits before behind] at found
          cases found
          refine ⟨front.toList, back.toList, ?_, ?_, ?_⟩
          · rw [before.eq_append, String.toList_append, String.toList_append]
          · rw [← utf8ByteSize_eq]
            exact congrArg String.Pos.Raw.byteIdx before.offset_eq_rawEndPos
          · rw [← String.toList_append, ← utf8ByteSize_eq]
            exact congrArg String.Pos.Raw.byteIdx behind.offset_eq_rawEndPos
        next => cases found
      next => cases found
    next => cases found
  · rintro ⟨front, back, split, rfl, rfl⟩
    have first : IsBoundary text (byteSize front) := isBoundary_iff.mpr ⟨front, _, split, rfl⟩
    rw [← List.append_assoc] at split
    have last : IsBoundary text (byteSize (front ++ piece.toList)) :=
      isBoundary_iff.mpr ⟨_, back, split, rfl⟩
    have ordered : byteSize front ≤ byteSize (front ++ piece.toList) := by
      rw [byteSize_append]
      exact Nat.le_add_right _ _
    have behind : (⟨⟨byteSize (front ++ piece.toList)⟩, last⟩ : text.Pos).Splits
        (String.ofList front ++ piece) (String.ofList back) :=
      (splits_of_split split rfl).of_eq (by simp) rfl
    rw [List.append_assoc] at split
    have before : (⟨⟨byteSize front⟩, first⟩ : text.Pos).Splits (String.ofList front)
        (piece ++ String.ofList back) :=
      (splits_of_split split rfl).of_eq rfl (by simp)
    rw [slice, dif_pos first, dif_pos last, if_pos ordered, extract_eq_of_splits before behind]

/-- A cut succeeds exactly at boundaries. -/
theorem exists_slice_iff : (∃ piece, slice text start stop = .ok piece) ↔
    IsBoundary text start ∧ IsBoundary text stop ∧ start ≤ stop := by
  constructor
  · rintro ⟨piece, found⟩
    obtain ⟨front, back, split, rfl, rfl⟩ := slice_eq_ok_iff.mp found
    refine ⟨isBoundary_iff.mpr ⟨front, _, split, rfl⟩, ?_, ?_⟩
    · rw [← List.append_assoc] at split
      exact isBoundary_iff.mpr ⟨_, back, split, rfl⟩
    · rw [byteSize_append]
      exact Nat.le_add_right _ _
  · rintro ⟨first, last, ordered⟩
    exact ⟨_, by rw [slice, dif_pos first, dif_pos last, if_pos ordered]⟩

theorem slice_of_split {front piece back : List Char}
    (split : text.toList = front ++ (piece ++ back)) (first : start = byteSize front)
    (last : stop = start + byteSize piece) : slice text start stop = .ok (String.ofList piece) := by
  refine slice_eq_ok_iff.mpr ⟨front, back, ?_, first, ?_⟩
  · rw [String.toList_ofList, split]
  · rw [String.toList_ofList, byteSize_append, last, first]

theorem slice_zero_of_split {piece back : List Char} (split : text.toList = piece ++ back)
    (last : stop = byteSize piece) : slice text 0 stop = .ok (String.ofList piece) := by
  have inFront : text.toList = [] ++ (piece ++ back) := split
  exact slice_of_split inFront rfl (last.trans (Nat.zero_add _).symm)

theorem sliceFrom_of_split {front back : List Char} (split : text.toList = front ++ back)
    (first : start = byteSize front) : sliceFrom text start = .ok (String.ofList back) := by
  refine slice_of_split (by rw [List.append_nil]; exact split) first ?_
  rw [utf8ByteSize_eq, split, byteSize_append, first]

/-- What is left of a text behind some of it is smaller. -/
theorem utf8ByteSize_lt_of_split {front back : List Char} (split : text.toList = front ++ back)
    (nonempty : front ≠ []) : (String.ofList back).utf8ByteSize < text.utf8ByteSize := by
  obtain ⟨char, others, rfl⟩ := List.exists_cons_of_ne_nil nonempty
  have positive := char.utf8Size_pos
  rw [utf8ByteSize_ofList, utf8ByteSize_eq, split, byteSize_append, byteSize_cons]
  omega

/-! ## Characters in their places -/

variable {chars : List Char}

theorem map_snd_placedFrom (position : Nat) (chars : List Char) :
    (placedFrom position chars).map Prod.snd = chars := by
  induction chars generalizing position with
  | nil => rfl
  | cons char rest inductionHypothesis =>
      rw [placedFrom, List.map_cons, inductionHypothesis]

theorem head?_placedFrom (position : Nat) (chars : List Char) :
    (placedFrom position chars).head?.map Prod.snd = chars.head? := by
  rw [← List.head?_map, map_snd_placedFrom]

/-- What is left of the characters after some of them. -/
theorem drop_placedFrom (count position : Nat) (chars : List Char) :
    (placedFrom position chars).drop count =
      placedFrom (position + byteSize (chars.take count)) (chars.drop count) := by
  induction chars generalizing count position with
  | nil => simp [placedFrom]
  | cons char rest inductionHypothesis =>
      cases count with
      | zero => rfl
      | succ count =>
          rw [placedFrom, List.drop_succ_cons, inductionHypothesis, List.take_succ_cons,
            List.drop_succ_cons, byteSize_cons, Nat.add_assoc]

end Template.Text
