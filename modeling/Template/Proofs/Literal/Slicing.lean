import Template.Proofs.Literal.Tokens
import Template.Proofs.Text.Slicing

/-!
# Strings read at byte positions

The reader of strings once more, over the characters of the string in their places.  The code of
an escape is cut out of the rest of the string at byte positions: up to a brace that is looked
for, or four bytes.  The characters of the code are then passed over, and their number is taken
from those bytes.

Only a code that is no number can have a character of several bytes, and then there is no string
at all.  So where a code is read the two numbers agree (`cutCode_spelling`), and the reader gives
for every source the string that is read off its characters (`cutString_eq`).
-/

namespace Template.Literal

open Template.Text

/-- The position of the first occurrence of a character. -/
def firstPosition (mark : Char) (text : String) : Option Nat :=
  ((placed text).find? (·.2 == mark)).map Prod.fst

/-- The text behind a mark that it begins with. -/
def behindMark? (mark : Char) (text : String) : Option String :=
  match text.toList with
  | [] => none
  | first :: rest => if first == mark then some (String.ofList rest) else none

/-- Behind the `u` of an escape, the digits of the code and the number of characters to pass
over.  A code without braces is four bytes, if these are whole characters. -/
def cutCode (rest : String) : Cut (Option (String × Nat)) :=
  match behindMark? '{' rest with
  | some braced =>
    match firstPosition '}' braced with
    | none => .ok none
    | some stop => do
      let code ← slice braced 0 stop
      return some (code, stop + 2)
  | none => .ok ((slice rest 0 4).toOption.map fun code => (code, 4))

/-- What the code of an escape stands for, if it is a number. -/
def ofCode (code : Option (String × Nat)) : Option (List Char × Nat) :=
  code.bind fun (code, used) => (codePoint? code.toList).map fun char => ([char], used + 1)

/-- Read an escape whose backslash stands at a position: the characters it stands for and the
number of characters to pass over. -/
def cutEscape (body : String) (position : Nat) :
    List (Nat × Char) → Cut (Option (List Char × Nat))
  | [] => .ok none
  | (_, letter) :: rest =>
    if letter == 'x' then
      .ok ((codePoint? ((rest.take 2).map Prod.snd)).map fun char => ([char], 3))
    else if letter == 'u' then do
      let rest ← sliceFrom body (position + 2)
      ofCode <$> cutCode rest
    else if letter == '\n' then .ok (some ([], 1))
    else .ok (some ([(shortEscape? letter).getD letter], 1))

/-- Whether a character of a template string begins a substitution. -/
def cutsSubstitution (mark : Char) (body : String) (position : Nat) (char : Char) : Cut Bool :=
  if char == '$' && mark == backtick then do
    let rest ← sliceFrom body position
    return ['$', '{'].isPrefixOf rest.toList
  else .ok false

/-- Read a string behind its opening mark, with the value of what has been read. -/
def cutInside (mark : Char) (body : String) (value : List Char) :
    List (Nat × Char) → Cut (Option String)
  | [] => .ok none
  | (position, char) :: rest =>
    if char == backslash then do
      match ← cutEscape body position rest with
      | none => return none
      | some (escaped, length) => cutInside mark body (value ++ escaped) (rest.drop length)
    else do
      if ← cutsSubstitution mark body position char then return none
      else if char == mark then
        if position + char.utf8Size == body.utf8ByteSize then return some (String.ofList value)
        else return none
      else cutInside mark body (value ++ [char]) rest
  termination_by chars => chars.length

/-- Read a source that is one string. -/
def cutString (mark : Char) (source : String) : Cut (Option String) :=
  match behindMark? mark source with
  | none => .ok none
  | some body => cutInside mark body [] (placed body)

variable {mark : Char} {text body : String} {read rest : List Char}

/-! ## Positions of characters -/

theorem find?_placedFrom_eq_some_iff {position stop : Nat} :
    (placedFrom position rest).find? (·.2 == mark) = some (stop, mark) ↔
      ∃ front back, rest = front ++ mark :: back ∧ mark ∉ front ∧
        stop = position + byteSize front := by
  induction rest generalizing position with
  | nil => simp [placedFrom]
  | cons char rest inductionHypothesis =>
      rw [placedFrom, List.find?_cons]
      by_cases same : char = mark
      · subst same
        simp only [beq_self_eq_true, Option.some.injEq, Prod.mk.injEq, and_true]
        constructor
        · rintro rfl
          exact ⟨[], rest, rfl, by simp, rfl⟩
        · rintro ⟨front, back, split, absent, rfl⟩
          cases front with
          | nil => rfl
          | cons first front =>
              cases split
              exact absurd List.mem_cons_self absent
      · simp only [beq_eq_false_iff_ne.mpr same]
        rw [inductionHypothesis]
        constructor
        · rintro ⟨front, back, rfl, absent, rfl⟩
          refine ⟨char :: front, back, rfl, ?_, ?_⟩
          · simp [absent, Ne.symm same]
          · rw [byteSize_cons, Nat.add_assoc]
        · rintro ⟨front, back, split, absent, rfl⟩
          cases front with
          | nil =>
              cases split
              exact absurd rfl same
          | cons first front =>
              cases split
              refine ⟨front, back, rfl, fun inside => absent (List.mem_cons_of_mem _ inside), ?_⟩
              rw [byteSize_cons, Nat.add_assoc]

theorem firstPosition_eq_some_iff {stop : Nat} : firstPosition mark text = some stop ↔
    ∃ front back, text.toList = front ++ mark :: back ∧ mark ∉ front ∧ stop = byteSize front := by
  have found : firstPosition mark text = some stop ↔
      (placedFrom 0 text.toList).find? (·.2 == mark) = some (stop, mark) := by
    unfold firstPosition placed
    rw [Option.map_eq_some_iff]
    constructor
    · rintro ⟨⟨position, char⟩, first, rfl⟩
      have isMark := List.find?_some first
      obtain rfl : char = mark := eq_of_beq isMark
      exact first
    · intro first
      exact ⟨_, first, rfl⟩
  rw [found, find?_placedFrom_eq_some_iff]
  simp only [Nat.zero_add]

theorem behindMark?_eq_some_iff : behindMark? mark text = some body ↔
    text.toList = mark :: body.toList := by
  unfold behindMark?
  split
  next empty => simp [empty]
  next first rest chars =>
    rw [chars, Option.ite_none_right_eq_some, beq_iff_eq, List.cons.injEq, Option.some.injEq,
      ← String.toList_inj, String.toList_ofList]

/-! ## Codes -/

variable {digits : List Char} {char : Char}

theorem toNat_le_of_isAlphanum {char : Char} (alphanumeric : char.isAlphanum = true) :
    char.toNat ≤ 122 := by
  have bounds : char.isAlphanum = (decide (65 ≤ char.toNat ∧ char.toNat ≤ 90) ||
      decide (97 ≤ char.toNat) && decide (char.toNat ≤ 122) ||
      decide (48 ≤ char.toNat) && decide (char.toNat ≤ 57)) := rfl
  rw [bounds] at alphanumeric
  simp only [Bool.or_eq_true, Bool.and_eq_true, decide_eq_true_eq] at alphanumeric
  omega

theorem utf8Size_of_isCode {digit : Char} (code : isCode digit = true) : digit.utf8Size = 1 := by
  rw [isCode, Bool.or_eq_true] at code
  rcases code with alphanumeric | sign
  · have small := (toNat_le_of_isAlphanum alphanumeric).trans (show 122 ≤ 127 by decide)
    exact Char.utf8Size_eq_one_iff.mpr (UInt32.le_iff_toNat_le.mpr small)
  · have listed : digit = '+' ∨ digit = '{' ∨ digit = '}' := by simpa using sign
    rcases listed with rfl | rfl | rfl <;> rfl

/-- A number is written with characters of one byte. -/
theorem byteSize_of_codePoint? (number : codePoint? digits = some char) :
    byteSize digits = digits.length := by
  have single : ∀ digit ∈ digits, digit.utf8Size = 1 := fun digit membership =>
    utf8Size_of_isCode (isCode_of_codePoint? number digit membership)
  clear number
  induction digits with
  | nil => rfl
  | cons digit digits inductionHypothesis =>
      rw [List.forall_mem_cons] at single
      rw [byteSize_cons, single.1, inductionHypothesis single.2, List.length_cons, Nat.add_comm]

/-- The characters of a code as they stand behind the `u`. -/
def codeSpelling (rest code : String) : List Char :=
  if rest.toList.head? = some '{' then '{' :: (code.toList ++ ['}']) else code.toList

section

variable {rest code : String} {used : Nat} {inside digits back : List Char}

theorem cutCode_braced (split : rest.toList = '{' :: (digits ++ '}' :: back))
    (noBrace : '}' ∉ digits) :
    cutCode rest = .ok (some (String.ofList digits, byteSize digits + 2)) := by
  have begins : behindMark? '{' rest = some (String.ofList (digits ++ '}' :: back)) :=
    behindMark?_eq_some_iff.mpr (by rw [split, String.toList_ofList])
  have found : firstPosition '}' (String.ofList (digits ++ '}' :: back)) =
      some (byteSize digits) :=
    firstPosition_eq_some_iff.mpr ⟨digits, back, String.toList_ofList, noBrace, rfl⟩
  unfold cutCode
  simp only [begins, found, slice_zero_of_split String.toList_ofList rfl, Cut.ok_bind,
    Cut.pure_eq]

theorem cutCode_open (split : rest.toList = '{' :: inside) (noBrace : '}' ∉ inside) :
    cutCode rest = .ok none := by
  have begins : behindMark? '{' rest = some (String.ofList inside) :=
    behindMark?_eq_some_iff.mpr (by rw [split, String.toList_ofList])
  have found : firstPosition '}' (String.ofList inside) = none := by
    rw [Option.eq_none_iff_forall_ne_some]
    intro stop first
    obtain ⟨front, back, same, -, -⟩ := firstPosition_eq_some_iff.mp first
    rw [String.toList_ofList] at same
    simp [same] at noBrace
  unfold cutCode
  simp only [begins, found]

theorem cutCode_unbraced (noBrace : rest.toList.head? ≠ some '{') :
    cutCode rest = .ok ((slice rest 0 4).toOption.map fun code => (code, 4)) := by
  have begins : behindMark? '{' rest = none := by
    rw [Option.eq_none_iff_forall_ne_some]
    intro braced behind
    rw [behindMark?_eq_some_iff.mp behind] at noBrace
    exact noBrace rfl
  unfold cutCode
  simp only [begins]

theorem prefix_of_slice_four (found : (slice rest 0 4).toOption = some code) :
    code.toList <+: rest.toList ∧ byteSize code.toList = 4 := by
  cases cut : slice rest 0 4 with
  | error misplaced =>
      rw [cut] at found
      cases found
  | ok piece =>
      rw [cut] at found
      cases found
      obtain ⟨front, back, split, first, last⟩ := slice_eq_ok_iff.mp cut
      obtain rfl : front = [] := Fragment.eq_nil_of_byteSize_eq_zero first.symm
      exact ⟨⟨back, split.symm⟩, last.symm⟩

/-- Four bytes are a number exactly if four characters are. -/
theorem slice_four_iff : (∃ code, (slice rest 0 4).toOption = some code ∧
      codePoint? code.toList = some char) ↔
    ∃ digits back, rest.toList = digits ++ back ∧ digits.length = 4 ∧
      codePoint? digits = some char := by
  constructor
  · rintro ⟨code, found, number⟩
    obtain ⟨⟨back, split⟩, size⟩ := prefix_of_slice_four found
    rw [byteSize_of_codePoint? number] at size
    exact ⟨code.toList, back, split.symm, size, number⟩
  · rintro ⟨digits, back, split, four, number⟩
    refine ⟨String.ofList digits, ?_, by rw [String.toList_ofList, number]⟩
    rw [slice_zero_of_split split (four.symm.trans (byteSize_of_codePoint? number).symm)]
    rfl

theorem ofCode_four_iff {escaped : List Char × Nat} :
    ofCode ((slice rest 0 4).toOption.map fun code => (code, 4)) = some escaped ↔
      ∃ char, (∃ digits back, rest.toList = digits ++ back ∧ digits.length = 4 ∧
        codePoint? digits = some char) ∧ escaped = ([char], 5) := by
  simp only [ofCode, Option.bind_map, Option.bind_eq_some_iff, Function.comp_apply,
    Option.map_eq_some_iff, ← slice_four_iff]
  constructor
  · rintro ⟨code, found, char, number, rfl⟩
    exact ⟨char, ⟨code, found, number⟩, rfl⟩
  · rintro ⟨char, ⟨code, found, number⟩, rfl⟩
    exact ⟨code, found, char, number, rfl⟩

theorem escape?_unbraced_iff {text : List Char} (noBrace : text.head? ≠ some '{')
    {escaped : List Char × Nat} :
    escape? ('u' :: text) = some escaped ↔
      ∃ char, (∃ digits back, text = digits ++ back ∧ digits.length = 4 ∧
        codePoint? digits = some char) ∧ escaped = ([char], 5) := by
  constructor
  · intro read
    match text with
    | first :: second :: third :: fourth :: back =>
        have firstNoBrace : first ≠ '{' := fun same => noBrace (by rw [same]; rfl)
        rw [escape?_unit firstNoBrace] at read
        obtain ⟨char, number, rfl⟩ := Option.map_eq_some_iff.mp read
        exact ⟨char, ⟨[first, second, third, fourth], back, rfl, rfl, number⟩, rfl⟩
    | [] => cases read
    | [_] | [_, _] | [_, _, _] => simp_all [escape?]
  · rintro ⟨char, ⟨digits, back, rfl, four, number⟩, rfl⟩
    obtain ⟨first, others, rfl⟩ := List.exists_cons_of_length_eq_add_one four
    obtain ⟨second, third, fourth, rfl⟩ := List.length_eq_three.mp (Nat.succ.inj four)
    have firstNoBrace : first ≠ '{' := fun same => noBrace (by rw [same]; rfl)
    exact (escape?_unit firstNoBrace).trans (by rw [number]; rfl)

theorem escape?_open (noBrace : '}' ∉ inside) : escape? ('u' :: '{' :: inside) = none := by
  have whole : inside.takeWhile (· != '}') = inside := by
    rw [List.takeWhile_eq_self_iff]
    intro char membership
    rw [bne_iff_ne]
    rintro rfl
    exact noBrace membership
  simp [escape?, whole]

/-- A code behind the `u` of an escape is read as it is from the characters. -/
theorem ofCode_cutCode (rest : String) :
    ofCode <$> cutCode rest = .ok (escape? ('u' :: rest.toList)) := by
  by_cases brace : rest.toList.head? = some '{'
  · obtain ⟨inside, begins⟩ := List.head?_eq_some_iff.mp brace
    rw [begins]
    by_cases closed : '}' ∈ inside
    · obtain ⟨digits, back, rfl, noBrace⟩ := List.eq_append_cons_of_mem closed
      rw [cutCode_braced begins noBrace, escape?_codePoint noBrace]
      refine congrArg Except.ok ?_
      simp only [ofCode, Option.bind_some, String.toList_ofList]
      cases number : codePoint? digits with
      | none => rfl
      | some char => simp [byteSize_of_codePoint? number]
    · rw [cutCode_open begins closed, escape?_open closed]
      rfl
  · rw [cutCode_unbraced brace]
    refine congrArg Except.ok (Option.ext fun escaped => ?_)
    rw [escape?_unbraced_iff brace, ofCode_four_iff]

/-- Where a code is a number, as many characters are passed over as it is spelled with. -/
theorem cutCode_spelling (cut : cutCode rest = .ok (some (code, used)))
    (number : codePoint? code.toList = some char) :
    used = (codeSpelling rest code).length ∧ codeSpelling rest code <+: rest.toList := by
  have size := byteSize_of_codePoint? number
  by_cases brace : rest.toList.head? = some '{'
  · obtain ⟨inside, begins⟩ := List.head?_eq_some_iff.mp brace
    by_cases closed : '}' ∈ inside
    · obtain ⟨digits, back, rfl, noBrace⟩ := List.eq_append_cons_of_mem closed
      rw [cutCode_braced begins noBrace] at cut
      cases cut
      rw [String.toList_ofList] at size
      rw [codeSpelling, if_pos brace, begins, String.toList_ofList, size]
      exact ⟨by simp, ⟨back, by simp⟩⟩
    · rw [cutCode_open begins closed] at cut
      cases cut
  · rw [cutCode_unbraced brace] at cut
    obtain ⟨piece, found, same⟩ := Option.map_eq_some_iff.mp (Except.ok.inj cut)
    cases same
    obtain ⟨begins, four⟩ := prefix_of_slice_four found
    rw [codeSpelling, if_neg brace, ← size, four]
    exact ⟨rfl, begins⟩

end

/-! ## Strings -/

theorem stringFrom_eq_drop (mark : Char) (skipped : Nat) (text : List Char) :
    stringFrom mark skipped text = stringFrom mark 0 (text.drop skipped) := by
  induction text generalizing skipped with
  | nil =>
      rw [List.drop_nil]
      cases skipped <;> rfl
  | cons char rest inductionHypothesis =>
      cases skipped with
      | zero => rfl
      | succ skipped => exact inductionHypothesis skipped

/-- An escape is read as it is from the characters.  Only one that is not over when the source
ends may be read otherwise, and then nothing is left of the source. -/
theorem cutEscape_eq (split : body.toList = read ++ backslash :: rest) :
    ∃ found, cutEscape body (byteSize read) (placedFrom (byteSize read + 1) rest) = .ok found ∧
      (found = escape? rest ∨
        escape? rest = none ∧ ∀ escaped ∈ found, rest.length ≤ escaped.2) := by
  cases rest with
  | nil => exact ⟨none, rfl, .inl rfl⟩
  | cons letter rest =>
      rw [placedFrom, cutEscape]
      by_cases hexadecimal : letter = 'x'
      · subst hexadecimal
        rw [if_pos (by decide), List.map_take, map_snd_placedFrom]
        refine ⟨_, rfl, ?_⟩
        have three : ∀ escaped ∈ (codePoint? (rest.take 2)).map fun char => ([char], 3),
            3 ≤ escaped.2 := by
          intro escaped found
          obtain ⟨char, -, rfl⟩ := Option.map_eq_some_iff.mp found
          exact Nat.le_refl 3
        rcases rest with _ | ⟨first, _ | ⟨second, others⟩⟩
        · exact .inr ⟨rfl, fun escaped found => (Nat.le_add_left 1 2).trans (three escaped found)⟩
        · exact .inr ⟨rfl, fun escaped found => (Nat.le_add_left 2 1).trans (three escaped found)⟩
        · exact .inl rfl
      · rw [if_neg (by simpa using hexadecimal)]
        by_cases unit : letter = 'u'
        · subst unit
          have behind : sliceFrom body (byteSize read + 2) = .ok (String.ofList rest) := by
            have passed : body.toList = (read ++ [backslash, 'u']) ++ rest := by simpa using split
            refine sliceFrom_of_split passed ?_
            rw [byteSize_append]
            rfl
          rw [if_pos (by decide), behind, Cut.ok_bind, ofCode_cutCode, String.toList_ofList]
          exact ⟨_, rfl, .inl rfl⟩
        · rw [if_neg (by simpa using unit)]
          by_cases lineEnd : letter = '\n'
          · subst lineEnd
            exact ⟨_, rfl, .inl rfl⟩
          · rw [if_neg (by simpa using lineEnd), escape?_single ⟨hexadecimal, unit⟩ lineEnd]
            exact ⟨_, rfl, .inl rfl⟩

theorem cutsSubstitution_eq {char : Char} (split : body.toList = read ++ char :: rest) :
    cutsSubstitution mark body (byteSize read) char =
      .ok (mark == backtick && char == '$' && rest.head? == some '{') := by
  unfold cutsSubstitution
  rw [Bool.and_comm]
  cases dollar : mark == backtick && char == '$' with
  | false => rfl
  | true =>
      rw [if_pos rfl, sliceFrom_of_split split rfl, Cut.ok_bind, Cut.pure_eq,
        String.toList_ofList]
      have isDollar : char = '$' := by
        rw [Bool.and_eq_true, beq_iff_eq, beq_iff_eq] at dollar
        exact dollar.2
      subst isDollar
      cases rest with
      | nil => rfl
      | cons next rest => simp [List.isPrefixOf, Bool.beq_comm]

/-- The mark at a position is the last character if its bytes reach the end of the string. -/
theorem reachesEnd_eq {char : Char} (split : body.toList = read ++ char :: rest) :
    (byteSize read + char.utf8Size == body.utf8ByteSize) = rest.isEmpty := by
  have size : body.utf8ByteSize = byteSize read + char.utf8Size + byteSize rest := by
    rw [utf8ByteSize_eq, split, byteSize_append, byteSize_cons, Nat.add_assoc]
  rw [size, Bool.eq_iff_iff, beq_iff_eq, List.isEmpty_iff]
  constructor
  · intro ends
    exact Fragment.eq_nil_of_byteSize_eq_zero (by omega)
  · rintro rfl
    rfl

theorem cutInside_eq (split : body.toList = read ++ rest) (value : List Char) :
    cutInside mark body value (placedFrom (byteSize read) rest) =
      .ok ((stringFrom mark 0 rest).map fun inside => String.ofList (value ++ inside)) := by
  -- An escape passes over several characters at once, so the induction is on how many are left.
  induction size : rest.length using Nat.strongRecOn generalizing read rest value with
  | ind size shorter =>
      subst size
      cases rest with
      | nil =>
        rw [placedFrom, cutInside]
        rfl
      | cons char rest =>
          have later (skipped : Nat) (value : List Char) :
              cutInside mark body value
                  ((placedFrom (byteSize read + char.utf8Size) rest).drop skipped) =
                .ok ((stringFrom mark skipped rest).map fun inside =>
                  String.ofList (value ++ inside)) := by
            have fewer : (rest.drop skipped).length < (char :: rest).length := by
              rw [List.length_drop, List.length_cons]
              omega
            have behind : body.toList =
                (read ++ char :: rest.take skipped) ++ rest.drop skipped := by
              rw [split, List.append_assoc, List.cons_append, List.take_append_drop]
            have placed := shorter _ fewer behind value rfl
            rw [byteSize_append, byteSize_cons, ← Nat.add_assoc] at placed
            rw [drop_placedFrom, stringFrom_eq_drop, placed]
          rw [placedFrom, cutInside, stringFrom]
          by_cases protects : char = backslash
          · subst protects
            obtain ⟨found, cut, agrees⟩ := cutEscape_eq split
            have oneByte : backslash.utf8Size = 1 := rfl
            rw [oneByte] at later ⊢
            simp only [beq_self_eq_true, ↓reduceIte, cut, Cut.ok_bind]
            cases found with
            | none =>
                have nothing : escape? rest = none := agrees.elim Eq.symm And.left
                rw [nothing]
                rfl
            | some escaped =>
                obtain ⟨escaped, length⟩ := escaped
                refine (later length (value ++ escaped)).trans ?_
                rcases agrees with read | ⟨nothing, atEnd⟩
                · simp only [← read, Option.map_map, Function.comp_def, List.append_assoc]
                · have ended : rest.drop length = [] := List.drop_eq_nil_of_le (atEnd _ rfl)
                  rw [stringFrom_eq_drop, ended, nothing]
                  rfl
          · simp only [beq_eq_false_iff_ne.mpr protects, Bool.false_eq_true, ↓reduceIte,
              cutsSubstitution_eq split, Cut.ok_bind, Cut.pure_eq, reachesEnd_eq split]
            cases mark == backtick && char == '$' && rest.head? == some '{' with
            | true => rfl
            | false =>
                cases char == mark with
                | true => cases rest <;> simp
                | false =>
                    refine (later 0 (value ++ [char])).trans ?_
                    simp only [Bool.false_eq_true, ↓reduceIte, Option.map_map, Function.comp_def,
                      List.append_assoc, List.singleton_append]

/-- A source that begins with a mark is read as it is from the characters. -/
theorem cutString_eq (mark : Char) (source : String) :
    cutString mark source = .ok ((behindMark? mark source).bind fun body =>
      (stringFrom mark 0 body.toList).map String.ofList) := by
  unfold cutString
  cases behindMark? mark source with
  | none => rfl
  | some body =>
      have split : body.toList = [] ++ body.toList := rfl
      exact cutInside_eq split []

end Template.Literal
