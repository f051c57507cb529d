import Template.Proofs.Literal.Grammar
import Template.Proofs.Literal.Quoting

/-!
# Strings of the grammar

The reader takes more strings than the grammar has, and some with another value: it knows no
line continuation but the one with a line feed, takes every digit after a backslash for itself,
takes a sign in front of hexadecimal digits, and keeps raw line ends as they are.
`isStrictFrom` says that a text has none of these, and `spells_iff_isStrictFrom` that among the
texts that are read this is exactly what the grammar asks for.

The way from the grammar compares lengths: nothing that the reader sees differently makes its
value shorter, so equal values are equal piece by piece.
-/

namespace Template.Literal

open Template.Text

variable {mark char : Char} {text rest spelling digits value : List Char} {units : List Nat}
variable {base count code digit length skipped : Nat} {separators : Bool}

/-! ## Strict strings -/

/-- Whether what follows a backslash is an escape of the grammar if it is read at all. -/
def isStrictEscape : List Char → Bool
  | [] => true
  | char :: rest =>
    if char == 'x' then rest.head? != some '+'
    else if char == 'u' then rest.head? != some '+' && rest.take 2 != ['{', '+']
    else if char == '0' then !rest.head?.any Char.isDigit
    else !(char.isDigit || ['\r', '\u2028', '\u2029'].contains char)

/-- Whether a string that is read is one of the grammar, after its first `skipped` characters. -/
def isStrictFrom (mark : Char) : (skipped : Nat) → List Char → Bool
  | _, [] => true
  | skipped + 1, _ :: rest => isStrictFrom mark skipped rest
  | 0, char :: rest =>
    if char == backslash then
      match escape? rest with
      | none => true
      | some (_, length) => isStrictEscape rest && isStrictFrom mark length rest
    else char != '\r' && (mark == backtick || char != '\n') && isStrictFrom mark 0 rest

theorem stringFrom_append (mark : Char) (spelling rest : List Char) :
    stringFrom mark spelling.length (spelling ++ rest) = stringFrom mark 0 rest := by
  induction spelling with
  | nil => rfl
  | cons char spelling inductionHypothesis => exact inductionHypothesis

theorem isStrictFrom_append (mark : Char) (spelling rest : List Char) :
    isStrictFrom mark spelling.length (spelling ++ rest) = isStrictFrom mark 0 rest := by
  induction spelling with
  | nil => rfl
  | cons char spelling inductionHypothesis => exact inductionHypothesis

/-! ## Hexadecimal digits -/

theorem unsigned?_of_head? (noSign : text.head? ≠ some '+') :
    unsigned? base text = natural? base text := by
  unfold unsigned?
  split
  next => simp at noSign
  next => rfl

theorem toNat_of_scalar? (found : scalar? code = some char) : char.toNat = code := by
  unfold scalar? at found
  split at found
  next valid =>
    obtain rfl := Option.some.inj found
    rw [Char.ofNat, dif_pos valid]
    rfl
  next => contradiction

/-- A code point in digits of the grammar is read if it is a character. -/
theorem Digits.codePoint?_eq (written : Digits false 16 digits count code) :
    codePoint? digits = scalar? code := by
  unfold codePoint?
  rw [unsigned?_of_head? (written.head?_ne (by decide) (by decide)),
    (written.natural?_eq (by decide)).1]

theorem textUnits_singleton (char : Char) : textUnits [char] = codeUnits char.toNat := by
  simp [textUnits]

/-- Up to four digits write one code unit. -/
theorem Digits.codeUnits_eq (written : Digits separators 16 digits count code) (few : count ≤ 4) :
    codeUnits code = [code] :=
  if_pos (written.value_lt.trans_le (Nat.pow_le_pow_right (by decide) few))

theorem toNat_le (char : Char) : char.toNat ≤ 0x10FFFF := by
  rcases char.valid with low | ⟨_, high⟩
  · exact (Nat.lt_trans low (by decide)).le
  · exact Nat.le_of_lt_succ high

/-- A code point that is read without a sign is written in digits of the grammar. -/
theorem digits_of_codePoint? {taken : Nat}
    (read : (codePoint? digits).map (fun char => ([char], taken)) = some (value, length))
    (noSign : digits.head? ≠ some '+') :
    length = taken ∧ ∃ code ≤ 0x10FFFF, Digits false 16 digits digits.length code ∧
      textUnits value = codeUnits code := by
  obtain ⟨char, codePoint, pair⟩ := Option.map_eq_some_iff.mp read
  obtain ⟨rfl, rfl⟩ := Prod.mk.inj pair
  unfold codePoint? at codePoint
  rw [unsigned?_of_head? noSign] at codePoint
  split at codePoint
  next code natural =>
    obtain rfl := toNat_of_scalar? codePoint
    exact ⟨rfl, _, toNat_le char, digits_of_natural? (by decide) false natural,
      textUnits_singleton char⟩
  next => contradiction

/-- A code point in digits of the grammar is read as the code units of the grammar. -/
theorem Digits.of_codePoint? {taken : Nat} (written : Digits false 16 digits count code)
    (read : (codePoint? digits).map (fun char => ([char], taken)) = some (value, length)) :
    length = taken ∧ codeUnits code = textUnits value := by
  rw [written.codePoint?_eq] at read
  obtain ⟨char, found, pair⟩ := Option.map_eq_some_iff.mp read
  obtain ⟨rfl, rfl⟩ := Prod.mk.inj pair
  rw [textUnits_singleton, toNat_of_scalar? found]
  exact ⟨rfl, rfl⟩

/-! ## Escapes -/

theorem shortEscape?_of_unlisted (unlisted : char ∉ singleEscapes.map Prod.fst)
    (noZero : char ≠ '0') : shortEscape? char = none := by
  simp only [singleEscapes, List.map_cons, List.map_nil, List.mem_cons, List.not_mem_nil, or_false,
    not_or] at unlisted
  simp [shortEscape?, unlisted, noZero]

/-- A strict escape of one character that is not the end of a line. -/
theorem escapeSpelling_single (noCode : char ≠ 'x' ∧ char ≠ 'u') (noFeed : char ≠ '\n')
    (strict : isStrictEscape (char :: rest) = true) :
    EscapeSpelling [char] rest.head? (textUnits [(shortEscape? char).getD char]) := by
  simp only [isStrictEscape, beq_iff_eq, noCode, if_false] at strict
  rw [textUnits_singleton]
  split at strict
  next zero =>
    subst zero
    refine .zero fun next follows => ?_
    simpa [follows] using strict
  next noZero =>
    have listed : (singleEscapes.map Prod.fst).all (fun char =>
        (char, (shortEscape? char).getD char) ∈ singleEscapes) = true := by decide
    simp only [Bool.not_or, Bool.and_eq_true, Bool.not_eq_true', List.contains_eq_mem,
      decide_eq_false_iff_not, List.mem_cons, List.not_mem_nil, or_false, not_or] at strict
    obtain ⟨noDigit, noBreak⟩ := strict
    apply EscapeSpelling.character
    by_cases isListed : char ∈ singleEscapes.map Prod.fst
    · exact .single (of_decide_eq_true (List.all_eq_true.mp listed char isListed))
    · rw [shortEscape?_of_unlisted isListed noZero]
      refine .itself isListed noDigit noCode ?_
      simp [lineTerminators, noFeed, noBreak]

/-- A text in which a mark occurs is cut at the first one. -/
theorem eq_takeWhile_append (occurs : (text.takeWhile (· != mark)).length < text.length) :
    ∃ after, text = text.takeWhile (· != mark) ++ mark :: after := by
  have split := List.takeWhile_append_dropWhile (p := (· != mark)) (l := text)
  cases dropped : text.dropWhile (· != mark) with
  | nil =>
    rw [dropped, List.append_nil] at split
    rw [split] at occurs
    exact absurd occurs (Nat.lt_irrefl _)
  | cons char after =>
    have isMark : char = mark := by
      have stops := List.head?_dropWhile_not (· != mark) text
      rw [dropped] at stops
      simpa using stops
    rw [dropped, isMark] at split
    exact ⟨after, split.symm⟩

/-- A strict escape that is read is one of the grammar, with the same value. -/
theorem escapeSpelling_of_escape? (read : escape? text = some (value, length))
    (strict : isStrictEscape text = true) : ∃ spelling rest, text = spelling ++ rest ∧
      spelling.length = length ∧ EscapeSpelling spelling rest.head? (textUnits value) := by
  unfold escape? at read
  split at read
  next => contradiction
  next first second rest =>
    have noSign : [first, second].head? ≠ some '+' := by simpa [isStrictEscape] using strict
    obtain ⟨rfl, code, -, written, unitsEq⟩ := digits_of_codePoint? read noSign
    refine ⟨['x', first, second], rest, rfl, rfl, ?_⟩
    rw [unitsEq, written.codeUnits_eq (by simp)]
    exact .hexadecimal written
  next => contradiction
  next rest =>
    simp only at read
    split at read
    next closed =>
      obtain ⟨after, restEq⟩ := eq_takeWhile_append closed
      generalize rest.takeWhile (· != '}') = digits at read restEq
      subst restEq
      have noSign : digits.head? ≠ some '+' := by
        intro sign
        obtain ⟨others, rfl⟩ : ∃ others, digits = '+' :: others := by
          cases digits <;> simp_all
        simp [isStrictEscape] at strict
      obtain ⟨rfl, code, inRange, written, unitsEq⟩ := digits_of_codePoint? read noSign
      refine ⟨'u' :: '{' :: (digits ++ ['}']), after, by simp, by simp, ?_⟩
      rw [unitsEq]
      exact .codePoint written inRange
    next => contradiction
  next first second third fourth rest noBrace =>
    have noSign : [first, second, third, fourth].head? ≠ some '+' := by
      intro sign
      simp_all [isStrictEscape]
    obtain ⟨rfl, code, -, written, unitsEq⟩ := digits_of_codePoint? read noSign
    refine ⟨['u', first, second, third, fourth], rest, rfl, rfl, ?_⟩
    rw [unitsEq, written.codeUnits_eq (by simp)]
    exact .unit written
  next => contradiction
  next rest =>
    obtain ⟨rfl, rfl⟩ := Prod.mk.inj (Option.some.inj read)
    exact ⟨['\n'], rest, rfl, rfl, .continuation (by decide)⟩
  next char rest _ noX _ _ noU noFeed =>
    obtain ⟨rfl, rfl⟩ := Prod.mk.inj (Option.some.inj read)
    exact ⟨[char], rest, rfl, rfl, escapeSpelling_single ⟨noX, noU⟩ noFeed strict⟩

theorem escape?_single (noCode : char ≠ 'x' ∧ char ≠ 'u') (noFeed : char ≠ '\n') :
    escape? (char :: rest) = some ([(shortEscape? char).getD char], 1) := by
  unfold escape?
  split <;> simp_all

theorem escape?_unit {first second third fourth : Char} (noBrace : first ≠ '{') :
    escape? ('u' :: first :: second :: third :: fourth :: rest) =
      (codePoint? [first, second, third, fourth]).map fun char => ([char], 5) := by
  rw [escape?]
  exact noBrace

theorem escape?_codePoint (noBrace : '}' ∉ digits) :
    escape? ('u' :: '{' :: (digits ++ '}' :: rest)) =
      (codePoint? digits).map fun char => ([char], digits.length + 3) := by
  have inside : ∀ char ∈ digits, (char != '}') = true := by
    intro char membership
    rw [bne_iff_ne]
    rintro rfl
    exact noBrace membership
  have cut : (digits ++ '}' :: rest).takeWhile (· != '}') = digits := by
    rw [List.takeWhile_append_of_pos inside, List.takeWhile_cons_of_neg (by decide),
      List.append_nil]
  simp [escape?, cut]

/-- What the grammar says of a character after a backslash agrees with the reader. -/
theorem CharacterEscape.read {value : Char} (escape : CharacterEscape char value) :
    ((char ≠ 'x' ∧ char ≠ 'u') ∧ char ∉ lineTerminators ∧ char.isDigit = false) ∧
      (shortEscape? char).getD char = value := by
  cases escape with
  | single listed =>
    have table : singleEscapes.all (fun entry => ((entry.1 ≠ 'x' ∧ entry.1 ≠ 'u') ∧
        entry.1 ∉ lineTerminators ∧ entry.1.isDigit = false) ∧
        (shortEscape? entry.1).getD entry.1 = entry.2) = true := by decide
    exact of_decide_eq_true (List.all_eq_true.mp table _ listed)
  | itself unlisted noDigit noCode sameLine =>
    have noZero : char ≠ '0' := by
      rintro rfl
      contradiction
    rw [shortEscape?_of_unlisted unlisted noZero]
    exact ⟨⟨noCode, sameLine, noDigit⟩, rfl⟩

/-- How an escape of the grammar is read: with its value if it is strict, and otherwise with a
longer one.  A carriage return is read without the line feed after it. -/
theorem EscapeSpelling.read (escaped : EscapeSpelling spelling rest.head? units)
    (read : escape? (spelling ++ rest) = some (value, length)) :
    (length = spelling.length ∧
      (units = textUnits value ∧ isStrictEscape (spelling ++ rest) = true ∨
        units.length < (textUnits value).length)) ∨
    (spelling = ['\r', '\n'] ∧ value = ['\r'] ∧ length = 1 ∧ units = []) := by
  generalize next : rest.head? = following at escaped
  cases escaped with
  | continuation ends =>
    simp only [List.mem_cons, List.not_mem_nil, or_false] at ends
    rcases ends with rfl | rfl | rfl
    · obtain ⟨rfl, rfl⟩ := Prod.mk.inj (Option.some.inj read)
      exact .inl ⟨rfl, .inl ⟨rfl, by simp [isStrictEscape]⟩⟩
    · rw [List.singleton_append, escape?_single (by decide) (by decide)] at read
      obtain ⟨rfl, rfl⟩ := Prod.mk.inj (Option.some.inj read)
      exact .inl ⟨rfl, .inr (by decide)⟩
    · rw [List.singleton_append, escape?_single (by decide) (by decide)] at read
      obtain ⟨rfl, rfl⟩ := Prod.mk.inj (Option.some.inj read)
      exact .inl ⟨rfl, .inr (by decide)⟩
  | carriage alone =>
    rw [List.singleton_append, escape?_single (by decide) (by decide)] at read
    obtain ⟨rfl, rfl⟩ := Prod.mk.inj (Option.some.inj read)
    exact .inl ⟨rfl, .inr (by decide)⟩
  | carriageFeed =>
    rw [List.cons_append, escape?_single (by decide) (by decide)] at read
    obtain ⟨rfl, rfl⟩ := Prod.mk.inj (Option.some.inj read)
    exact .inr ⟨rfl, by decide, rfl, rfl⟩
  | @character char _ _ escape =>
    obtain ⟨⟨noCode, sameLine, noDigit⟩, rfl⟩ := escape.read
    have noZero : char ≠ '0' := by
      rintro rfl
      contradiction
    simp only [lineTerminators, List.mem_cons, List.not_mem_nil, or_false, not_or] at sameLine
    rw [List.singleton_append, escape?_single noCode sameLine.1] at read
    obtain ⟨rfl, rfl⟩ := Prod.mk.inj (Option.some.inj read)
    refine .inl ⟨rfl, .inl ⟨(textUnits_singleton _).symm, ?_⟩⟩
    simp [isStrictEscape, noCode, noZero, noDigit, sameLine]
  | zero noDigit =>
    rw [List.singleton_append, escape?_single (by decide) (by decide)] at read
    obtain ⟨rfl, rfl⟩ := Prod.mk.inj (Option.some.inj read)
    refine .inl ⟨rfl, .inl ⟨by decide, ?_⟩⟩
    cases following with
    | none => simp [isStrictEscape, next]
    | some char => simp [isStrictEscape, next, noDigit char rfl]
  | hexadecimal written =>
    obtain ⟨first, second, rfl⟩ := List.length_eq_two.mp (written.natural?_eq (by decide)).2
    have noSign : [first, second].head? ≠ some '+' := written.head?_ne (by decide) (by decide)
    have codePoint : escape? (['x', first, second] ++ rest) =
        (codePoint? [first, second]).map fun char => ([char], 3) := rfl
    rw [codePoint] at read
    obtain ⟨rfl, unitsEq⟩ := written.of_codePoint? read
    rw [written.codeUnits_eq (by decide)] at unitsEq
    exact .inl ⟨rfl, .inl ⟨unitsEq, by simpa [isStrictEscape] using noSign⟩⟩
  | unit written =>
    have length := (written.natural?_eq (by decide)).2
    obtain ⟨first, others, rfl⟩ := List.exists_cons_of_length_eq_add_one length
    obtain ⟨second, third, fourth, rfl⟩ := List.length_eq_three.mp (Nat.succ.inj length)
    have noSign : [first, second, third, fourth].head? ≠ some '+' :=
      written.head?_ne (by decide) (by decide)
    have noBrace : [first, second, third, fourth].head? ≠ some '{' :=
      written.head?_ne (by decide) (by decide)
    simp only [List.head?_cons, ne_eq, Option.some.injEq] at noSign noBrace
    simp only [List.cons_append, List.nil_append] at read ⊢
    rw [escape?_unit noBrace] at read
    obtain ⟨rfl, unitsEq⟩ := written.of_codePoint? read
    rw [written.codeUnits_eq (by decide)] at unitsEq
    exact .inl ⟨rfl, .inl ⟨unitsEq, by simp [isStrictEscape, noSign, noBrace]⟩⟩
  | @codePoint digits _ _ _ written inRange =>
    have noBrace : '}' ∉ digits := fun membership =>
      absurd (written.isAlphanum_of_mem (by decide) membership) (by decide)
    have noSign : digits.head? ≠ some '+' := written.head?_ne (by decide) (by decide)
    simp only [List.cons_append, List.append_assoc, List.nil_append] at read ⊢
    rw [escape?_codePoint noBrace] at read
    obtain ⟨rfl, unitsEq⟩ := written.of_codePoint? read
    obtain ⟨first, others, _, rfl, _⟩ := written.exists_head
    exact .inl ⟨by simp, .inl ⟨unitsEq, by simpa [isStrictEscape] using noSign⟩⟩

/-! ## Texts between marks -/

theorem textUnits_append (first second : List Char) :
    textUnits (first ++ second) = textUnits first ++ textUnits second :=
  List.flatMap_append

theorem textUnits_cons (char : Char) (rest : List Char) :
    textUnits (char :: rest) = codeUnits char.toNat ++ textUnits rest :=
  List.flatMap_cons

/-- A string that is read and strict is one of the grammar. -/
theorem spells_of_isStrictFrom (read : stringFrom mark skipped text = some value)
    (strict : isStrictFrom mark skipped text = true) :
    Spells mark (text.drop skipped) (textUnits value) := by
  induction text generalizing skipped value with
  | nil =>
    cases skipped <;> contradiction
  | cons char rest inductionHypothesis =>
    cases skipped with
    | succ skipped => exact inductionHypothesis read strict
    | zero =>
      rw [stringFrom] at read
      rw [isStrictFrom] at strict
      rw [List.drop_zero]
      split at read
      next isBackslash =>
        rw [if_pos isBackslash] at strict
        obtain rfl := eq_of_beq isBackslash
        split at read
        next => contradiction
        next chars length escaped =>
          obtain ⟨others, othersRead, rfl⟩ := Option.map_eq_some_iff.mp read
          simp only [escaped, Bool.and_eq_true] at strict
          obtain ⟨spelling, after, rfl, rfl, spelled⟩ :=
            escapeSpelling_of_escape? escaped strict.1
          have rest := inductionHypothesis othersRead strict.2
          rw [List.drop_left] at rest
          rw [textUnits_append]
          exact .escape spelled rest
      next noBackslash =>
        rw [if_neg noBackslash] at strict
        simp only [beq_iff_eq] at noBackslash
        split at read
        next => contradiction
        next noSubstitution =>
          split at read
          next closes =>
            obtain rfl := eq_of_beq closes
            split at read
            next ends =>
              obtain rfl := Option.some.inj read
              rw [List.isEmpty_iff.mp ends]
              exact .finish
            next => contradiction
          next noMark =>
            obtain ⟨others, othersRead, rfl⟩ := Option.map_eq_some_iff.mp read
            simp only [Bool.and_eq_true, Bool.or_eq_true, bne_iff_ne, beq_iff_eq] at strict
            have rest := inductionHypothesis othersRead strict.2
            rw [textUnits_cons]
            refine .raw ⟨by simpa using noMark, noBackslash, strict.1.1, ?_⟩ rest
            split
            next template => simpa [template] using noSubstitution
            next noTemplate => exact strict.1.2.resolve_left noTemplate

theorem stringFrom_raw (isRaw : IsRaw mark char rest.head?) :
    stringFrom mark 0 (char :: rest) = (stringFrom mark 0 rest).map (char :: ·) := by
  obtain ⟨noMark, noBackslash, -, rules⟩ := isRaw
  have noSubstitution :
      ¬ (mark == backtick && char == '$' && rest.head? == some '{') = true := by
    simp only [Bool.and_eq_true, beq_iff_eq]
    rintro ⟨⟨rfl, isDollar⟩, isBrace⟩
    exact rules ⟨isDollar, isBrace⟩
  rw [stringFrom, if_neg (by simpa using noBackslash), if_neg noSubstitution,
    if_neg (by simpa using noMark)]

/-- The reader takes the ends of lines as they are. -/
theorem stringFrom_lineEnd (quotes : mark ∈ [doubleQuote, singleQuote, backtick])
    (ends : char ∈ ['\r', '\n']) :
    stringFrom mark 0 (char :: rest) = (stringFrom mark 0 rest).map (char :: ·) := by
  have noBackslash : char ≠ backslash ∧ char ≠ '$' := by
    simp only [List.mem_cons, List.not_mem_nil, or_false] at ends
    rcases ends with rfl | rfl <;> decide
  have noMark : char ≠ mark := by
    simp only [List.mem_cons, List.not_mem_nil, or_false] at quotes ends
    rcases quotes with rfl | rfl | rfl <;> rcases ends with rfl | rfl <;> decide
  simp [stringFrom, noBackslash, noMark]

/-- A string of the grammar that is read has no shorter value than in the grammar, and the same
only if it is strict. -/
theorem Spells.read (quotes : mark ∈ [doubleQuote, singleQuote, backtick])
    (spelled : Spells mark text units) (read : stringFrom mark 0 text = some value) :
    units.length ≤ (textUnits value).length ∧
      (units = textUnits value → isStrictFrom mark 0 text = true) := by
  induction spelled generalizing value with
  | finish =>
    refine ⟨Nat.zero_le _, fun _ => ?_⟩
    simp only [List.mem_cons, List.not_mem_nil, or_false] at quotes
    rcases quotes with rfl | rfl | rfl <;> decide
  | @raw char rest units isRaw others inductionHypothesis =>
    rw [stringFrom_raw isRaw] at read
    obtain ⟨othersValue, othersRead, rfl⟩ := Option.map_eq_some_iff.mp read
    obtain ⟨atMost, equal⟩ := inductionHypothesis othersRead
    rw [textUnits_cons, List.length_append, List.length_append]
    refine ⟨Nat.add_le_add_left atMost _, fun same => ?_⟩
    obtain ⟨-, noBackslash, noReturn, rules⟩ := isRaw
    have sameLine : mark = backtick ∨ char ≠ '\n' := by
      split at rules
      next template => exact .inl template
      next => exact .inr rules
    rw [isStrictFrom, if_neg (by simpa using noBackslash), equal (List.append_cancel_left same),
      Bool.and_true]
    simpa using ⟨noReturn, sameLine⟩
  | carriage template alone others inductionHypothesis =>
    rw [stringFrom_lineEnd quotes (by decide)] at read
    obtain ⟨othersValue, othersRead, rfl⟩ := Option.map_eq_some_iff.mp read
    have atMost := (inductionHypothesis othersRead).1
    refine ⟨Nat.add_le_add_right atMost 1, fun same => ?_⟩
    injection same with different
    contradiction
  | carriageFeed template others inductionHypothesis =>
    rw [stringFrom_lineEnd quotes (by decide), stringFrom_lineEnd quotes (by decide)] at read
    simp only [Option.map_map, Option.map_eq_some_iff] at read
    obtain ⟨othersValue, othersRead, rfl⟩ := read
    have atMost := (inductionHypothesis othersRead).1
    have shorter := Nat.add_lt_add_right (Nat.lt_succ_of_le atMost) 1
    exact ⟨shorter.le, fun same => absurd (congrArg List.length same) shorter.ne⟩
  | @escape spelling rest units others escaped spelled inductionHypothesis =>
    cases escapeRead : escape? (spelling ++ rest) with
    | none => simp [stringFrom, escapeRead] at read
    | some pair =>
      obtain ⟨chars, length⟩ := pair
      rw [stringFrom_backslash escapeRead] at read
      obtain ⟨othersValue, othersRead, rfl⟩ := Option.map_eq_some_iff.mp read
      rw [textUnits_append]
      rcases escaped.read escapeRead with ⟨rfl, agrees⟩ | ⟨rfl, rfl, rfl, rfl⟩
      · rw [stringFrom_append] at othersRead
        obtain ⟨atMost, equal⟩ := inductionHypothesis othersRead
        rcases agrees with ⟨rfl, strict⟩ | shorter
        · rw [List.length_append, List.length_append]
          refine ⟨Nat.add_le_add_left atMost _, fun same => ?_⟩
          rw [isStrictFrom, if_pos (beq_self_eq_true backslash), escapeRead]
          simp only [strict, isStrictFrom_append, equal (List.append_cancel_left same),
            Bool.and_self]
        · have lessUnits := Nat.add_lt_add_of_lt_of_le shorter atMost
          rw [← List.length_append, ← List.length_append] at lessUnits
          exact ⟨lessUnits.le, fun same => absurd (congrArg List.length same) lessUnits.ne⟩
      · -- The line feed is read by itself after the carriage return.
        have feedRead : stringFrom mark 0 ('\n' :: rest) = some othersValue := othersRead
        rw [stringFrom_lineEnd quotes (by decide)] at feedRead
        obtain ⟨behind, behindRead, rfl⟩ := Option.map_eq_some_iff.mp feedRead
        have atMost := (inductionHypothesis behindRead).1
        have shorter := Nat.lt_add_right 1 (Nat.lt_succ_of_le atMost)
        exact ⟨shorter.le, fun same => absurd (congrArg List.length same) shorter.ne⟩

/-- Of the strings that are read, those of the grammar are the strict ones. -/
theorem spells_iff_isStrictFrom (quotes : mark ∈ [doubleQuote, singleQuote, backtick])
    (read : stringFrom mark 0 text = some value) :
    Spells mark text (textUnits value) ↔ isStrictFrom mark 0 text = true := by
  constructor
  · intro spelled
    exact (spelled.read quotes read).2 rfl
  · intro strict
    exact spells_of_isStrictFrom read strict

end Template.Literal
