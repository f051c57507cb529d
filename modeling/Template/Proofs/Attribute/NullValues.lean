import Template.Proofs.Attribute.Order
import Template.Proofs.Literal.Tokens

/-!
# Null values of `data-` attributes

When attributes are merged at run time, a `data-` attribute is left out if its value is null or
the text `null`.  At compile time only the source is there, and it is compared with the usual
spellings.  For sources that are literals the two agree up to two exceptions: a text between
backticks and a text with escapes may have the value `null` without being spelled like it
(`isOmitted_iff`).
-/

namespace Template

open Template.Text

namespace Literal

variable {mark : Char} {text value : List Char}

/-- The values that the merge helper leaves out. -/
def IsNullValue (literal : Literal) : Prop :=
  literal = .null ∨ literal = .text "null"

instance (literal : Literal) : Decidable literal.IsNullValue :=
  inferInstanceAs (Decidable (_ ∨ _))

theorem Recognised.exists_mark {value : String} (recognised : Recognised text (.text value)) :
    ∃ mark rest, text = mark :: rest ∧ mark ∈ [doubleQuote, singleQuote, backtick] ∧
      stringFrom mark 0 rest = some value.toList := by
  cases recognised with
  | text quotes read => exact ⟨_, _, rfl, quotes, by rwa [String.toList_ofList]⟩

/-- Without a backslash all characters stand for themselves. -/
theorem eq_append_of_stringFrom (noBackslash : backslash ∉ text)
    (read : stringFrom mark 0 text = some value) : text = value ++ [mark] := by
  induction text generalizing value with
  | nil => contradiction
  | cons char rest inductionHypothesis =>
    rw [List.mem_cons, not_or] at noBackslash
    rw [stringFrom, if_neg (by simpa using Ne.symm noBackslash.1)] at read
    split at read
    next => contradiction
    next =>
      split at read
      next closes =>
        split at read
        next ends =>
          obtain rfl := Option.some.inj read
          rw [eq_of_beq closes, List.isEmpty_iff.mp ends]
          rfl
        next => contradiction
      next =>
        obtain ⟨others, othersRead, rfl⟩ := Option.map_eq_some_iff.mp read
        rw [inductionHypothesis noBackslash.2 othersRead]
        rfl

/-- The spellings of a null value as a literal, as long as every character stands for itself. -/
theorem Recognised.mem_of_isNullValue {literal : Literal} (recognised : Recognised text literal)
    (isNull : literal.IsNullValue) (noBackslash : backslash ∉ text) (noBacktick : backtick ∉ text) :
    text ∈ ["null".toList, "\"null\"".toList, "'null'".toList] := by
  rcases isNull with rfl | rfl
  · cases recognised with
    | null => decide
  · obtain ⟨mark, rest, rfl, quotes, read⟩ := recognised.exists_mark
    rw [List.mem_cons, not_or] at noBackslash noBacktick
    rw [eq_append_of_stringFrom noBackslash.2 read]
    simp only [List.mem_cons, List.not_mem_nil, or_false] at quotes
    rcases quotes with rfl | rfl | rfl
    · decide
    · decide
    · exact absurd rfl noBacktick.1

end Literal

namespace Attribute

variable {given : Attribute} {literal : Literal}

/-- A `data-` attribute with a literal is left out if its value is null and neither a backtick
nor a backslash disguises it. -/
theorem isOmitted_iff (isData : "data-".toList <+: given.name.toList)
    (read : Literal.read? given.value.text = some literal) :
    given.IsOmitted ↔ literal.IsNullValue ∧
      backslash ∉ strip given.value.text.toList ∧ backtick ∉ strip given.value.text.toList := by
  rw [Literal.read?] at read
  have spelled : trim given.value.text ∈ nullSpellings ↔
      strip given.value.text.toList ∈ nullSpellings.map String.toList := by
    rw [← String.toList_ofList (l := strip given.value.text.toList),
      List.mem_map_of_injective fun _ _ => String.toList_inj.mp]
    rfl
  rw [IsOmitted, and_iff_right isData, spelled]
  generalize strip given.value.text.toList = text at read
  constructor
  · intro listed
    have cases : text = "null".toList ∨ text = "undefined".toList ∨ text = "\"null\"".toList ∨
        text = "'null'".toList := by simpa [nullSpellings] using listed
    rcases cases with rfl | rfl | rfl | rfl
    · obtain rfl : Literal.null = literal := Option.some.inj read
      exact ⟨.inl rfl, by decide, by decide⟩
    · contradiction
    · obtain rfl : Literal.text "null" = literal := Option.some.inj read
      exact ⟨.inr rfl, by decide, by decide⟩
    · obtain rfl : Literal.text "null" = literal := Option.some.inj read
      exact ⟨.inr rfl, by decide, by decide⟩
  · rintro ⟨isNull, noBackslash, noBacktick⟩
    have recognised := Literal.recognised_of_ofChars? read
    have sublist : ["null".toList, "\"null\"".toList, "'null'".toList] ⊆
        nullSpellings.map String.toList := by decide
    exact sublist (recognised.mem_of_isNullValue isNull noBackslash noBacktick)

theorem not_isClass_of_isData (isData : "data-".toList <+: given.name.toList) :
    ¬ given.IsClass := by
  rintro (isClass | isClass) <;>
  · rw [isClass] at isData
    exact absurd isData (by decide)

end Attribute

namespace Attributes

variable {given : Attribute} (before after : List Attribute) (preamble : Preamble)

theorem objectOf_of_isOmitted (omitted : given.IsOmitted) :
    ((objectOf (before ++ given :: after)).run preamble).1 =
      ((objectOf (before ++ after)).run preamble).1 := by
  have noClass := Attribute.not_isClass_of_isData omitted.1
  have noProperty : property? given = none := by
    rw [property?_eq, if_neg fun kept => kept.2 omitted]
  have sameTerms : classTerms (before ++ given :: after) = classTerms (before ++ after) := by
    rw [classTerms_eq_flatMap, classTerms_eq_flatMap (before ++ after)]
    simp [noClass]
  rw [ObjectLiteral.mk.injEq, props_objectOf, props_objectOf, sameTerms]
  simp [noProperty]

theorem sources_objectOf_append :
    ((objectOf (before ++ after)).run preamble).1.sources =
      ((objectOf before).run preamble).1.sources ++ ((objectOf after).run preamble).1.sources := by
  rw [sources_objectOf, sources_objectOf, sources_objectOf, List.filter_append, List.map_append]

theorem sources_objectOf_cons (noClass : ¬ given.IsClass) (kept : ¬ given.IsOmitted) :
    ((objectOf (given :: after)).run preamble).1.sources =
      (AttributeKey.normalized given.name, given.value.text) ::
        ((objectOf after).run preamble).1.sources := by
  rw [sources_objectOf, sources_objectOf]
  simp [noClass, kept]

/-- A `data-` attribute with a literal is left out of the object exactly if its value is null, as
the merge helper has it, and neither a backtick nor a backslash disguises it.  Otherwise it has
its source under its own name. -/
theorem objectOf_omits_iff (given : Attribute) (literal : Literal)
    (isData : "data-".toList <+: given.name.toList)
    (read : Literal.read? given.value.text = some literal)
    (before after : List Attribute) (preamble : Preamble) :
    (((objectOf (before ++ given :: after)).run preamble).1 =
        ((objectOf (before ++ after)).run preamble).1 ↔
      literal.IsNullValue ∧ backslash ∉ strip given.value.text.toList ∧
        backtick ∉ strip given.value.text.toList) ∧
    (((objectOf (before ++ given :: after)).run preamble).1 ≠
        ((objectOf (before ++ after)).run preamble).1 →
      ((objectOf (before ++ given :: after)).run preamble).1.sources =
        ((objectOf before).run preamble).1.sources ++ (given.name, given.value.text) ::
          ((objectOf after).run preamble).1.sources) := by
  have noClass := Attribute.not_isClass_of_isData isData
  have keptSources (kept : ¬ given.IsOmitted) :
      ((objectOf (before ++ given :: after)).run preamble).1.sources =
        ((objectOf before).run preamble).1.sources ++ (given.name, given.value.text) ::
          ((objectOf after).run preamble).1.sources := by
    rw [sources_objectOf_append, sources_objectOf_cons after preamble noClass kept,
      AttributeKey.normalized_of_isData isData]
  rw [← Attribute.isOmitted_iff isData read]
  refine ⟨⟨?_, objectOf_of_isOmitted before after preamble⟩, ?_⟩
  · intro same
    by_contra kept
    have lengths := congrArg List.length (keptSources kept)
    rw [same, sources_objectOf_append, List.length_append, List.length_append,
      List.length_cons] at lengths
    omega
  · intro different
    exact keptSources fun omitted => different (objectOf_of_isOmitted before after preamble omitted)

/-- A `data-` attribute with a source for its value. -/
def dataAttribute (source : String) : Attribute :=
  { name := "data-a", value := .source source }

theorem objectOf_omits_iff_quoted :
    ((objectOf [dataAttribute " 'null' "]).run {}).1 = ((objectOf []).run {}).1 ∧
    ((objectOf [dataAttribute "'null\\x00'"]).run {}).1.sources = [("data-a", "'null\\x00'")] := by
  have null : Literal.read? " 'null' " = some (.text "null") := by decide +kernel
  have longer : Literal.read? "'null\\x00'" = some (.text "null\x00") := by decide +kernel
  obtain ⟨omitted, -⟩ :=
    objectOf_omits_iff (dataAttribute " 'null' ") _ (by decide) null [] [] {}
  obtain ⟨omittedLonger, kept⟩ :=
    objectOf_omits_iff (dataAttribute "'null\\x00'") _ (by decide) longer [] [] {}
  exact ⟨omitted.mpr (by decide +kernel), kept (mt omittedLonger.mp (by decide +kernel))⟩

/-- Between backticks, and with an escape for its first letter, the text `null` is kept. -/
theorem objectOf_omits_iff_disguised :
    (Literal.read? "`null`" = some (.text "null") ∧
      ((objectOf [dataAttribute "`null`"]).run {}).1.sources = [("data-a", "`null`")]) ∧
    (Literal.read? "'\\u006eull'" = some (.text "null") ∧
      ((objectOf [dataAttribute "'\\u006eull'"]).run {}).1.sources =
        [("data-a", "'\\u006eull'")]) := by
  decide +kernel

end Attributes

end Template
