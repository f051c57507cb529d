import Template.Proofs.Expressions
import Template.Proofs.Fragment.Splitting
import Template.Proofs.Literal.Quoting

/-!
# The entries of printed objects

A printed object falls apart into its entries at the commas outside all brackets, strings
and comments.  Keys and class names are quoted, and the source of a class is put in
parentheses, so they may say anything; a value that is kept as it is must not have a comma of
its own (`PropertyValue.Separable`).

What an entry begins with in quotes is its key, so the printed object tells the keys and the
printed values, in order.
-/

namespace Template

open Fragment (Closed Undivided)

/-! ## Separable values -/

/-- A value that is printed without a comma between entries: a source without one, or a class
name with closed sources. -/
def PropertyValue.Separable : PropertyValue → Prop
  | .source code => Closed code ∧ Fragment.topLevelParts? ',' code = some [code]
  | .classes terms => ∀ term ∈ terms, ∀ source ∈ term.fragments, Closed source

/-- An object all of whose values are separable. -/
def ObjectLiteral.Separable (object : ObjectLiteral) : Prop :=
  ∀ property ∈ object.props, property.2.Separable

instance (value : PropertyValue) : Decidable value.Separable :=
  match value with
  | .source _ => inferInstanceAs (Decidable (_ ∧ _))
  | .classes terms =>
      inferInstanceAs (Decidable (∀ term ∈ terms, ∀ source ∈ term.fragments, Closed source))

instance (object : ObjectLiteral) : Decidable object.Separable :=
  inferInstanceAs (Decidable (∀ property ∈ object.props, property.2.Separable))

theorem PropertyValue.Separable.closed {value : PropertyValue} (separable : value.Separable) :
    ∀ source ∈ value.fragments, Closed source := by
  cases value with
  | source code =>
      intro source membership
      obtain rfl := List.mem_singleton.mp membership
      exact separable.1
  | classes terms =>
      intro source membership
      obtain ⟨term, termMembership, occurs⟩ := List.mem_flatMap.mp membership
      exact separable term termMembership source occurs

theorem ObjectLiteral.Separable.closed {object : ObjectLiteral} (separable : object.Separable) :
    ∀ source ∈ object.fragments, Closed source := by
  intro source membership
  obtain ⟨property, propertyMembership, occurs⟩ := List.mem_flatMap.mp membership
  exact (separable property propertyMembership).closed source occurs

/-! ## Undivided entries -/

theorem ClassTerm.undivided_render {term : ClassTerm}
    (closed : ∀ source ∈ term.fragments, Closed source) : Undivided ',' term.render.toList := by
  cases term with
  | static name =>
      rw [render, Text.quote, String.toList_ofList]
      exact Undivided.quoteChars name.toList
  | dynamic source =>
      have printed : (render (.dynamic source)).toList =
          "__class".toList ++ '(' :: (source.toList ++ [')']) := by
        simp [render, Helper.identifier, Helper.name]
      have balanced := Fragment.closed_iff_balanced.mp (closed source List.mem_cons_self)
      rw [printed]
      exact Undivided.plain_append (Fragment.forall_not_mem_specials (by decide)) (by decide)
        (Undivided.group rfl (by decide) balanced)

/-- The gap between the terms of a class name may stand between any undivided texts. -/
theorem ClassTerm.undivided_gap {text : List Char} (undivided : Undivided ',' text) :
    Undivided ',' (" + \" \" + ".toList ++ text) := by
  have plus {text : List Char} (undivided : Undivided ',' text) :
      Undivided ',' (" + ".toList ++ text) :=
    Undivided.plain_append (Fragment.forall_not_mem_specials (by decide)) (by decide) undivided
  have space : Undivided ',' (Text.quoteChars [' '] ++ (" + ".toList ++ text)) :=
    (Undivided.quoteChars [' ']).append (plus undivided) rfl
  exact plus space

theorem PropertyValue.undivided_render {value : PropertyValue} (separable : value.Separable) :
    Undivided ',' value.render.toList := by
  cases value with
  | source code => exact Fragment.undivided_iff.mpr separable
  | classes terms =>
      rw [render, String.toList_intercalate]
      refine Undivided.intercalate (fun _ => rfl) (fun _ => ClassTerm.undivided_gap) ?_
      intro text membership
      simp only [List.map_map, List.mem_map, Function.comp_apply] at membership
      obtain ⟨term, termMembership, rfl⟩ := membership
      exact ClassTerm.undivided_render (separable term termMembership)

/-! ## Entries -/

/-- The source of an entry with a key and the source of its value. -/
def renderEntry (entry : String × String) : String :=
  Text.quote entry.1 ++ ": " ++ entry.2

theorem renderEntry_injective : Function.Injective renderEntry := by
  intro first second same
  simp only [renderEntry, String.append_assoc] at same
  obtain ⟨keyEq, restEq⟩ := Text.quote_append_inj same
  exact Prod.ext keyEq (String.append_right_inj ": " |>.mp restEq)

theorem undivided_renderEntry {entry : String × String} (undivided : Undivided ',' entry.2.toList) :
    Undivided ',' (renderEntry entry).toList := by
  have printed : (renderEntry entry).toList =
      Text.quoteChars entry.1.toList ++ (": ".toList ++ entry.2.toList) := by
    simp [renderEntry, Text.quote]
  have behindKey : Undivided ',' (": ".toList ++ entry.2.toList) :=
    Undivided.plain_append (Fragment.forall_not_mem_specials (by decide)) (by decide) undivided
  rw [printed]
  exact (Undivided.quoteChars entry.1.toList).append behindKey rfl

namespace ObjectLiteral

/-- The keys of an object with the sources of their values. -/
def entries (object : ObjectLiteral) : List (String × String) :=
  object.props.map fun property => (property.1, property.2.render)

variable {object : ObjectLiteral}

theorem render_eq (object : ObjectLiteral) :
    object.render = "\x7b" ++ ", ".intercalate (object.entries.map renderEntry) ++ "\x7d" := by
  rw [render, entries, List.map_map]
  rfl

/-- The brace that a printed object begins with is closed by its last character. -/
theorem matchingClose?_braces (separable : object.Separable) :
    Fragment.matchingClose? object.render = some (Text.byteSize object.render.toList - 1) := by
  have balanced : Fragment.Balanced (", ".intercalate
      (object.props.map fun property => renderProperty property.1 property.2)).toList :=
    leads_props separable.closed rfl []
  have braces : Fragment.closer? '{' = some '}' := rfl
  have closes : Fragment.matchingClose? object.render = some _ := balanced.matchingClose?_eq braces
  have size : Text.byteSize object.render.toList = 1 + Text.byteSize (", ".intercalate
      (object.props.map fun property => renderProperty property.1 property.2)).toList + 1 := by
    rw [render, String.toList_append, String.toList_append, Text.byteSize_append,
      Text.byteSize_append]
    rfl
  rw [closes, size, Nat.add_sub_cancel]
  rfl

/-- Without its braces a printed object falls apart into its entries. -/
theorem topLevelParts?_entries {first : String × String} {rest : List (String × String)}
    (entriesEq : object.entries = first :: rest) (separable : object.Separable) :
    (Fragment.unwrap? '{' '}' object.render).bind (Fragment.topLevelParts? ',') =
      some (renderEntry first :: (rest.map renderEntry).map (" " ++ ·)) := by
  have undivided : ∀ source ∈ (first :: rest).map renderEntry, Undivided ',' source.toList := by
    intro source membership
    obtain ⟨entry, entryMembership, rfl⟩ := List.mem_map.mp membership
    rw [← entriesEq] at entryMembership
    obtain ⟨property, propertyMembership, rfl⟩ := List.mem_map.mp entryMembership
    exact undivided_renderEntry
      (PropertyValue.undivided_render (separable property propertyMembership))
  have blank : ∀ char ∈ " ".toList, Text.isBlank char = true := List.all_eq_true.mp (by decide)
  have apart := Fragment.topLevelParts?_intercalate (by decide) (by decide) blank (by decide)
    undivided
  rw [render_eq, entriesEq]
  rw [Fragment.unwrap?_wrapped '{' '}']
  exact apart

theorem exists_cons_entries (nonempty : object.props ≠ []) :
    ∃ first rest, object.entries = first :: rest := by
  apply List.exists_cons_of_ne_nil
  simpa [entries] using nonempty

/-- A printed object tells its keys and the sources of its values: its braces belong together,
and the commas between them that are outside all brackets, strings and comments are those
between its entries. -/
theorem topLevelParts?_render (object : ObjectLiteral) (nonempty : object.props ≠ [])
    (separable : object.Separable) :
    Fragment.matchingClose? object.render = some (Text.byteSize object.render.toList - 1) ∧
      (Fragment.unwrap? '{' '}' object.render).bind (Fragment.topLevelParts? ',') =
        some (object.entries.mapIdx fun index entry =>
          (if index = 0 then "" else " ") ++ Text.quote entry.1 ++ ": " ++ entry.2) ∧
      ∀ other : ObjectLiteral, other.props ≠ [] → other.Separable →
        other.render = object.render → other.entries = object.entries := by
  obtain ⟨first, rest, entriesEq⟩ := exists_cons_entries nonempty
  have parts := topLevelParts?_entries entriesEq separable
  refine ⟨matchingClose?_braces separable, ?_, ?_⟩
  · rw [parts, entriesEq]
    refine congrArg some (List.ext_getElem? fun index => ?_)
    cases index with
    | zero => simp [renderEntry]
    | succ index => simp [renderEntry, String.append_assoc, Function.comp_def]
  · intro other otherNonempty otherSeparable same
    obtain ⟨otherFirst, otherRest, otherEntriesEq⟩ := exists_cons_entries otherNonempty
    rw [← same, topLevelParts?_entries otherEntriesEq otherSeparable, Option.some.injEq,
      List.cons.injEq] at parts
    have spaceInjective : Function.Injective (" " ++ · : String → String) :=
      fun _ _ same => String.append_right_inj " " |>.mp same
    have firstEq : otherFirst = first := renderEntry_injective parts.1
    have restEq : otherRest = rest :=
      renderEntry_injective.list_map (spaceInjective.list_map parts.2)
    rw [otherEntriesEq, entriesEq, firstEq, restEq]

/-- Commas, braces, quotes and comments in keys, class names and values. -/
def hiddenEntries : ObjectLiteral where
  props := [("a,\"\x7d", .source "f(1, 2)"), ("/*: ", .classes [.static ",\x7b", .dynamic "x, y"]),
    ("", .source "/"), ("style", .source "\x7b\"k\": [1, ','] // ,\n\x7d")]

theorem topLevelParts?_render_hiddenEntries :
    hiddenEntries.props ≠ [] ∧ hiddenEntries.Separable ∧
      Fragment.matchingClose? hiddenEntries.render =
        some (Text.byteSize hiddenEntries.render.toList - 1) ∧
      (Fragment.unwrap? '{' '}' hiddenEntries.render).bind (Fragment.topLevelParts? ',') =
        some ["\"a,\\\"\x7d\": f(1, 2)", " \"/*: \": \",\x7b\" + \" \" + __class(x, y)",
          " \"\": /", " \"style\": \x7b\"k\": [1, ','] // ,\n\x7d"] := by
  have nonempty : hiddenEntries.props ≠ [] := by decide
  have separable : hiddenEntries.Separable := by decide +kernel
  obtain ⟨closes, parts, -⟩ := topLevelParts?_render hiddenEntries nonempty separable
  exact ⟨nonempty, separable, closes, parts.trans (by decide +kernel)⟩

end ObjectLiteral

end Template
