import Mathlib.Data.List.Nodup
import Template.Proofs.Translation

/-!
# Declarations of helpers

The preamble of a generated program declares the helpers that the program calls:
all of them, each once, in the order of their first call, and no others.  Sources
are declared with the class helper in front of the merging helper, which calls it;
`Helper.joinBeforeMerge` says where it goes.
-/

namespace Template

section AppendNew

variable {α : Type} [BEq α] [LawfulBEq α]

theorem appendNew_eraseDups (list : List α) (entry : α) :
    appendNew list.eraseDups entry = (list ++ [entry]).eraseDups := by
  rw [List.eraseDups_append, appendNew]
  by_cases membership : entry ∈ list
  · simp [membership, List.removeAll]
  · simp [membership, List.removeAll, List.eraseDups_cons]

/-- Appending the entries that are new keeps the first occurrence of each. -/
theorem foldl_appendNew_eraseDups (list entries : List α) :
    entries.foldl appendNew list.eraseDups = (list ++ entries).eraseDups := by
  induction entries generalizing list with
  | nil => rw [List.foldl_nil, List.append_nil]
  | cons entry rest inductionHypothesis =>
      rw [List.foldl_cons, appendNew_eraseDups, inductionHypothesis, List.append_assoc,
        List.singleton_append]

theorem nodup_appendNew {list : List α} (nodup : list.Nodup) (entry : α) :
    (appendNew list entry).Nodup := by
  unfold appendNew
  split
  · exact nodup
  · rename_i absent
    rw [List.nodup_append]
    refine ⟨nodup, by simp, ?_⟩
    intro first firstMem second secondMem equal
    rw [List.mem_singleton] at secondMem
    subst first second
    exact absent (by simpa using firstMem)

theorem nodup_eraseDups (list : List α) : list.eraseDups.Nodup := by
  have nodupFold : ∀ (start : List α), start.Nodup → (list.foldl appendNew start).Nodup := by
    induction list with
    | nil => exact fun start nodup => nodup
    | cons entry rest inductionHypothesis =>
        exact fun start nodup => inductionHypothesis _ (nodup_appendNew nodup entry)
  have fold := foldl_appendNew_eraseDups [] list
  rw [List.nil_append] at fold
  rw [← fold]
  exact nodupFold _ List.Pairwise.nil

theorem filter_ne_of_not_mem {list : List α} {entry : α} (absent : entry ∉ list) :
    list.filter (fun other => !other == entry) = list := by
  rw [List.filter_eq_self]
  intro other membership
  have different : other ≠ entry := fun equal => absent (equal ▸ membership)
  simp [different]

theorem eraseDups_of_nodup {list : List α} (nodup : list.Nodup) : list.eraseDups = list := by
  induction list with
  | nil => rfl
  | cons first rest inductionHypothesis =>
      rw [List.nodup_cons] at nodup
      rw [List.eraseDups_cons, filter_ne_of_not_mem nodup.1, inductionHypothesis nodup.2]

end AppendNew

namespace Preamble

/-- The helpers noted from nothing are the first occurrences of those needed. -/
theorem helpers_needAll (helpers : List Helper) :
    (({} : Preamble).needAll helpers).helpers = helpers.eraseDups := by
  have step : ∀ (preamble : Preamble),
      (preamble.needAll helpers).helpers = helpers.foldl appendNew preamble.helpers := by
    induction helpers with
    | nil => exact fun preamble => rfl
    | cons helper rest inductionHypothesis =>
        exact fun preamble => inductionHypothesis (preamble.need helper)
  rw [step]
  exact foldl_appendNew_eraseDups [] helpers

/-- Helpers with those they call in front of each, as often as they are called. -/
def withDependencies (helpers : List Helper) : List Helper :=
  helpers.flatMap fun helper => helper.dependencies ++ [helper]

theorem inlineOrder_eq_eraseDups (helpers : List Helper) :
    inlineOrder helpers = (withDependencies helpers).eraseDups := by
  have step : ∀ (list : List Helper),
      helpers.foldl appendAfterNeeds list.eraseDups =
        (list ++ withDependencies helpers).eraseDups := by
    induction helpers with
    | nil => simp [withDependencies]
    | cons helper rest inductionHypothesis =>
        intro list
        rw [List.foldl_cons, appendAfterNeeds, foldl_appendNew_eraseDups, appendNew_eraseDups,
          inductionHypothesis]
        simp only [withDependencies, List.flatMap_cons, List.append_assoc]
  exact step []

end Preamble

namespace Helper

/-- Helpers in order, with the class helper directly in front of the merging helper
unless it comes earlier, and not once more after it. -/
def joinBeforeMerge : List Helper → List Helper
  | [] => []
  | .iterate :: rest => .iterate :: joinBeforeMerge rest
  | .join :: rest => .join :: rest
  | .merge :: rest => .join :: .merge :: rest.filter (· != .join)

/-- The class helper precedes the merging helper. -/
theorem join_mem_before_merge {helpers before after : List Helper}
    (split : joinBeforeMerge helpers = before ++ .merge :: after) : .join ∈ before := by
  induction helpers generalizing before with
  | nil => simp [joinBeforeMerge] at split
  | cons helper rest inductionHypothesis =>
      cases helper with
      | iterate =>
          cases before with
          | nil => simp [joinBeforeMerge] at split
          | cons first others =>
              simp only [joinBeforeMerge, List.cons_append, List.cons.injEq] at split
              exact List.mem_cons_of_mem first (inductionHypothesis split.2)
      | join | merge =>
          cases before with
          | nil => simp [joinBeforeMerge] at split
          | cons first others =>
              simp only [joinBeforeMerge, List.cons_append, List.cons.injEq] at split
              rw [← split.1]
              exact List.mem_cons_self

theorem source_injective : Function.Injective source := by
  intro first second equal
  cases first <;> cases second <;> first | rfl | exact absurd equal (by decide +kernel)

end Helper

namespace Preamble

/-- The first letter of its name tells a helper from the others. -/
theorem requireLine_injective (module : String) : Function.Injective (requireLine module) := by
  intro first second equal
  have letters := congrArg (fun text => text.toList[6]?) equal
  cases first <;> cases second <;>
    simp [requireLine, Helper.identifier, Helper.name] at letters ⊢

/-- The class helper is the only one that is put in front of others. -/
theorem filter_withDependencies (helpers : List Helper) :
    (withDependencies helpers).filter (· != .join) = helpers.filter (· != .join) := by
  induction helpers with
  | nil => rfl
  | cons helper rest inductionHypothesis =>
      rw [withDependencies, List.flatMap_cons, List.filter_append, ← withDependencies,
        inductionHypothesis]
      cases helper <;> rfl

theorem iterate_mem_withDependencies {helpers : List Helper}
    (membership : .iterate ∈ withDependencies helpers) : .iterate ∈ helpers := by
  rw [withDependencies, List.mem_flatMap] at membership
  obtain ⟨helper, helperMem, found⟩ := membership
  cases helper <;> simp_all [Helper.dependencies]

/-- For helpers without repetition, putting those they call in front of each comes
down to one insertion. -/
theorem eraseDups_withDependencies {helpers : List Helper} (nodup : helpers.Nodup) :
    (withDependencies helpers).eraseDups = Helper.joinBeforeMerge helpers := by
  induction helpers with
  | nil => rfl
  | cons helper rest inductionHypothesis =>
      rw [List.nodup_cons] at nodup
      have restFiltered : ((withDependencies rest).filter (· != .join)).eraseDups =
          rest.filter (· != .join) := by
        rw [filter_withDependencies]
        exact eraseDups_of_nodup (nodup.2.filter _)
      cases helper with
      | iterate =>
          have absent : .iterate ∉ withDependencies rest :=
            fun membership => nodup.1 (iterate_mem_withDependencies membership)
          change (Helper.iterate :: withDependencies rest).eraseDups = _
          rw [List.eraseDups_cons, filter_ne_of_not_mem absent, inductionHypothesis nodup.2]
          rfl
      | join =>
          change (Helper.join :: withDependencies rest).eraseDups = _
          rw [List.eraseDups_cons]
          refine congrArg (Helper.join :: ·) (restFiltered.trans ?_)
          exact filter_ne_of_not_mem nodup.1
      | merge =>
          change (Helper.join :: Helper.merge :: withDependencies rest).eraseDups = _
          have absent : .merge ∉ (withDependencies rest).filter (· != .join) := by
            rw [filter_withDependencies]
            exact fun membership => nodup.1 ((List.mem_filter.mp membership).1)
          rw [List.eraseDups_cons, List.filter_cons_of_pos (by rfl), List.eraseDups_cons]
          refine congrArg (Helper.join :: Helper.merge :: ·) (Eq.trans ?_ restFiltered)
          exact congrArg List.eraseDups (filter_ne_of_not_mem absent)

end Preamble

namespace Linkage

/-- The helpers that are declared, in order, for helpers that are used. -/
def declared (mode : Linkage) (used : List Helper) : List Helper :=
  match mode with
  | .require => used.eraseDups
  | .inline => Helper.joinBeforeMerge used.eraseDups

/-- The declaration of a helper. -/
def declaration (mode : Linkage) (module : String) : Helper → String :=
  match mode with
  | .require => Preamble.requireLine module
  | .inline => Helper.source

theorem declarations_needAll (mode : Linkage) (module : String) (used : List Helper) :
    (({} : Preamble).needAll used).declarations mode module =
      (mode.declared used).map (mode.declaration module) := by
  cases mode with
  | require => rw [Preamble.declarations, Preamble.helpers_needAll]; rfl
  | inline =>
      rw [Preamble.declarations, Preamble.helpers_needAll, Preamble.inlineOrder_eq_eraseDups,
        Preamble.eraseDups_withDependencies (nodup_eraseDups used)]
      rfl

theorem nodup_declared (mode : Linkage) (used : List Helper) : (mode.declared used).Nodup := by
  cases mode with
  | require => exact nodup_eraseDups used
  | inline =>
      rw [declared, ← Preamble.eraseDups_withDependencies (nodup_eraseDups used)]
      exact nodup_eraseDups _

/-- If the helpers used include those they call, they are the helpers declared. -/
theorem mem_declared (mode : Linkage) {used : List Helper}
    (closed : .merge ∈ used → .join ∈ used) (helper : Helper) :
    helper ∈ mode.declared used ↔ helper ∈ used := by
  cases mode with
  | require => exact List.mem_eraseDups
  | inline =>
      rw [declared, ← Preamble.eraseDups_withDependencies (nodup_eraseDups used),
        List.mem_eraseDups, Preamble.withDependencies, List.mem_flatMap]
      constructor
      · rintro ⟨other, otherMem, found⟩
        rw [List.mem_eraseDups] at otherMem
        cases other with
        | iterate | join => simp_all [Helper.dependencies]
        | merge =>
            simp only [Helper.dependencies, List.cons_append, List.nil_append, List.mem_cons,
              List.not_mem_nil, or_false] at found
            rcases found with rfl | rfl
            · exact closed otherMem
            · exact otherMem
      · intro membership
        exact ⟨helper, List.mem_eraseDups.mpr membership, by simp⟩

theorem declaration_injective (mode : Linkage) (module : String) :
    Function.Injective (mode.declaration module) := by
  cases mode with
  | require => exact Preamble.requireLine_injective module
  | inline => exact Helper.source_injective

end Linkage

/-- Attributes that call the merging helper call the class helper, too. -/
theorem Attributes.join_mem_uses {attributes : Attributes}
    (membership : .merge ∈ attributes.uses) : .join ∈ attributes.uses := by
  cases attributes with
  | merge arguments => simp [Attributes.uses]
  | object literal =>
      simp only [Attributes.uses, ObjectLiteral.uses, List.mem_flatMap] at membership
      obtain ⟨⟨key, value⟩, -, found⟩ := membership
      cases value with
      | source => simp [PropertyValue.uses] at found
      | classes terms =>
          rw [PropertyValue.uses, List.mem_flatMap] at found
          obtain ⟨term, -, found⟩ := found
          cases term <;> simp [ClassTerm.uses] at found

/-- A program that calls the merging helper calls the class helper, too. -/
theorem Program.merge_mem_uses {program : Program} (membership : .merge ∈ program.uses) :
    .join ∈ program.uses := by
  simp only [Program.uses, Stmt.usesIn, List.mem_flatMap] at membership ⊢
  obtain ⟨stmt, stmtMem, found⟩ := membership
  refine ⟨stmt, stmtMem, ?_⟩
  cases stmt with
  | sentinel sentinel =>
      cases sentinel with
      | element tag attributes children =>
          cases attributes with
          | none => simp [Stmt.ownUses, Attributes.usesOfOption] at found
          | some attributes => exact Attributes.join_mem_uses found
      | text | unescape => simp [Stmt.ownUses] at found
  | code | scope | branch | loop | each | lineComment | blockComment | mixinBlock =>
      simp [Stmt.ownUses] at found

/-- The preamble of a generated program declares exactly the helpers that the program
calls.  They are declared once each in the order of first call, where sources have
the class helper in front of the merging helper. -/
theorem Settings.declarations_generate (settings : Settings) (root : Node)
    (generated : Intermediate) (success : settings.generate root = .ok generated) :
    let declared := settings.mode.declared generated.program.uses
    generated.declarations = declared.map (settings.mode.declaration settings.module) ∧
      generated.declarations.Nodup ∧
      (∀ helper, helper ∈ declared ↔ helper ∈ generated.program.uses) ∧
      (settings.mode = .inline →
        ∀ before after, declared = before ++ .merge :: after → .join ∈ before) := by
  intro declared
  obtain ⟨-, rfl⟩ := Settings.generate_eq_ok_iff.mp success
  have declarations : (settings.translate root).declarations =
      declared.map (settings.mode.declaration settings.module) :=
    Linkage.declarations_needAll settings.mode settings.module _
  refine ⟨declarations, ?_, ?_, ?_⟩
  · rw [declarations]
    exact (Linkage.nodup_declared _ _).map (Linkage.declaration_injective _ _)
  · exact Linkage.mem_declared settings.mode Program.merge_mem_uses
  · intro inline before after split
    simp only [declared, inline, Linkage.declared] at split
    exact Helper.join_mem_before_merge split

/-- An iteration below an element whose attributes are merged. -/
def Node.mergeAndEach : Node :=
  .tag ⟨"ul", [], [.source "props"], none,
    ⟨[.each ⟨"xs", "x", none, ⟨[.text "#\x7bx\x7d" {}], {}⟩, none, {}⟩], {}⟩, {}⟩

theorem Settings.declarations_generate_mergeAndEach :
    ∃ generated, ({ mode := .inline } : Settings).generate Node.mergeAndEach = .ok generated ∧
      generated.program.uses = [.merge, .join, .iterate] ∧
      generated.declarations =
        [Helper.join.source, Helper.merge.source, Helper.iterate.source] := by
  have success : ({ mode := .inline } : Settings).generate Node.mergeAndEach =
      .ok (({ mode := .inline } : Settings).translate Node.mergeAndEach) :=
    Settings.generate_eq_ok_iff.mpr ⟨by decide, rfl⟩
  have declared : Linkage.inline.declared
      (({ mode := .inline } : Settings).translate Node.mergeAndEach).program.uses =
        [.join, .merge, .iterate] := by
    decide +kernel
  refine ⟨_, success, by decide +kernel, ?_⟩
  rw [(Settings.declarations_generate _ _ _ success).1, declared]
  rfl

end Template
