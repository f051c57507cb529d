import Template.Text.Uppercase

/-!
# What upper case looks like

The tables of upper case are looked up in one of three ways (`uppercase_cases`), so a fact
about all upper-case forms is a fact about the rows of the tables, which can be checked row
by row.  Three such facts are needed of attribute names: an upper-case form has no small
letter in it, it has no hyphen in it, and only the two characters `n` and `N` have one that
begins with `N`.
-/

namespace Template.Text

/-- The three ways to look up a character. -/
theorem uppercase_cases (char : Char) :
    (∃ codes, (char.toNat, codes) ∈ longForms ∧ uppercase char = codes.map Char.ofNat) ∨
    (∃ run ∈ caseRuns, run.contains char.toNat = true ∧
      uppercase char = [Char.ofNat (char.toNat + run.shift).toNat]) ∨
    uppercase char = [char] ∧ ∀ run ∈ caseRuns, ¬ run.contains char.toNat = true := by
  unfold uppercase
  cases long : longForms.lookup char.toNat with
  | some codes =>
      obtain ⟨front, back, split, -⟩ := List.lookup_eq_some_iff.mp long
      exact .inl ⟨codes, by simp [split], rfl⟩
  | none =>
      cases found : caseRuns.find? (·.contains char.toNat) with
      | some run =>
          have contains := List.find?_some found
          exact .inr (.inl ⟨run, List.mem_of_find?_eq_some found, contains, rfl⟩)
      | none => exact .inr (.inr ⟨rfl, List.find?_eq_none.mp found⟩)

/-- Whether the upper-case forms of a run could include a code point. -/
def CaseRun.reaches (run : CaseRun) (code : Nat) : Bool :=
  decide (run.first + run.shift ≤ code) && decide (code ≤ run.last + run.shift)

theorem toNat_of_ofNat {code : Nat} {char : Char} (positive : 0 < char.toNat)
    (same : Char.ofNat code = char) : code = char.toNat := by
  by_cases valid : code.isValidChar
  · rw [Char.ofNat, dif_pos valid] at same
    subst same
    rfl
  · rw [Char.ofNat, dif_neg valid] at same
    subst same
    cases positive

theorem CaseRun.reaches_of_contains {run : CaseRun} {code : Nat} {char : Char}
    (contains : run.contains code = true) (positive : 0 < char.toNat)
    (same : Char.ofNat (code + run.shift).toNat = char) :
    run.reaches char.toNat = true ∧ (code : Int) + run.shift = char.toNat := by
  have reached := toNat_of_ofNat positive same
  simp only [CaseRun.contains, Bool.and_eq_true, decide_eq_true_eq] at contains
  simp only [reaches, Bool.and_eq_true, decide_eq_true_eq]
  omega

/-- Whether no row of the tables gives a code point. -/
def isUncapitalized (code : Nat) : Bool :=
  longForms.all (fun entry => !entry.2.contains code) &&
    caseRuns.all (fun run => !run.reaches code)

/-- A character that no row gives is an upper-case form of itself only. -/
theorem eq_of_mem_uppercase {char upper : Char} (positive : 0 < upper.toNat)
    (uncapitalized : isUncapitalized upper.toNat = true) (membership : upper ∈ uppercase char) :
    upper = char ∧ ∀ run ∈ caseRuns, ¬ run.contains char.toNat = true := by
  simp only [isUncapitalized, Bool.and_eq_true, List.all_eq_true] at uncapitalized
  rcases uppercase_cases char with ⟨codes, row, forms⟩ | ⟨run, row, contains, form⟩ |
    ⟨itself, noRun⟩
  · rw [forms, List.mem_map] at membership
    obtain ⟨code, codeMembership, same⟩ := membership
    have absent := uncapitalized.1 _ row
    simp [← toNat_of_ofNat positive same, codeMembership] at absent
  · rw [form, List.mem_singleton] at membership
    have reached := CaseRun.reaches_of_contains contains positive membership.symm
    have unreached := uncapitalized.2 run row
    simp [reached.1] at unreached
  · rw [itself, List.mem_singleton] at membership
    exact ⟨membership, noRun⟩

theorem isLower_iff {char : Char} :
    char.isLower = true ↔ 97 ≤ char.toNat ∧ char.toNat ≤ 122 := by
  have bounds : char.isLower = (decide (97 ≤ char.toNat) && decide (char.toNat ≤ 122)) := rfl
  simp [bounds]

/-- There are no small letters in upper-case forms. -/
theorem not_isLower_of_mem_uppercase {char upper : Char} (membership : upper ∈ uppercase char) :
    upper.isLower = false := by
  have letters : ∀ code < 123, 97 ≤ code → isUncapitalized code = true := by decide +kernel
  have smallRun : CaseRun.mk 97 122 1 (-32) ∈ caseRuns := List.mem_cons_self
  rw [Bool.eq_false_iff]
  intro lower
  have bounds := isLower_iff.mp lower
  obtain ⟨rfl, noRun⟩ := eq_of_mem_uppercase (by omega)
    (letters upper.toNat (by omega) bounds.1) membership
  apply noRun _ smallRun
  simp [CaseRun.contains, bounds, Nat.mod_one]

/-- Upper-case forms bring no hyphens. -/
theorem eq_hyphen_of_mem_uppercase {char : Char} (membership : '-' ∈ uppercase char) :
    char = '-' :=
  (eq_of_mem_uppercase (by decide) (by decide +kernel) membership).1.symm

theorem uppercase_ne_nil (char : Char) : uppercase char ≠ [] := by
  have rows : longForms.all (fun entry => !entry.2.isEmpty) = true := by decide +kernel
  rcases uppercase_cases char with ⟨codes, row, forms⟩ | ⟨run, -, -, form⟩ | ⟨itself, -⟩
  · have nonempty := List.all_eq_true.mp rows _ row
    rw [forms]
    simpa using nonempty
  · simp [form]
  · simp [itself]

/-- Nothing but the letter itself is capitalized to `N` and more. -/
theorem uppercase_eq_cons_N {char : Char} {rest : List Char}
    (capital : uppercase char = 'N' :: rest) : char ∈ ['n', 'N'] ∧ rest = [] := by
  have longRows : longForms.all (fun entry => entry.2.head? != some 78) = true := by
    decide +kernel
  have runRows : caseRuns.all (fun run => !run.reaches 78 || run.shift == -32) = true := by
    decide +kernel
  rcases uppercase_cases char with ⟨codes, row, forms⟩ | ⟨run, row, contains, form⟩ |
    ⟨itself, -⟩
  · rw [forms, List.map_eq_cons_iff] at capital
    obtain ⟨code, others, rfl, same, -⟩ := capital
    have absent := List.all_eq_true.mp longRows _ row
    obtain rfl : code = 'N'.toNat := toNat_of_ofNat (by decide) same
    simp at absent
  · rw [form, List.cons.injEq] at capital
    obtain ⟨reached, shifted⟩ := CaseRun.reaches_of_contains contains (by decide) capital.1
    have shift : run.shift = -32 := by
      simpa [show run.reaches 78 = true from reached] using List.all_eq_true.mp runRows run row
    have code : char.toNat = 'n'.toNat := by
      rw [shift] at shifted
      change (char.toNat : Int) + -32 = 78 at shifted
      change char.toNat = 110
      omega
    exact ⟨by simp [Char.toNat_inj.mp code], capital.2.symm⟩
  · rw [itself, List.cons.injEq] at capital
    simp [capital.1, capital.2]

end Template.Text
