import Template.Request

/-!
# The option for the intermediate program

Arguments are read from left to right into what is found so far.  The main statement
is that to ask for the intermediate program, by an option in front of the other
arguments, changes nothing else about what the arguments ask for.
-/

namespace Template

namespace Request

/-- What is read so far, with the intermediate program asked for or not. -/
def Partial.mark (intermediate : Bool) (found : Partial) : Partial :=
  { found with intermediate }

/-- An option with a value that takes effect whether the intermediate program is asked
for or not. -/
def Partial.Unaffected (set : Partial → String → Option Partial) : Prop :=
  ∀ intermediate found value,
    set (found.mark intermediate) value = (set found value).map (mark intermediate)

theorem Partial.unaffected_setInput : Unaffected setInput := by
  intro intermediate found value
  simp only [setInput, mark, Option.map_map, Function.comp_def]

theorem Partial.unaffected_setConfig : Unaffected setConfig := by
  intro intermediate found value
  simp only [setConfig, mark, Option.map_map, Function.comp_def]

theorem Partial.unaffected_setOutput : Unaffected setOutput := by
  intro intermediate found value
  simp only [setOutput, mark, Option.map_map, Function.comp_def]

/-- What an option may be. -/
def Flag.Known (flag : Flag) : Prop :=
  (∃ set, flag = .valued set ∧ Partial.Unaffected set) ∨
    flag = .plain Partial.setIntermediate ∨ flag = .help

theorem longFlag?_known {name : String} {flag : Flag} (read : longFlag? name = some flag) :
    flag.Known := by
  unfold longFlag? at read
  split at read
  · cases read
    exact .inl ⟨_, rfl, Partial.unaffected_setConfig⟩
  · split at read
    · cases read
      exact .inl ⟨_, rfl, Partial.unaffected_setOutput⟩
    · split at read
      · cases read
        exact .inr (.inl rfl)
      · split at read
        · cases read
          exact .inr (.inr rfl)
        · cases read

theorem shortFlag?_known {char : Char} {flag : Flag} (read : shortFlag? char = some flag) :
    flag.Known := by
  unfold shortFlag? at read
  split at read
  · cases read
    exact .inl ⟨_, rfl, Partial.unaffected_setConfig⟩
  · split at read
    · cases read
      exact .inl ⟨_, rfl, Partial.unaffected_setOutput⟩
    · split at read
      · cases read
        exact .inr (.inr rfl)
      · cases read

theorem token?_flag_known {argument : String} {flag : Flag} {attached : Option String}
    (read : token? argument = some (.flag flag attached)) : flag.Known := by
  unfold token? at read
  split at read
  · cases read
  · obtain ⟨found, known, equal⟩ := Option.bind_eq_some_iff.mp read
    cases equal
    exact longFlag?_known known
  · obtain ⟨found, known, equal⟩ := Option.bind_eq_some_iff.mp read
    cases found <;> cases equal <;> exact shortFlag?_known known
  · cases read

/-- Where the first of two readings succeeds, it asks for the intermediate program, and
the second asks for the same without it. -/
def Shortens (first second : Option Request) : Prop :=
  ∀ request, first = some (.compile request) →
    request.intermediate = true ∧
      second = some (.compile { request with intermediate := false })

namespace Shortens

theorem refused (second : Option Request) : Shortens none second := by
  intro request read
  cases read

theorem finish (found : Partial) :
    Shortens (found.mark true).finish (found.mark false).finish := by
  intro request read
  obtain ⟨input, given, equal⟩ := Option.map_eq_some_iff.mp read
  cases equal
  exact ⟨rfl, Option.map_eq_some_iff.mpr ⟨input, given, rfl⟩⟩

/-- An option with a value keeps two readings in step. -/
theorem valued {set : Partial → String → Option Partial}
    (unaffected : Partial.Unaffected set) {next : Partial → Option Request}
    (later : ∀ found : Partial, Shortens (next (found.mark true)) (next (found.mark false)))
    (found : Partial) (value : String) :
    Shortens (set (found.mark true) value >>= next)
      (set (found.mark false) value >>= next) := by
  rw [unaffected, unaffected]
  cases set found value with
  | none => exact refused _
  | some after => exact later after

theorem inputs (found : Partial) (arguments : List String) :
    Shortens (inputsFrom (found.mark true) arguments)
      (inputsFrom (found.mark false) arguments) := by
  induction arguments generalizing found with
  | nil => exact finish found
  | cons argument rest inductionHypothesis =>
      exact valued Partial.unaffected_setInput (fun after => inductionHypothesis after) found
        argument

-- The value of an option may be the argument after it, so the induction is on the
-- number of arguments.
theorem arguments (found : Partial) (arguments : List String) :
    Shortens (compileFrom (found.mark true) arguments)
      (compileFrom (found.mark false) arguments) := by
  induction length : arguments.length using Nat.strongRecOn generalizing arguments found with
  | ind count inductionHypothesis => ?_
  subst length
  cases arguments with
  | nil =>
      rw [compileFrom, compileFrom]
      exact finish found
  | cons argument rest =>
      have later (found : Partial) : Shortens (compileFrom (found.mark true) rest)
          (compileFrom (found.mark false) rest) :=
        inductionHypothesis _ (by simp) found rest rfl
      rw [compileFrom, compileFrom]
      cases read : token? argument with
      | none => exact refused _
      | some token =>
          cases token with
          | separator => exact inputs found rest
          | positional value => exact valued Partial.unaffected_setInput later found value
          | flag flag attached =>
              rcases token?_flag_known read with ⟨set, rfl, unaffected⟩ | rfl | rfl
              · cases attached with
                | some value => exact valued unaffected later found value
                | none =>
                    cases rest with
                    | nil => exact refused _
                    | cons value rest =>
                        have after (found : Partial) :
                            Shortens (compileFrom (found.mark true) rest)
                              (compileFrom (found.mark false) rest) :=
                          inductionHypothesis _ (by simp only [List.length_cons]; omega)
                            found rest rfl
                        cases accepted : isValue value with
                        | true =>
                            simp only [Option.bind_eq_bind, Option.bind_some, accepted,
                              ↓reduceIte]
                            exact valued unaffected after found value
                        | false =>
                            simp only [Option.bind_eq_bind, Option.bind_some, accepted]
                            exact refused _
              · cases attached <;> exact refused _
              · cases attached <;>
                · intro request read
                  cases read

end Shortens

/-- To add the option that asks for the intermediate program changes nothing else about
what is asked for. -/
theorem ofArguments?_intermediate (arguments : List String) :
    Shortens (ofArguments? ("compile" :: "--intermediate" :: arguments))
      (ofArguments? ("compile" :: arguments)) := by
  have option : token? "--intermediate" =
      some (.flag (.plain Partial.setIntermediate) none) := by
    rfl
  have read : compileFrom {} ("--intermediate" :: arguments) =
      compileFrom (Partial.mark true {}) arguments := by
    rw [compileFrom, option]
    rfl
  simp only [ofArguments?, read]
  exact Shortens.arguments {} arguments

end Request

end Template
