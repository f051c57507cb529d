import Template.Proofs.Request

/-!
# The option for the output

The arguments of a compilation are read item by item: an item is an input, an option
that stands alone, or an option with its value, and changes what is found so far.
`Request.Reading` gives the arguments that ask for a request in this form.  The main
statement is that an output is named by one option among the arguments, and that the
arguments without this option ask for the same without an output.
-/

namespace Template

namespace Request

/-- The ways to write the option that names an output. -/
def outputOptions (path : String) : List (List String) :=
  [["-o", path], ["-o" ++ path], ["-o=" ++ path], ["--output", path], ["--output=" ++ path]]

/-! ## Items -/

/-- Arguments that are read together, with the change that they make to what is found
so far. -/
inductive Item : List String → (Partial → Option Partial) → Prop where
  | input {argument value : String} :
      token? argument = some (.positional value) → Item [argument] (·.setInput value)
  | plain {argument : String} {set : Partial → Option Partial} :
      token? argument = some (.flag (.plain set) none) → Item [argument] set
  | attached {argument value : String} {set : Partial → String → Option Partial} :
      token? argument = some (.flag (.valued set) (some value)) → Item [argument] (set · value)
  | separate {argument value : String} {set : Partial → String → Option Partial} :
      token? argument = some (.flag (.valued set) none) → isValue value = true →
      Item [argument, value] (set · value)

/-- The arguments that ask for a request, after what is found so far. -/
inductive Reading (request : CompileRequest) : Partial → List String → Prop where
  | finish {found : Partial} :
      found.finish = some (.compile request) → Reading request found []
  | inputs {found : Partial} {rest : List String} :
      inputsFrom found rest = some (.compile request) → Reading request found ("--" :: rest)
  | item {found after : Partial} {arguments rest : List String}
      {change : Partial → Option Partial} :
      Item arguments change → change found = some after → Reading request after rest →
      Reading request found (arguments ++ rest)

theorem compileFrom_item {arguments : List String} {change : Partial → Option Partial}
    (item : Item arguments change) (found : Partial) (rest : List String) :
    compileFrom found (arguments ++ rest) = (change found).bind (compileFrom · rest) := by
  cases item with
  | input read | plain read | attached read =>
      rw [List.singleton_append, compileFrom, read]
      rfl
  | separate read accepted =>
      rw [List.cons_append, List.singleton_append, compileFrom, read]
      simp only [Option.bind_eq_bind, Option.bind_some, accepted, ↓reduceIte]

theorem compileFrom_of_reading {request : CompileRequest} {found : Partial}
    {arguments : List String} (reading : Reading request found arguments) :
    compileFrom found arguments = some (.compile request) := by
  induction reading with
  | finish finished =>
      rw [compileFrom]
      exact finished
  | inputs read =>
      have separator : token? "--" = some .separator := rfl
      rw [compileFrom, separator]
      exact read
  | item item changed _ inductionHypothesis =>
      rw [compileFrom_item item, changed]
      exact inductionHypothesis

theorem eq_of_separator {argument : String} (read : token? argument = some .separator) :
    argument = "--" := by
  unfold token? at read
  split at read
  next spelled => exact String.toList_inj.mp spelled
  next =>
    obtain ⟨flag, -, equal⟩ := Option.bind_eq_some_iff.mp read
    cases equal
  next =>
    obtain ⟨flag, -, equal⟩ := Option.bind_eq_some_iff.mp read
    cases flag <;> cases equal
  next => cases read

-- The value of an option may be the argument after it, so the induction is on the
-- number of arguments.
theorem reading_of_compileFrom {request : CompileRequest} {found : Partial}
    {arguments : List String} (read : compileFrom found arguments = some (.compile request)) :
    Reading request found arguments := by
  induction length : arguments.length using Nat.strongRecOn generalizing arguments found with
  | ind count inductionHypothesis => ?_
  subst length
  -- What an item leaves is read by the induction hypothesis.
  have step {used rest : List String} {change : Partial → Option Partial}
      (split : arguments = used ++ rest) (item : Item used change) :
      Reading request found arguments := by
    subst split
    rw [compileFrom_item item] at read
    obtain ⟨after, changed, readRest⟩ := Option.bind_eq_some_iff.mp read
    have nonempty : 0 < used.length := by
      cases item <;> exact Nat.succ_pos _
    have shorter : rest.length < (used ++ rest).length := by
      rw [List.length_append]
      omega
    exact .item item changed (inductionHypothesis _ shorter readRest rfl)
  cases arguments with
  | nil =>
      rw [compileFrom] at read
      exact .finish read
  | cons argument rest =>
      cases token : token? argument with
      | none =>
          rw [compileFrom, token] at read
          cases read
      | some kind =>
          cases kind with
          | positional value => exact step rfl (.input token)
          | separator =>
              cases eq_of_separator token
              rw [compileFrom, token] at read
              exact .inputs read
          | flag flag attached =>
              cases flag with
              | help =>
                  rw [compileFrom, token] at read
                  cases attached <;> cases read
              | plain set =>
                  cases attached with
                  | none => exact step rfl (.plain token)
                  | some value =>
                      rw [compileFrom, token] at read
                      cases read
              | valued set =>
                  cases attached with
                  | some value => exact step rfl (.attached token)
                  | none =>
                      cases rest with
                      | nil =>
                          rw [compileFrom, token] at read
                          cases read
                      | cons value rest =>
                          cases accepted : isValue value with
                          | true => exact step rfl (.separate token accepted)
                          | false =>
                              rw [compileFrom, token] at read
                              simp [accepted] at read

theorem helperFrom_ne_compile (name : Option String) (ended : Bool) (arguments : List String)
    (request : CompileRequest) : helperFrom name ended arguments ≠ some (.compile request) := by
  fun_induction helperFrom name ended arguments with
  | case1 => simp
  | case2 _ _ _ _ _ inductionHypothesis => exact inductionHypothesis
  | case3 => simp
  | case4 => simp
  | case5 => simp
  | case6 _ _ _ _ _ _ _ _ inductionHypothesis => exact inductionHypothesis

/-- Only the command to compile has its arguments read as those of a compilation. -/
theorem ofArguments?_eq_compile_iff {arguments : List String} {request : CompileRequest} :
    ofArguments? arguments = some (.compile request) ↔
      ∃ rest, arguments = "compile" :: rest ∧ Reading request {} rest := by
  constructor
  · intro read
    unfold ofArguments? at read
    split at read
    next rest => exact ⟨rest, rfl, reading_of_compileFrom read⟩
    next rest => exact absurd read (helperFrom_ne_compile _ _ _ _)
    next => split at read <;> cases read
    next =>
      split at read
      next => cases read
      next => split at read <;> cases read
    next => cases read
  · rintro ⟨rest, rfl, reading⟩
    exact compileFrom_of_reading reading

/-! ## Items that name an output -/

/-- What is found so far, with another output. -/
def Partial.withOutput (output : Option String) (found : Partial) : Partial :=
  { found with output }

/-- A change that neither sets the output nor depends on it. -/
def Partial.SparesOutput (change : Partial → Option Partial) : Prop :=
  ∀ output found, change (found.withOutput output) = (change found).map (withOutput output)

theorem Partial.sparesOutput_setInput (path : String) : SparesOutput (·.setInput path) := by
  intro output found
  simp only [setInput, withOutput, Option.map_map, Function.comp_def]

theorem Partial.sparesOutput_setConfig (path : String) : SparesOutput (·.setConfig path) := by
  intro output found
  simp only [setConfig, withOutput, Option.map_map, Function.comp_def]

theorem Partial.sparesOutput_setIntermediate : SparesOutput setIntermediate := by
  rintro output ⟨input, config, _, intermediate⟩
  cases intermediate <;> rfl

theorem Partial.SparesOutput.change_withOutput {change : Partial → Option Partial}
    (spares : SparesOutput change) {found after : Partial} (changed : change found = some after)
    (output : Option String) :
    change (found.withOutput output) = some (after.withOutput output) := by
  rw [spares output found, changed, Option.map_some]

theorem Partial.SparesOutput.output_eq {change : Partial → Option Partial}
    (spares : SparesOutput change) {found after : Partial} (changed : change found = some after) :
    after.output = found.output := by
  have same : some after = some (after.withOutput found.output) :=
    changed.symm.trans (spares.change_withOutput changed found.output)
  rw [Option.some.inj same]
  rfl

theorem Partial.setOutput_eq_some {found after : Partial} {path : String}
    (changed : found.setOutput path = some after) :
    found.output = none ∧ after = found.withOutput (some path) := by
  obtain ⟨output, accepted, rfl⟩ := Option.map_eq_some_iff.mp changed
  cases given : found.output with
  | some earlier =>
      rw [given, setPath] at accepted
      cases accepted
  | none =>
      rw [given, setPath] at accepted
      split at accepted
      next => cases accepted
      next =>
        cases accepted
        exact ⟨rfl, rfl⟩

theorem longFlag?_valued {name : String} {set : Partial → String → Option Partial}
    (known : longFlag? name = some (.valued set)) :
    set = Partial.setConfig ∨ set = Partial.setOutput ∧ name = "output" := by
  unfold longFlag? at known
  split at known
  next =>
    cases known
    exact .inl rfl
  next =>
  split at known
  next spelled =>
    cases known
    exact .inr ⟨rfl, beq_iff_eq.mp spelled⟩
  next =>
  split at known
  next => cases known
  next => split at known <;> cases known

theorem shortFlag?_valued {char : Char} {set : Partial → String → Option Partial}
    (known : shortFlag? char = some (.valued set)) :
    set = Partial.setConfig ∨ set = Partial.setOutput ∧ char = 'o' := by
  unfold shortFlag? at known
  split at known
  next =>
    cases known
    exact .inl rfl
  next =>
  split at known
  next spelled =>
    cases known
    exact .inr ⟨rfl, beq_iff_eq.mp spelled⟩
  next => split at known <;> cases known

theorem longToken?_valued {text : List Char} {set : Partial → String → Option Partial}
    {attached : Option String} (read : longToken? text = some (.flag (.valued set) attached)) :
    set = Partial.setConfig ∨
      set = Partial.setOutput ∧
        (attached = none ∧ text = "output".toList ∨
          ∃ value, attached = some value ∧ text = "output=".toList ++ value.toList) := by
  obtain ⟨flag, known, equal⟩ := Option.bind_eq_some_iff.mp read
  cases equal
  rcases longFlag?_valued known with config | ⟨rfl, named⟩
  · exact .inl config
  refine .inr ⟨rfl, ?_⟩
  have name : text.takeWhile (· != '=') = "output".toList := by
    rw [← named, String.toList_ofList]
  have parts : text = "output".toList ++ text.dropWhile (· != '=') := by
    rw [← name, List.takeWhile_append_dropWhile]
  rw [name]
  cases rest : text.dropWhile (· != '=') with
  | nil =>
      rw [rest, List.append_nil] at parts
      subst parts
      exact .inl ⟨rfl, rfl⟩
  | cons first value =>
      have equals : first = '=' := by
        simpa [rest] using List.head?_dropWhile_not (· != '=') text
      rw [rest, equals] at parts
      subst parts
      exact .inr ⟨String.ofList value, by simp, by simp⟩

theorem afterEquals_cases (text : List Char) :
    text = afterEquals text ∨ text = '=' :: afterEquals text := by
  unfold afterEquals
  split
  next => exact .inr rfl
  next => exact .inl rfl

theorem shortToken?_valued {char : Char} {text : List Char}
    {set : Partial → String → Option Partial} {attached : Option String}
    (read : shortToken? char text = some (.flag (.valued set) attached)) :
    set = Partial.setConfig ∨
      set = Partial.setOutput ∧ char = 'o' ∧
        (attached = none ∧ text = [] ∨
          ∃ value, attached = some value ∧
            (text = value.toList ∨ text = '=' :: value.toList)) := by
  obtain ⟨flag, known, equal⟩ := Option.bind_eq_some_iff.mp read
  cases flag with
  | help => cases equal
  | plain => cases equal
  | valued found =>
      cases equal
      rcases shortFlag?_valued known with config | ⟨rfl, rfl⟩
      · exact .inl config
      refine .inr ⟨rfl, rfl, ?_⟩
      cases text with
      | nil => exact .inl ⟨rfl, rfl⟩
      | cons first rest =>
          refine .inr ⟨String.ofList (afterEquals (first :: rest)), rfl, ?_⟩
          rw [String.toList_ofList]
          exact afterEquals_cases (first :: rest)

/-- An option with a value names the settings file, or is one of the ways to name the
output. -/
theorem token?_valued {argument : String} {set : Partial → String → Option Partial}
    {attached : Option String} (read : token? argument = some (.flag (.valued set) attached)) :
    set = Partial.setConfig ∨
      set = Partial.setOutput ∧
        (attached = none ∧ (argument = "-o" ∨ argument = "--output") ∨
          ∃ value, attached = some value ∧ [argument] ∈ outputOptions value) := by
  unfold token? at read
  split at read
  next => cases read
  next text _ spelled =>
    rcases longToken?_valued read with config | ⟨rfl, ⟨rfl, rfl⟩ | ⟨value, rfl, rfl⟩⟩
    · exact .inl config
    · exact .inr ⟨rfl, .inl ⟨rfl, .inr (String.toList_inj.mp spelled)⟩⟩
    · have equal : argument = "--output=" ++ value :=
        String.toList_inj.mp (by rw [spelled, String.toList_append]; rfl)
      exact .inr ⟨rfl, .inr ⟨value, rfl, by simp [outputOptions, equal]⟩⟩
  next char text _ _ spelled =>
    rcases shortToken?_valued read with
      config | ⟨rfl, rfl, ⟨rfl, rfl⟩ | ⟨value, rfl, rfl | rfl⟩⟩
    · exact .inl config
    · exact .inr ⟨rfl, .inl ⟨rfl, .inl (String.toList_inj.mp spelled)⟩⟩
    · have equal : argument = "-o" ++ value :=
        String.toList_inj.mp (by rw [spelled, String.toList_append]; rfl)
      exact .inr ⟨rfl, .inr ⟨value, rfl, by simp [outputOptions, equal]⟩⟩
    · have equal : argument = "-o=" ++ value :=
        String.toList_inj.mp (by rw [spelled, String.toList_append]; rfl)
      exact .inr ⟨rfl, .inr ⟨value, rfl, by simp [outputOptions, equal]⟩⟩
  next => cases read

/-- An item has nothing to do with the output, or names it. -/
theorem Item.spares_or_names {arguments : List String} {change : Partial → Option Partial}
    (item : Item arguments change) :
    Partial.SparesOutput change ∨
      ∃ path, arguments ∈ outputOptions path ∧ change = (·.setOutput path) := by
  cases item with
  | input => exact .inl (Partial.sparesOutput_setInput _)
  | plain read =>
      rcases token?_flag_known read with ⟨_, impossible, _⟩ | intermediate | impossible
      · cases impossible
      · cases intermediate
        exact .inl Partial.sparesOutput_setIntermediate
      · cases impossible
  | @attached argument value set read =>
      rcases token?_valued read with rfl | ⟨rfl, ⟨impossible, _⟩ | ⟨path, equal, spelled⟩⟩
      · exact .inl (Partial.sparesOutput_setConfig value)
      · cases impossible
      · cases equal
        exact .inr ⟨value, spelled, rfl⟩
  | @separate argument value set read =>
      rcases token?_valued read with rfl | ⟨rfl, ⟨_, rfl | rfl⟩ | ⟨path, impossible, _⟩⟩
      · exact .inl (Partial.sparesOutput_setConfig value)
      · exact .inr ⟨value, by simp [outputOptions], rfl⟩
      · exact .inr ⟨value, by simp [outputOptions], rfl⟩
      · cases impossible

theorem Item.separator_notMem {arguments : List String} {change : Partial → Option Partial}
    (item : Item arguments change) : "--" ∉ arguments := by
  intro member
  have separator : token? "--" = some .separator := rfl
  cases item with
  | input read | plain read | attached read =>
      rw [← List.mem_singleton.mp member, separator] at read
      cases read
  | separate read accepted =>
      rcases List.mem_cons.mp member with equal | member
      · rw [← equal, separator] at read
        cases read
      · rw [← List.mem_singleton.mp member] at accepted
        cases accepted

/-! ## Taking the option out -/

variable {request : CompileRequest} {found : Partial} {path : String} {arguments : List String}

theorem finish_output (finished : found.finish = some (.compile request)) :
    request.output = found.output ∧
      (found.withOutput none).finish = some (.compile { request with output := none }) := by
  obtain ⟨input, given, equal⟩ := Option.map_eq_some_iff.mp finished
  cases equal
  exact ⟨rfl, Option.map_eq_some_iff.mpr ⟨input, given, rfl⟩⟩

theorem inputsFrom_output (read : inputsFrom found arguments = some (.compile request)) :
    request.output = found.output ∧
      inputsFrom (found.withOutput none) arguments =
        some (.compile { request with output := none }) := by
  induction arguments generalizing found with
  | nil => exact finish_output read
  | cons argument rest inductionHypothesis =>
      obtain ⟨after, changed, readRest⟩ := Option.bind_eq_some_iff.mp read
      have spares := Partial.sparesOutput_setInput argument
      obtain ⟨kept, cleared⟩ := inductionHypothesis readRest
      refine ⟨kept.trans (spares.output_eq changed), ?_⟩
      exact Option.bind_eq_some_iff.mpr ⟨_, spares.change_withOutput changed none, cleared⟩

/-- Once an output is named it stays, and without it the arguments ask for the same
without an output. -/
theorem Reading.clear (reading : Reading request found arguments)
    (named : found.output = some path) :
    request.output = some path ∧
      Reading { request with output := none } (found.withOutput none) arguments := by
  induction reading with
  | finish finished =>
      obtain ⟨kept, cleared⟩ := finish_output finished
      exact ⟨kept.trans named, .finish cleared⟩
  | inputs read =>
      obtain ⟨kept, cleared⟩ := inputsFrom_output read
      exact ⟨kept.trans named, .inputs cleared⟩
  | @item found after used rest change item changed _ inductionHypothesis =>
      rcases item.spares_or_names with spares | ⟨again, _, rfl⟩
      · obtain ⟨kept, cleared⟩ := inductionHypothesis ((spares.output_eq changed).trans named)
        exact ⟨kept, .item item (spares.change_withOutput changed none) cleared⟩
      · rw [(Partial.setOutput_eq_some changed).1] at named
        cases named

theorem Reading.takeOut (reading : Reading request found arguments)
    (unnamed : found.output = none) (named : request.output = some path) :
    ∃ before option after, arguments = before ++ option ++ after ∧ "--" ∉ before ∧
      option ∈ outputOptions path ∧
      Reading { request with output := none } found (before ++ after) := by
  induction reading with
  | finish finished =>
      rw [(finish_output finished).1, unnamed] at named
      cases named
  | inputs read =>
      rw [(inputsFrom_output read).1, unnamed] at named
      cases named
  | @item found next used rest change item changed readingRest inductionHypothesis =>
      rcases item.spares_or_names with spares | ⟨written, option, rfl⟩
      · obtain ⟨before, option, after, rfl, noSeparator, spelled, cleared⟩ :=
          inductionHypothesis ((spares.output_eq changed).trans unnamed)
        refine ⟨used ++ before, option, after, by simp, ?_, spelled, ?_⟩
        · rw [List.mem_append, not_or]
          exact ⟨item.separator_notMem, noSeparator⟩
        · rw [List.append_assoc]
          exact .item item changed cleared
      · -- No later item can name an output again, so this is the one that the request has.
        obtain ⟨-, rfl⟩ := Partial.setOutput_eq_some changed
        obtain ⟨kept, cleared⟩ := readingRest.clear rfl
        cases named.symm.trans kept
        refine ⟨[], used, rest, rfl, List.not_mem_nil, option, ?_⟩
        have restored : (found.withOutput (some path)).withOutput none = found := by
          rw [← unnamed]
          rfl
        rw [restored] at cleared
        exact cleared

/-- An output is named by an option in front of the end of the options, and the
arguments without it ask for the same without an output. -/
theorem ofArguments?_output (read : ofArguments? arguments = some (.compile request))
    (named : request.output = some path) :
    ∃ before option after, arguments = before ++ option ++ after ∧ "--" ∉ before ∧
      option ∈ outputOptions path ∧
      ofArguments? (before ++ after) = some (.compile { request with output := none }) := by
  obtain ⟨rest, rfl, reading⟩ := ofArguments?_eq_compile_iff.mp read
  obtain ⟨before, option, after, rfl, noSeparator, spelled, cleared⟩ :=
    reading.takeOut rfl named
  refine ⟨"compile" :: before, option, after, rfl, ?_, spelled, ?_⟩
  · rw [List.mem_cons, not_or]
    exact ⟨by decide, noSeparator⟩
  · exact ofArguments?_eq_compile_iff.mpr ⟨before ++ after, rfl, cleared⟩

end Request

end Template
