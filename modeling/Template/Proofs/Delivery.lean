import Template.Proofs.Command
import Template.Proofs.Files
import Template.Proofs.Request.Output

/-!
# Delivering all or nothing

A run of the program on files that are kept as a value either fails and leaves all of
them as they are, or delivers the whole text that it is asked for.  The main statement
says this of every run, and that a text which is written to a file is the one that the
same arguments without the option for the output print.
-/

namespace Template.Command

variable {files after : Files}

/-- Run the program on files that are kept as a value. -/
def runIn (files : Files) (arguments : List String) : Outcome × Files :=
  ((run Files.access arguments).run files).run

/-- What a run leaves whose request was carried out. -/
def outcomeOf : Except CommandFault String → Outcome
  | .ok text => { code := 0, stdout := text, message := none }
  | .error fault => { code := 1, stdout := "", message := some fault.message }

theorem runIn_of_none {arguments : List String} (refused : Request.ofArguments? arguments = none)
    (files : Files) :
    runIn files arguments = ({ code := 2, stdout := "", message := none }, files) := by
  rw [runIn, run, refused]
  rfl

theorem runIn_of_some {arguments : List String} {request : Request}
    (read : Request.ofArguments? arguments = some request) (files : Files) :
    runIn files arguments =
      (outcomeOf (runFrom files (perform Files.access request)).1,
        (runFrom files (perform Files.access request)).2) := by
  cases performed : runFrom files (perform Files.access request) with
  | mk result after =>
  have ran : (perform Files.access request).run.run files = (result, after) := performed
  rw [runIn, run, read]
  simp only [StateT.run_bind, ran]
  cases result <;> rfl

theorem write_eq {path text : String} :
    files.write path text = (files.target path).map fun place => files.put place.text text := rfl

/-- A text that cannot be delivered changes no file. -/
theorem deliver_error {output : Option String} {text : String} {fault : CommandFault}
    (failed : deliver files output text = (.error fault, after)) : after = files := by
  cases output with
  | none => cases failed
  | some path =>
      rw [deliver] at failed
      cases written : files.write path text with
      | ok changed =>
          rw [written] at failed
          cases failed
      | error reason =>
          rw [written] at failed
          cases failed
          rfl

/-- A request that fails changes no file. -/
theorem runFrom_perform_error {request : Request} {fault : CommandFault}
    (failed : runFrom files (perform Files.access request) = (.error fault, after)) :
    after = files := by
  cases request with
  | compile request =>
      rw [perform, runFrom_compile] at failed
      cases made : codeIn files request with
      | error reason =>
          rw [made] at failed
          cases failed
          rfl
      | ok text =>
          rw [made] at failed
          exact deliver_error failed
  | helper name =>
      rw [perform] at failed
      cases known : Helper.ofName? name with
      | none =>
          rw [known] at failed
          cases failed
          rfl
      | some helper =>
          rw [known] at failed
          cases failed
  | help => cases failed
  | version => cases failed

theorem runIn_failed {arguments : List String} (failed : (runIn files arguments).1.code ≠ 0) :
    (runIn files arguments).2 = files ∧ (runIn files arguments).1.stdout = "" := by
  cases read : Request.ofArguments? arguments with
  | none =>
      rw [runIn_of_none read]
      exact ⟨rfl, rfl⟩
  | some request =>
      rw [runIn_of_some read] at failed ⊢
      cases performed : runFrom files (perform Files.access request) with
      | mk result after =>
          rw [performed] at failed
          cases result with
          | ok text => exact absurd rfl failed
          | error fault => exact ⟨runFrom_perform_error performed, rfl⟩

/-- A request for an output file that is carried out has made the text, and written it
to the place of the path. -/
theorem runFrom_compile_ok {request : CompileRequest} {path printed : String}
    (named : request.output = some path)
    (performed : runFrom files (compile Files.access request) = (.ok printed, after)) :
    ∃ text place, codeIn files request = .ok text ∧ files.target path = .ok place ∧
      printed = "" ∧ after = files.put place.text text := by
  rw [runFrom_compile] at performed
  cases made : codeIn files request with
  | error fault =>
      rw [made] at performed
      cases performed
  | ok text =>
      rw [made, named] at performed
      simp only [deliver, write_eq] at performed
      cases found : files.target path with
      | error fault =>
          rw [found] at performed
          cases performed
      | ok place =>
          rw [found] at performed
          cases performed
          exact ⟨text, place, rfl, rfl, rfl, rfl⟩

/-- A run delivers all or nothing.  Where it fails, no file is changed and nothing is
printed.  Where it compiles a tree to an output file, that file is there with a text, every
other place holds what it held, and nothing is printed; and the arguments without the
option that names the output print this text and change no file. -/
theorem runIn_all_or_nothing (files : Files) (arguments : List String) :
    ((runIn files arguments).1.code ≠ 0 →
      (runIn files arguments).2 = files ∧ (runIn files arguments).1.stdout = "") ∧
    ∀ request path, Request.ofArguments? arguments = some (.compile request) →
      request.output = some path → (runIn files arguments).1.code = 0 →
      ∃ text place, files.target path = .ok place ∧
        (runIn files arguments).2.read path = .ok text ∧
        (∀ key, (runIn files arguments).2.lookup key =
          if key = place.text then some (.file text) else files.lookup key) ∧
        (runIn files arguments).1.stdout = "" ∧
        ∃ before option rest, arguments = before ++ option ++ rest ∧ "--" ∉ before ∧
          option ∈ Request.outputOptions path ∧
          runIn files (before ++ rest) =
            ({ code := 0, stdout := text, message := none }, files) := by
  refine ⟨runIn_failed, ?_⟩
  intro request path read named succeeds
  rw [runIn_of_some read] at succeeds ⊢
  cases performed : runFrom files (perform Files.access (.compile request)) with
  | mk result after =>
  rw [performed] at succeeds
  cases result with
  | error fault => cases succeeds
  | ok printed =>
      obtain ⟨text, place, made, found, rfl, rfl⟩ := runFrom_compile_ok named performed
      obtain ⟨before, option, rest, split, noSeparator, spelled, readRest⟩ :=
        Request.ofArguments?_output read named
      refine ⟨text, place, found, Files.read_put_target found text, ?_, rfl, before, option, rest,
        split, noSeparator, spelled, ?_⟩
      · intro key
        exact Files.lookup_put files place.text text key
      · have sameText : codeIn files { request with output := none } = .ok text := made
        rw [runIn_of_some readRest, perform, runFrom_compile, sameText]
        rfl

/-- A tree in a directory. -/
def treeInViews : Files :=
  [("views", .directory), ("views/page.json", .file "\x7b\"type\": \"MixinBlock\"\x7d")]

/-- A directory cannot be written to; the input can, under any path. -/
theorem runIn_all_or_nothing_overInput :
    let toDirectory := ["compile", "views/page.json", "-o", "views"]
    let toInput := ["compile", "views/page.json", "-o=views/./page.json"]
    ((runIn treeInViews toDirectory).1.code ≠ 0 ∧
      (runIn treeInViews toDirectory).2 = treeInViews ∧
      (runIn treeInViews toDirectory).1.stdout = "") ∧
    (runIn treeInViews toInput).1.code = 0 ∧
      ∃ text place, treeInViews.target "views/./page.json" = .ok place ∧
        (runIn treeInViews toInput).2.read "views/./page.json" = .ok text ∧
        (∀ key, (runIn treeInViews toInput).2.lookup key =
          if key = place.text then some (.file text) else treeInViews.lookup key) ∧
        (runIn treeInViews toInput).1.stdout = "" ∧
        ∃ before option rest, toInput = before ++ option ++ rest ∧ "--" ∉ before ∧
          option ∈ Request.outputOptions "views/./page.json" ∧
          runIn treeInViews (before ++ rest) =
            ({ code := 0, stdout := text, message := none }, treeInViews) := by
  intro toDirectory toInput
  have fails : (runIn treeInViews toDirectory).1.code ≠ 0 := by
    decide +kernel
  have succeeds : (runIn treeInViews toInput).1.code = 0 := by
    decide +kernel
  have read : Request.ofArguments? toInput = some (.compile {
      input := "views/page.json", config := Request.defaultConfig,
      output := some "views/./page.json", intermediate := false }) := by
    decide +kernel
  constructor
  · exact ⟨fails, (runIn_all_or_nothing treeInViews toDirectory).1 fails⟩
  · exact ⟨succeeds, (runIn_all_or_nothing treeInViews toInput).2 _ _ read rfl succeeds⟩

end Template.Command
