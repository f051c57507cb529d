import Template.Proofs.Command
import Template.Proofs.Request

/-!
# Compiling for the intermediate target

The target that keeps its sentinels gives back the program it is handed.  So a tree is
compiled for it to its intermediate text behind the declarations of the helpers, and
what the command puts out with and without the option for the intermediate program
differs by these declarations only.
-/

namespace Template

section Keep

variable {m : Type → Type} [Monad m] [LawfulMonad m]

mutual

theorem Stmt.replaceM_keep : (stmt : Stmt) →
    stmt.replaceM (m := m) (fun found => pure found.keep) = pure stmt
  | .sentinel found => by
      rw [Stmt.replaceM, Sentinel.replaceInnerM_keep found, pure_bind, Sentinel.keep]
  | .code _ | .lineComment _ | .mixinBlock => by simp only [Stmt.replaceM]
  | .scope body | .blockComment _ body => by
      simp only [Stmt.replaceM, Stmt.replaceAllM_keep body, pure_bind]
  | .branch _ consequent alternate => by
      simp only [Stmt.replaceM, Stmt.replaceAllM_keep consequent, Else.replaceM_keep alternate,
        pure_bind]
  | .loop _ bodies => by
      simp only [Stmt.replaceM, Stmt.replaceBodiesM_keep bodies, pure_bind]
  | .each _ _ _ _ body alternate => by
      simp only [Stmt.replaceM, Stmt.replaceAllM_keep body,
        Stmt.replaceOptionM_keep alternate, pure_bind]

theorem Else.replaceM_keep : (alternate : Else) →
    alternate.replaceM (m := m) (fun found => pure found.keep) = pure alternate
  | .none => by simp only [Else.replaceM]
  | .branch _ consequent alternate => by
      simp only [Else.replaceM, Stmt.replaceAllM_keep consequent, Else.replaceM_keep alternate,
        pure_bind]
  | .block body => by simp only [Else.replaceM, Stmt.replaceAllM_keep body, pure_bind]

theorem Sentinel.replaceInnerM_keep : (sentinel : Sentinel) →
    sentinel.replaceInnerM (m := m) (fun found => pure found.keep) = pure sentinel
  | .text _ | .unescape _ => by simp only [Sentinel.replaceInnerM]
  | .element _ _ children => by
      simp only [Sentinel.replaceInnerM, Stmt.replaceAllM_keep children, pure_bind]

theorem Stmt.replaceAllM_keep : (stmts : List Stmt) →
    Stmt.replaceAllM (m := m) (fun found => pure found.keep) stmts = pure stmts
  | [] => by simp only [Stmt.replaceAllM]
  | stmt :: rest => by
      simp only [Stmt.replaceAllM, Stmt.replaceM_keep stmt, Stmt.replaceAllM_keep rest,
        pure_bind]

theorem Stmt.replaceBodiesM_keep : (bodies : List (List Stmt)) →
    Stmt.replaceBodiesM (m := m) (fun found => pure found.keep) bodies = pure bodies
  | [] => by simp only [Stmt.replaceBodiesM]
  | body :: rest => by
      simp only [Stmt.replaceBodiesM, Stmt.replaceAllM_keep body,
        Stmt.replaceBodiesM_keep rest, pure_bind]

theorem Stmt.replaceOptionM_keep : (body : Option (List Stmt)) →
    Stmt.replaceOptionM (m := m) (fun found => pure found.keep) body = pure body
  | none => by simp only [Stmt.replaceOptionM]
  | some body => by simp only [Stmt.replaceOptionM, Stmt.replaceAllM_keep body, pure_bind]

end

/-- The target that keeps sentinels gives back the program it is handed. -/
theorem Target.replaceM_intermediate (options : Json) (program : Program) :
    program.replaceM ((Target.intermediate : Target m).answer options) = pure program :=
  Stmt.replaceAllM_keep program

end Keep

/-! ## Declarations in front of a program -/

/-- Declarations, each with the end of its line. -/
def declarationLines (declarations : List String) : String :=
  String.join (declarations.map (· ++ "\n"))

theorem intercalate_lineEnds {declarations : List String} (some : declarations ≠ []) :
    "\n".intercalate declarations ++ "\n" = declarationLines declarations := by
  induction declarations with
  | nil => exact absurd rfl some
  | cons first rest inductionHypothesis =>
      rw [declarationLines, List.map_cons, String.join_cons, ← declarationLines]
      cases rest with
      | nil => simp [declarationLines]
      | cons second others =>
          rw [String.intercalate_cons_cons, ← inductionHypothesis (List.cons_ne_nil _ _)]
          simp only [String.append_assoc]

theorem joinDeclarations_eq {declarations : List String} (written : "" ∉ declarations) :
    joinDeclarations declarations = declarationLines declarations := by
  cases declarations with
  | nil => rfl
  | cons first rest =>
      have visible : "\n".intercalate (first :: rest) ≠ "" := by
        cases rest with
        | nil => simpa [eq_comm] using written
        | cons second others => simp [String.intercalate_cons_cons]
      rw [← intercalate_lineEnds (List.cons_ne_nil first rest), joinDeclarations]
      simp only [String.isEmpty_iff, visible, ↓reduceIte]

theorem Preamble.empty_notMem_declarations (preamble : Preamble) (mode : Linkage)
    (module : String) : "" ∉ preamble.declarations mode module := by
  intro membership
  cases mode with
  | require =>
      obtain ⟨helper, -, empty⟩ := List.mem_map.mp membership
      simp [requireLine] at empty
  | inline =>
      obtain ⟨helper, -, empty⟩ := List.mem_map.mp membership
      cases helper <;> revert empty <;> decide +kernel

namespace Settings

theorem empty_notMem_declarations {settings : Settings} {root : Node}
    {generated : Intermediate} (success : settings.generate root = .ok generated) :
    "" ∉ generated.declarations := by
  rw [generate] at success
  cases translated : (Generation.node settings.indexName root).run {} with
  | error rejection =>
      rw [translated] at success
      cases success
  | ok result =>
      rw [translated] at success
      cases success
      exact Preamble.empty_notMem_declarations _ _ _

/-- Compiling for the intermediate target puts the declarations in front of the
intermediate text, and is rejected exactly where generating is. -/
theorem compile_eq_map_generate {m : Type → Type} [Monad m] [LawfulMonad m]
    (settings : Settings) (root : Node) :
    settings.compile (Target.intermediate : Target m) root =
      (settings.generate root).map fun generated =>
        pure (declarationLines generated.declarations ++ generated.render) := by
  rw [compile]
  cases success : settings.generate root with
  | error rejection => rfl
  | ok generated =>
      have print : (Target.intermediate : Target m).print generated.program =
          pure generated.render := rfl
      change Except.ok (_ >>= _) = _
      rw [Target.replaceM_intermediate, pure_bind, print, pure_bind,
        joinDeclarations_eq (empty_notMem_declarations success)]
      rfl

end Settings

/-! ## The command with and without the option -/

namespace Command

theorem compiledText_true (settings : Settings) (root : Node) :
    compiledText settings true root = (settings.generate root).map Intermediate.render := rfl

theorem compiledText_false (settings : Settings) (root : Node) :
    compiledText settings false root = (settings.generate root).map fun generated =>
      declarationLines generated.declarations ++ generated.render := by
  have compiled : compiledText settings false root =
      (settings.compile (Target.intermediate : Target Id) root).map Id.run := rfl
  rw [compiled, settings.compile_eq_map_generate]
  cases settings.generate root <;> rfl

/-- With the option a request delivers the intermediate text, and without it the
declarations and that text; where one fails, so does the other, with the same fault. -/
theorem runFrom_compile_intermediate (files : Files) (request : CompileRequest) :
    (∃ fault, ∀ intermediate,
      runFrom files (compile Files.access { request with intermediate }) =
        (.error fault, files)) ∨
    ∃ settings root generated, settingsIn files request.config = .ok settings ∧
      treeIn files request.input = .ok root ∧ settings.generate root = .ok generated ∧
      runFrom files (compile Files.access { request with intermediate := true }) =
        deliver files request.output generated.render ∧
      runFrom files (compile Files.access { request with intermediate := false }) =
        deliver files request.output
          (declarationLines generated.declarations ++ generated.render) := by
  simp only [runFrom_compile, codeIn]
  cases settingsIn files request.config with
  | error fault => exact .inl ⟨fault, fun intermediate => rfl⟩
  | ok settings =>
      cases treeIn files request.input with
      | error fault => exact .inl ⟨fault, fun intermediate => rfl⟩
      | ok root =>
          cases success : settings.generate root with
          | error rejection =>
              refine .inl ⟨.rejected rejection, fun intermediate => ?_⟩
              cases intermediate <;>
                simp [compiledText_true, compiledText_false, success, Except.map,
                  mapError_error, bind, Except.bind]
          | ok generated =>
              refine .inr ⟨settings, root, generated, rfl, rfl, success, ?_, ?_⟩ <;>
                simp [compiledText_true, compiledText_false, success, Except.map,
                  mapError_ok, bind, Except.bind]

end Command

/-- The intermediate text stands behind its declarations.  The target that keeps
sentinels gives back every program; so a tree is compiled for it to the declarations,
each with the end of its line, and the intermediate text, and is rejected where
generating rejects it.  Likewise for the command: the option for the intermediate
program changes nothing else about a request, and what is delivered without it has the
declarations in front of what is delivered with it. -/
theorem Settings.compile_intermediate :
    (∀ (m : Type → Type) [Monad m] [LawfulMonad m] (options : Json) (program : Program),
      program.replaceM ((Target.intermediate : Target m).answer options) = pure program) ∧
    (∀ (m : Type → Type) [Monad m] [LawfulMonad m] (settings : Settings) (root : Node),
      settings.compile (Target.intermediate : Target m) root =
        (settings.generate root).map fun generated =>
          pure (String.join (generated.declarations.map (· ++ "\n")) ++ generated.render)) ∧
    (∀ (arguments : List String) (request : CompileRequest),
      Request.ofArguments? ("compile" :: "--intermediate" :: arguments) =
          some (.compile request) →
        request.intermediate = true ∧
          Request.ofArguments? ("compile" :: arguments) =
            some (.compile { request with intermediate := false })) ∧
    ∀ (files : Files) (request : CompileRequest),
      (∃ fault, ∀ intermediate,
        runFrom files (Command.compile Files.access { request with intermediate }) =
          (.error fault, files)) ∨
      ∃ settings root generated, Command.settingsIn files request.config = .ok settings ∧
        Command.treeIn files request.input = .ok root ∧
        settings.generate root = .ok generated ∧
        runFrom files (Command.compile Files.access { request with intermediate := true }) =
          Command.deliver files request.output generated.render ∧
        runFrom files (Command.compile Files.access { request with intermediate := false }) =
          Command.deliver files request.output
            (String.join (generated.declarations.map (· ++ "\n")) ++ generated.render) := by
  refine ⟨?_, ?_, ?_, ?_⟩
  · intro m _ _ options program
    exact Target.replaceM_intermediate options program
  · intro m _ _ settings root
    exact settings.compile_eq_map_generate root
  · intro arguments request read
    exact Request.ofArguments?_intermediate arguments request read
  · intro files request
    exact Command.runFrom_compile_intermediate files request

end Template
