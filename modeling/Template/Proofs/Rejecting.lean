import Template.Proofs.Translation

/-!
# Rejecting trees

A tree is rejected exactly if it holds a construct that no program is generated for,
outside silent comments.  The rejection names the first one in document order, and
it is final: nothing is handed to the target that the tree is compiled for, which
`Settings.compileWatched` makes visible.
-/

namespace Template

variable {m : Type → Type}

/-- A target that behaves like another and notes each sentinel it is handed. -/
def Target.watched [Monad m] (target : Target m) : Target (StateT (List Sentinel) m) where
  answer options sentinel := do
    modify (· ++ [sentinel])
    target.answer options sentinel
  print program := target.print program

namespace Settings

/-- Compile a tree and note the sentinels that the target is handed meanwhile. -/
def compileWatched [Monad m] (settings : Settings) (target : Target m) (root : Node) :
    StateT (List Sentinel) m (Except Rejection String) :=
  match settings.compile target.watched root with
  | .error rejection => return .error rejection
  | .ok action => return .ok (← action)

theorem compile_eq_error [Monad m] {settings : Settings} {root : Node} {rejection : Rejection}
    (rejected : settings.generate root = .error rejection) (target : Target m) :
    settings.compile target root = .error rejection := by
  rw [compile, rejected]
  rfl

theorem compileWatched_eq_error [Monad m] {settings : Settings} {root : Node}
    {rejection : Rejection} (rejected : settings.generate root = .error rejection)
    (target : Target m) (handed : List Sentinel) :
    (settings.compileWatched target root).run handed = pure (.error rejection, handed) := by
  rw [compileWatched, compile_eq_error rejected]
  rfl

theorem exists_generate_eq_error_iff (settings : Settings) (root : Node) :
    (∃ rejection, settings.generate root = .error rejection) ↔ root.offenders ≠ [] := by
  constructor
  · rintro ⟨rejection, rejected⟩ empty
    obtain ⟨first, rest, offenders, -⟩ := generate_eq_error_iff.mp rejected
    rw [empty] at offenders
    exact absurd offenders (List.cons_ne_nil first rest).symm
  · intro nonempty
    obtain ⟨first, rest, offenders⟩ := List.exists_cons_of_ne_nil nonempty
    exact ⟨first.rejection, generate_eq_error_iff.mpr ⟨first, rest, offenders, rfl⟩⟩

/-- A tree is rejected exactly if it has offenders.  The rejection carries the kind and
the place of the first of them, compiling fails with the same rejection for every
target, and the target has then been handed no sentinel. -/
theorem rejects_first_offender (settings : Settings) (root : Node) :
    ((∃ rejection, settings.generate root = .error rejection) ↔ root.offenders ≠ []) ∧
      ∀ rejection, settings.generate root = .error rejection →
        (∃ first rest, root.offenders = first :: rest ∧
          rejection.construct = first.kind.name ∧
          rejection.file = first.location.filename.getD "<template>" ∧
          rejection.line = first.location.line.getD 0 ∧
          rejection.column = first.location.column.getD 0) ∧
        ∀ (m : Type → Type) [Monad m] (target : Target m),
          settings.compile target root = .error rejection ∧
            (settings.compileWatched target root).run [] = pure (.error rejection, []) := by
  refine ⟨exists_generate_eq_error_iff settings root, ?_⟩
  intro rejection rejected
  constructor
  · obtain ⟨first, rest, offenders, rfl⟩ := generate_eq_error_iff.mp rejected
    exact ⟨first, rest, offenders, rfl, rfl, rfl, rfl⟩
  · intro m _ target
    exact ⟨compile_eq_error rejected target, compileWatched_eq_error rejected target []⟩

end Settings

/-- A clause below the code of a tag, with a filter in the block of the tag, and
constructs in a silent comment before it. -/
def Node.clauseInCode : Node :=
  .block ⟨[
    .blockComment "" false ⟨[.rejected .caseBlock {}], {}⟩ {},
    .tag ⟨"p", [], [], some ⟨"f()", false, false,
        some ⟨[.rejected .whenClause { line := some 3 }], {}⟩, {}⟩,
      ⟨[.rejected .filter { filename := some "a.pug" }], {}⟩, {}⟩], {}⟩

theorem Settings.rejects_first_offender_clauseInCode :
    ∃ rejection, ({} : Settings).generate Node.clauseInCode = .error rejection ∧
      rejection.construct = "When" ∧ rejection.file = "<template>" ∧ rejection.line = 3 ∧
      rejection.column = 0 ∧
      ∀ (m : Type → Type) [Monad m] (target : Target m),
        (({} : Settings).compileWatched target Node.clauseInCode).run [] =
          pure (.error rejection, []) := by
  have rejects := Settings.rejects_first_offender {} Node.clauseInCode
  obtain ⟨rejection, rejected⟩ := rejects.1.mpr (by decide)
  obtain ⟨⟨first, rest, offenders, construct, file, line, column⟩, final⟩ :=
    rejects.2 rejection rejected
  have firstEq : first = ⟨.whenClause, { line := some 3 }⟩ :=
    (List.cons.inj (offenders.symm.trans (by decide :
      Node.clauseInCode.offenders =
        [⟨.whenClause, { line := some 3 }⟩, ⟨.filter, { filename := some "a.pug" }⟩]))).1
  subst firstEq
  refine ⟨rejection, rejected, construct, file, line, column, ?_⟩
  intro m _ target
  exact (final m target).2

end Template
