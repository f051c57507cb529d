import Template.Proofs.Replacement.Postorder
import Template.Proofs.Running

/-!
# The calls for replies

Sentinels are answered by calls that keep a state and may fail.  `Program.calls` lists
the calls that are made while the sentinels of a program are replaced: it runs the
replacement with answers that note what they are handed and what they reply.  The main
statement is that the calls follow the post-order listing of the program's sentinels,
and that nothing is called after the first call that fails.
-/

namespace Template

variable {σ ε : Type}

/-- A way of answering sentinels that keeps a state and may fail.  A call that fails may
still change the state. -/
abbrev Answer (σ ε : Type) := Sentinel → ExceptT ε (StateM σ) Stmt

/-- A call: the sentinel that was handed over, and what came back. -/
structure Call (ε : Type) where
  handed : Sentinel
  reply : Except ε Stmt

namespace Call

/-- The statement that came back, if the call did not fail. -/
def reply? (call : Call ε) : Option Stmt := call.reply.toOption

theorem reply?_ok (handed : Sentinel) (reply : Stmt) :
    (⟨handed, .ok reply⟩ : Call ε).reply? = some reply := rfl

theorem mapM_reply_eq_ok_iff {calls : List (Call ε)} {replies : List Stmt} :
    calls.mapM reply = .ok replies ↔ calls.map reply = replies.map .ok := by
  induction calls generalizing replies with
  | nil => simp [pure, Except.pure, eq_comm]
  | cons call rest inductionHypothesis =>
      rcases call with ⟨handed, _ | statement⟩
      · cases replies <;> simp [bind, Except.bind]
      · cases replies with
        | nil =>
            cases later : rest.mapM reply <;> simp [later, bind, Except.bind, pure, Except.pure]
        | cons first others =>
            rw [List.map_cons, List.map_cons, List.cons.injEq, ← inductionHypothesis]
            cases later : rest.mapM reply <;> simp [later, bind, Except.bind, pure, Except.pure]

theorem exists_mapM_reply_eq_ok {calls : List (Call ε)}
    (answered : ∀ call ∈ calls, ∃ reply, call.reply = .ok reply) :
    ∃ replies, calls.mapM reply = .ok replies := by
  induction calls with
  | nil => exact ⟨[], rfl⟩
  | cons call rest inductionHypothesis =>
      rw [List.forall_mem_cons] at answered
      obtain ⟨⟨first, answered⟩, others⟩ := answered
      obtain ⟨replies, outcome⟩ := inductionHypothesis others
      exact ⟨first :: replies, by rw [List.mapM_cons, answered, outcome]; rfl⟩

end Call

namespace Answer

/-- Answers like the given ones that also note each call. -/
def noting (answer : Answer σ ε) : Answer (σ × List (Call ε)) ε := fun sentinel =>
  ExceptT.mk fun (state, calls) =>
    let (reply, state) := runFrom state (answer sentinel)
    (reply, state, calls ++ [⟨sentinel, reply⟩])

/-- The calls for a listing of sentinels, given the replies so far, and the state after
them. -/
def converse (answer : Answer σ ε) :
    List Sentinel → (replies : List Stmt) → σ → List (Call ε) × σ
  | [], _, state => ([], state)
  | sentinel :: rest, replies, state =>
    let handed := sentinel.handed replies
    match runFrom state (answer handed) with
    | (.error fault, state) => ([⟨handed, .error fault⟩], state)
    | (.ok reply, state) =>
      let (calls, state) := answer.converse rest (replies ++ [reply]) state
      (⟨handed, .ok reply⟩ :: calls, state)

/-- The first call for a listing either fails and is the only one, or is followed by the
calls for the rest. -/
theorem converse_cons (answer : Answer σ ε) (sentinel : Sentinel) (rest : List Sentinel)
    (replies : List Stmt) (state : σ) :
    (∃ fault next, runFrom state (answer (sentinel.handed replies)) = (.error fault, next) ∧
      answer.converse (sentinel :: rest) replies state =
        ([⟨sentinel.handed replies, .error fault⟩], next)) ∨
    (∃ reply next, runFrom state (answer (sentinel.handed replies)) = (.ok reply, next) ∧
      answer.converse (sentinel :: rest) replies state =
        (⟨sentinel.handed replies, .ok reply⟩ ::
            (answer.converse rest (replies ++ [reply]) next).1,
          (answer.converse rest (replies ++ [reply]) next).2)) := by
  rw [converse]
  rcases answered : runFrom state (answer (sentinel.handed replies)) with ⟨fault | reply, next⟩
  · exact .inl ⟨fault, next, rfl, rfl⟩
  · exact .inr ⟨reply, next, rfl, rfl⟩

theorem runFrom_answerEach (answer : Answer σ ε) (listing : List Sentinel)
    (replies : List Stmt) (state : σ) :
    runFrom state (Sentinel.answerEach answer listing replies) =
      (((answer.converse listing replies state).1.mapM Call.reply).map (replies ++ ·),
        (answer.converse listing replies state).2) := by
  induction listing generalizing replies state with
  | nil =>
      rw [Sentinel.answerEach, runFrom_pure]
      simp [converse, Except.map, pure, Except.pure]
  | cons sentinel rest inductionHypothesis =>
      rw [Sentinel.answerEach, runFrom_bind]
      obtain ⟨fault, next, answered, calls⟩ | ⟨reply, next, answered, calls⟩ :=
        answer.converse_cons sentinel rest replies state
      · rw [answered, calls]
        rfl
      · simp only [answered, calls, inductionHypothesis, List.mapM_cons]
        cases (answer.converse rest (replies ++ [reply]) next).1.mapM Call.reply with
        | error fault => rfl
        | ok later => simp [Except.map, bind, Except.bind, pure, Except.pure]

/-- Noting calls changes nothing but the notes. -/
theorem runFrom_answerEach_noting (answer : Answer σ ε) (listing : List Sentinel)
    (replies : List Stmt) (state : σ) (notes : List (Call ε)) :
    runFrom (state, notes) (Sentinel.answerEach answer.noting listing replies) =
      ((runFrom state (Sentinel.answerEach answer listing replies)).1,
        (answer.converse listing replies state).2,
        notes ++ (answer.converse listing replies state).1) := by
  induction listing generalizing replies state notes with
  | nil => simp [Sentinel.answerEach, runFrom_pure, converse]
  | cons sentinel rest inductionHypothesis =>
      have noted : runFrom (state, notes) (answer.noting (sentinel.handed replies)) =
          ((runFrom state (answer (sentinel.handed replies))).1,
            (runFrom state (answer (sentinel.handed replies))).2,
            notes ++ [⟨sentinel.handed replies,
              (runFrom state (answer (sentinel.handed replies))).1⟩]) := rfl
      rw [Sentinel.answerEach, Sentinel.answerEach, runFrom_bind, runFrom_bind, noted]
      obtain ⟨fault, next, answered, calls⟩ | ⟨reply, next, answered, calls⟩ :=
        answer.converse_cons sentinel rest replies state
      · rw [answered, calls]
      · simp only [answered, calls, inductionHypothesis, List.append_assoc,
          List.singleton_append]

/-- Each call is for the sentinel at its place in the listing. -/
theorem handed_converse (answer : Answer σ ε) {listing : List Sentinel} {replies : List Stmt}
    {state : σ} {index : Nat} {call : Call ε}
    (found : (answer.converse listing replies state).1[index]? = some call) :
    ∃ sentinel, listing[index]? = some sentinel ∧
      call.handed = sentinel.handed (replies ++
        ((answer.converse listing replies state).1.take index).filterMap Call.reply?) := by
  induction listing generalizing replies state index with
  | nil => simp [converse] at found
  | cons sentinel rest inductionHypothesis =>
      obtain ⟨fault, next, -, calls⟩ | ⟨reply, next, -, calls⟩ :=
        answer.converse_cons sentinel rest replies state
      all_goals
        rw [calls] at found ⊢
        cases index with
        | zero =>
            obtain rfl : _ = call := by simpa using found
            exact ⟨sentinel, rfl, by simp⟩
        | succ index => ?_
      · simp at found
      · obtain ⟨other, listed, handed⟩ := inductionHypothesis found
        refine ⟨other, listed, ?_⟩
        simp only [handed, List.take_succ_cons, List.filterMap_cons, Call.reply?_ok,
          List.append_assoc, List.singleton_append]

/-- Without a failure, every sentinel of the listing is asked about. -/
theorem length_converse (answer : Answer σ ε) {listing : List Sentinel} {replies : List Stmt}
    {state : σ}
    (answered : ∀ call ∈ (answer.converse listing replies state).1,
      ∃ reply, call.reply = .ok reply) :
    (answer.converse listing replies state).1.length = listing.length := by
  induction listing generalizing replies state with
  | nil => rfl
  | cons sentinel rest inductionHypothesis =>
      obtain ⟨fault, next, -, calls⟩ | ⟨reply, next, -, calls⟩ :=
        answer.converse_cons sentinel rest replies state
      · simp [calls] at answered
      · rw [calls] at answered ⊢
        rw [List.length_cons, List.length_cons,
          inductionHypothesis fun call membership => answered call (.tail _ membership)]

/-- A call that fails is the last one, and the others have succeeded. -/
theorem converse_of_fault (answer : Answer σ ε) {listing : List Sentinel} {replies : List Stmt}
    {state : σ} {index : Nat} {call : Call ε} {fault : ε}
    (found : (answer.converse listing replies state).1[index]? = some call)
    (failed : call.reply = .error fault) :
    (answer.converse listing replies state).1.length = index + 1 ∧
      (answer.converse listing replies state).1.mapM Call.reply = .error fault := by
  induction listing generalizing replies state index with
  | nil => simp [converse] at found
  | cons sentinel rest inductionHypothesis =>
      obtain ⟨fault, next, -, calls⟩ | ⟨reply, next, -, calls⟩ :=
        answer.converse_cons sentinel rest replies state
      · cases index with
        | succ index => simp [calls] at found
        | zero =>
            obtain rfl : _ = call := by simpa [calls] using found
            cases failed
            rw [calls]
            exact ⟨rfl, rfl⟩
      · cases index with
        | zero =>
            obtain rfl : _ = call := by simpa [calls] using found
            cases failed
        | succ index =>
            rw [calls] at found ⊢
            obtain ⟨length, outcome⟩ := inductionHypothesis found
            exact ⟨by rw [List.length_cons, length], by rw [List.mapM_cons, outcome]; rfl⟩

end Answer

namespace Program

/-- The calls that are made while the sentinels of a program are replaced, in order. -/
def calls (answer : Answer σ ε) (program : Program) (state : σ) : List (Call ε) :=
  (runFrom (state, []) (program.replaceM answer.noting)).2.2

/-- The outcome of a replacement: what the calls reply is put in place, and a failure is
passed on. -/
theorem runFrom_replaceM (answer : Answer σ ε) (program : Program) (state : σ) :
    runFrom state (program.replaceM answer) =
      (((answer.converse program.postorder [] state).1.mapM Call.reply).map (program.refill ·),
        (answer.converse program.postorder [] state).2) := by
  rw [program.replaceM_eq_answerEach, runFrom_bind, Answer.runFrom_answerEach]
  cases (answer.converse program.postorder [] state).1.mapM Call.reply <;> rfl

theorem runFrom_replaceM_noting (answer : Answer σ ε) (program : Program) (state : σ) :
    runFrom (state, []) (program.replaceM answer.noting) =
      ((runFrom state (program.replaceM answer)).1, (runFrom state (program.replaceM answer)).2,
        (answer.converse program.postorder [] state).1) := by
  rw [program.runFrom_replaceM answer, program.replaceM_eq_answerEach, runFrom_bind,
    Answer.runFrom_answerEach_noting, Answer.runFrom_answerEach]
  cases (answer.converse program.postorder [] state).1.mapM Call.reply <;> rfl

theorem calls_eq_converse (answer : Answer σ ε) (program : Program) (state : σ) :
    program.calls answer state = (answer.converse program.postorder [] state).1 := by
  rw [calls, runFrom_replaceM_noting]

/-- The calls follow the post-order listing of the sentinels.  Call by call, the sentinel
that is handed over is the next one of the listing, with what has been replied about
the sentinels below it in its children.  If no call fails, the whole listing is gone
through and the replacement succeeds; if one fails, it is the last one and its fault is
what the replacement fails with.  The listing has the same sentinels as the program. -/
theorem calls_follow_postorder (answer : Answer σ ε) (program : Program) (state : σ) :
    let outcome := runFrom state (program.replaceM answer)
    let calls := program.calls answer state
    runFrom (state, []) (program.replaceM answer.noting) = (outcome.1, outcome.2, calls) ∧
      (∀ (index : Nat) (call : Call ε), calls[index]? = some call →
        ∃ sentinel : Sentinel, program.postorder[index]? = some sentinel ∧
          call.handed = sentinel.handed ((calls.take index).filterMap Call.reply?)) ∧
      ((∀ call ∈ calls, ∃ reply, call.reply = .ok reply) →
        calls.length = program.postorder.length ∧ ∃ replaced, outcome.1 = .ok replaced) ∧
      (∀ (index : Nat) (call : Call ε) (fault : ε), calls[index]? = some call →
        call.reply = .error fault → calls.length = index + 1 ∧ outcome.1 = .error fault) ∧
      program.postorder.Perm program.sentinels := by
  simp only [calls_eq_converse]
  refine ⟨runFrom_replaceM_noting answer program state, ?_, ?_, ?_,
    Stmt.postorderOf_perm program⟩
  · intro index call found
    exact answer.handed_converse found
  · intro answered
    obtain ⟨replies, outcome⟩ := Call.exists_mapM_reply_eq_ok answered
    exact ⟨answer.length_converse answered, program.refill replies, by
      rw [runFrom_replaceM, outcome]; rfl⟩
  · intro index call fault found failed
    obtain ⟨length, outcome⟩ := answer.converse_of_fault found failed
    exact ⟨length, by rw [runFrom_replaceM, outcome]; rfl⟩

end Program

end Template
