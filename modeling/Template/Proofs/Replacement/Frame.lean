import Template.Proofs.Replacement.Calls
import Template.Proofs.SentinelStream

/-!
# What replacing leaves alone

`Program.Replaced` says what it means that a program is another one with replies in
place of its sentinels: statement by statement, everything outside sentinels is the
same, and each sentinel has become its one reply.  The main statement is that a
replacement that succeeds is of this form, with the replies of its calls, and that no
sentinel is left if no reply brings one in.
-/

namespace Template

mutual

/-- A statement with replies in place of its sentinels, which are listed in post-order. -/
inductive Stmt.Replaced : (replies : List Stmt) → Stmt → Stmt → Prop where
  | sentinel {below : List Stmt} {found : Sentinel} (count : below.length = found.countBelow)
      (reply : Stmt) : Stmt.Replaced (below ++ [reply]) (.sentinel found) reply
  | code (source : String) : Stmt.Replaced [] (.code source) (.code source)
  | scope {replies body result : List Stmt} :
      Stmt.AllReplaced replies body result → Stmt.Replaced replies (.scope body) (.scope result)
  | branch {first second consequent result : List Stmt} {alternate other : Else}
      (test : String) :
      Stmt.AllReplaced first consequent result → Else.Replaced second alternate other →
      Stmt.Replaced (first ++ second) (.branch test consequent alternate)
        (.branch test result other)
  | loop {replies : List Stmt} {bodies results : List (List Stmt)} (test : String) :
      Stmt.BodiesReplaced replies bodies results →
      Stmt.Replaced replies (.loop test bodies) (.loop test results)
  | each {first second body result : List Stmt} {alternate other : Option (List Stmt)}
      (helper object value key : String) :
      Stmt.AllReplaced first body result → Stmt.OptionReplaced second alternate other →
      Stmt.Replaced (first ++ second) (.each helper object value key body alternate)
        (.each helper object value key result other)
  | lineComment (text : String) : Stmt.Replaced [] (.lineComment text) (.lineComment text)
  | blockComment {replies body result : List Stmt} (text : String) :
      Stmt.AllReplaced replies body result →
      Stmt.Replaced replies (.blockComment text body) (.blockComment text result)
  | mixinBlock : Stmt.Replaced [] .mixinBlock .mixinBlock

inductive Else.Replaced : (replies : List Stmt) → Else → Else → Prop where
  | none : Else.Replaced [] .none .none
  | branch {first second consequent result : List Stmt} {alternate other : Else}
      (test : String) :
      Stmt.AllReplaced first consequent result → Else.Replaced second alternate other →
      Else.Replaced (first ++ second) (.branch test consequent alternate)
        (.branch test result other)
  | block {replies body result : List Stmt} :
      Stmt.AllReplaced replies body result → Else.Replaced replies (.block body) (.block result)

/-- Statements one by one, so that lists keep their lengths. -/
inductive Stmt.AllReplaced : (replies : List Stmt) → List Stmt → List Stmt → Prop where
  | nil : Stmt.AllReplaced [] [] []
  | cons {first second rest results : List Stmt} {stmt result : Stmt} :
      Stmt.Replaced first stmt result → Stmt.AllReplaced second rest results →
      Stmt.AllReplaced (first ++ second) (stmt :: rest) (result :: results)

inductive Stmt.BodiesReplaced :
    (replies : List Stmt) → List (List Stmt) → List (List Stmt) → Prop where
  | nil : Stmt.BodiesReplaced [] [] []
  | cons {first second body result : List Stmt} {rest results : List (List Stmt)} :
      Stmt.AllReplaced first body result → Stmt.BodiesReplaced second rest results →
      Stmt.BodiesReplaced (first ++ second) (body :: rest) (result :: results)

inductive Stmt.OptionReplaced :
    (replies : List Stmt) → Option (List Stmt) → Option (List Stmt) → Prop where
  | none : Stmt.OptionReplaced [] none none
  | some {replies body result : List Stmt} :
      Stmt.AllReplaced replies body result →
      Stmt.OptionReplaced replies (some body) (some result)

end

/-- A program with replies in place of its sentinels. -/
def Program.Replaced (replies : List Stmt) (program result : Program) : Prop :=
  Stmt.AllReplaced replies program result

/-- Replies to two listings in succession divide into those to each. -/
theorem split_replies {replies : List Stmt} {first second : List Sentinel}
    (count : replies.length = (first ++ second).length) :
    ∃ left right, replies = left ++ right ∧ left.length = first.length ∧
      right.length = second.length := by
  rw [List.length_append] at count
  refine ⟨replies.take first.length, replies.drop first.length,
    (List.take_append_drop _ _).symm, ?_, ?_⟩
  · rw [List.length_take]
    omega
  · rw [List.length_drop]
    omega

mutual

theorem Stmt.replaced_refill : (stmt : Stmt) → {replies : List Stmt} →
    replies.length = stmt.postorder.length → Stmt.Replaced replies stmt (stmt.refill replies)
  | .sentinel found, replies, count => by
      obtain ⟨below, last, rfl, countBelow, single⟩ := split_replies count
      obtain ⟨reply, rfl⟩ := List.length_eq_one_iff.mp single
      simp only [Stmt.refill, List.getLast?_concat, Option.getD_some]
      exact .sentinel countBelow reply
  | .code _, replies, count | .lineComment _, replies, count | .mixinBlock, replies, count => by
      obtain rfl := List.length_eq_zero_iff.mp count
      rw [Stmt.refill]
      constructor
  | .scope body, replies, count => by
      rw [Stmt.refill]
      exact .scope (Stmt.allReplaced_refillAll body count)
  | .blockComment text body, replies, count => by
      rw [Stmt.refill]
      exact .blockComment text (Stmt.allReplaced_refillAll body count)
  | .branch test consequent alternate, replies, count => by
      obtain ⟨left, right, rfl, first, second⟩ := split_replies count
      simp only [Stmt.refill, ← first, List.take_left, List.drop_left]
      exact .branch test (Stmt.allReplaced_refillAll consequent first)
        (Else.replaced_refill alternate second)
  | .loop test bodies, replies, count => by
      rw [Stmt.refill]
      exact .loop test (Stmt.bodiesReplaced_refillBodies bodies count)
  | .each helper object value key body alternate, replies, count => by
      obtain ⟨left, right, rfl, first, second⟩ := split_replies count
      simp only [Stmt.refill, ← first, List.take_left, List.drop_left]
      exact .each helper object value key (Stmt.allReplaced_refillAll body first)
        (Stmt.optionReplaced_refillOption alternate second)

theorem Else.replaced_refill : (alternate : Else) → {replies : List Stmt} →
    replies.length = alternate.postorder.length →
      Else.Replaced replies alternate (alternate.refill replies)
  | .none, replies, count => by
      obtain rfl := List.length_eq_zero_iff.mp count
      rw [Else.refill]
      exact .none
  | .branch test consequent alternate, replies, count => by
      obtain ⟨left, right, rfl, first, second⟩ := split_replies count
      simp only [Else.refill, ← first, List.take_left, List.drop_left]
      exact .branch test (Stmt.allReplaced_refillAll consequent first)
        (Else.replaced_refill alternate second)
  | .block body, replies, count => by
      rw [Else.refill]
      exact .block (Stmt.allReplaced_refillAll body count)

theorem Stmt.allReplaced_refillAll : (stmts : List Stmt) → {replies : List Stmt} →
    replies.length = (Stmt.postorderOf stmts).length →
      Stmt.AllReplaced replies stmts (Stmt.refillAll replies stmts)
  | [], replies, count => by
      obtain rfl := List.length_eq_zero_iff.mp count
      rw [Stmt.refillAll]
      exact .nil
  | stmt :: rest, replies, count => by
      obtain ⟨left, right, rfl, first, second⟩ := split_replies count
      simp only [Stmt.refillAll, ← first, List.take_left, List.drop_left]
      exact .cons (Stmt.replaced_refill stmt first) (Stmt.allReplaced_refillAll rest second)

theorem Stmt.bodiesReplaced_refillBodies : (bodies : List (List Stmt)) →
    {replies : List Stmt} → replies.length = (Stmt.postorderOfAll bodies).length →
      Stmt.BodiesReplaced replies bodies (Stmt.refillBodies replies bodies)
  | [], replies, count => by
      obtain rfl := List.length_eq_zero_iff.mp count
      rw [Stmt.refillBodies]
      exact .nil
  | body :: rest, replies, count => by
      obtain ⟨left, right, rfl, first, second⟩ := split_replies count
      simp only [Stmt.refillBodies, ← first, List.take_left, List.drop_left]
      exact .cons (Stmt.allReplaced_refillAll body first)
        (Stmt.bodiesReplaced_refillBodies rest second)

theorem Stmt.optionReplaced_refillOption : (body : Option (List Stmt)) →
    {replies : List Stmt} → replies.length = (Stmt.postorderOfOption body).length →
      Stmt.OptionReplaced replies body (Stmt.refillOption replies body)
  | none, replies, count => by
      obtain rfl := List.length_eq_zero_iff.mp count
      rw [Stmt.refillOption]
      exact .none
  | some body, replies, count => by
      rw [Stmt.refillOption]
      exact .some (Stmt.allReplaced_refillAll body count)

end

/-! ## Sentinels that are left -/

/-- Replies without sentinels. -/
def Stmt.Final (replies : List Stmt) : Prop :=
  ∀ reply ∈ replies, reply.sentinels = []

theorem Stmt.Final.take {replies : List Stmt} (final : Stmt.Final replies) (count : Nat) :
    Stmt.Final (replies.take count) :=
  fun reply membership => final reply (List.mem_of_mem_take membership)

theorem Stmt.Final.drop {replies : List Stmt} (final : Stmt.Final replies) (count : Nat) :
    Stmt.Final (replies.drop count) :=
  fun reply membership => final reply (List.mem_of_mem_drop membership)

mutual

theorem Stmt.sentinels_refill : (stmt : Stmt) → {replies : List Stmt} → Stmt.Final replies →
    (stmt.refill replies).sentinels = []
  | .sentinel _, replies, final => by
      rw [Stmt.refill]
      cases last : replies.getLast? with
      | none => rfl
      | some reply => exact final reply (List.mem_of_getLast? last)
  | .code _, _, _ | .lineComment _, _, _ | .mixinBlock, _, _ => by
      rw [Stmt.refill, Stmt.sentinels]
  | .scope body, _, final | .blockComment _ body, _, final => by
      simp only [Stmt.refill, Stmt.sentinels]
      exact Stmt.sentinelsOf_refillAll body final
  | .branch _ consequent alternate, _, final => by
      simp only [Stmt.refill, Stmt.sentinels, Stmt.sentinelsOf_refillAll consequent (final.take _),
        Else.sentinels_refill alternate (final.drop _), List.append_nil]
  | .loop _ bodies, _, final => by
      simp only [Stmt.refill, Stmt.sentinels]
      exact Stmt.sentinelsOfAll_refillBodies bodies final
  | .each _ _ _ _ body alternate, _, final => by
      simp only [Stmt.refill, Stmt.sentinels, Stmt.sentinelsOf_refillAll body (final.take _),
        Stmt.sentinelsOfOption_refillOption alternate (final.drop _), List.append_nil]

theorem Else.sentinels_refill : (alternate : Else) → {replies : List Stmt} →
    Stmt.Final replies → (alternate.refill replies).sentinels = []
  | .none, _, _ => by rw [Else.refill, Else.sentinels]
  | .branch _ consequent alternate, _, final => by
      simp only [Else.refill, Else.sentinels, Stmt.sentinelsOf_refillAll consequent (final.take _),
        Else.sentinels_refill alternate (final.drop _), List.append_nil]
  | .block body, _, final => by
      simp only [Else.refill, Else.sentinels]
      exact Stmt.sentinelsOf_refillAll body final

theorem Stmt.sentinelsOf_refillAll : (stmts : List Stmt) → {replies : List Stmt} →
    Stmt.Final replies → Stmt.sentinelsOf (Stmt.refillAll replies stmts) = []
  | [], _, _ => by rw [Stmt.refillAll, Stmt.sentinelsOf]
  | stmt :: rest, _, final => by
      simp only [Stmt.refillAll, Stmt.sentinelsOf, Stmt.sentinels_refill stmt (final.take _),
        Stmt.sentinelsOf_refillAll rest (final.drop _), List.append_nil]

theorem Stmt.sentinelsOfAll_refillBodies : (bodies : List (List Stmt)) →
    {replies : List Stmt} → Stmt.Final replies →
      Stmt.sentinelsOfAll (Stmt.refillBodies replies bodies) = []
  | [], _, _ => by rw [Stmt.refillBodies, Stmt.sentinelsOfAll]
  | body :: rest, _, final => by
      simp only [Stmt.refillBodies, Stmt.sentinelsOfAll,
        Stmt.sentinelsOf_refillAll body (final.take _),
        Stmt.sentinelsOfAll_refillBodies rest (final.drop _), List.append_nil]

theorem Stmt.sentinelsOfOption_refillOption : (body : Option (List Stmt)) →
    {replies : List Stmt} → Stmt.Final replies →
      Stmt.sentinelsOfOption (Stmt.refillOption replies body) = []
  | none, _, _ => by rw [Stmt.refillOption, Stmt.sentinelsOfOption]
  | some body, _, final => by
      simp only [Stmt.refillOption, Stmt.sentinelsOfOption]
      exact Stmt.sentinelsOf_refillAll body final

end

theorem Sentinel.inner_handed {replies : List Stmt} (final : Stmt.Final replies)
    (sentinel : Sentinel) : (sentinel.handed replies).inner = [] := by
  cases sentinel with
  | text | unescape => rfl
  | element tag attributes children =>
      simp only [Sentinel.handed, Sentinel.refill, Sentinel.inner]
      exact Stmt.sentinelsOf_refillAll children (final.drop _)

variable {σ ε : Type}

/-- Answers that bring in no sentinel: where the children that are handed over have none,
there is none in the reply. -/
def Answer.Finishes (answer : Answer σ ε) : Prop :=
  ∀ (handed : Sentinel) (state : σ) (reply : Stmt), handed.inner = [] →
    (runFrom state (answer handed)).1 = .ok reply → reply.sentinels = []

/-- With answers that bring in no sentinel, no call is replied to with one. -/
theorem Answer.Finishes.final_converse {answer : Answer σ ε} (finishes : answer.Finishes)
    {listing : List Sentinel} {replies : List Stmt} (final : Stmt.Final replies) {state : σ}
    {later : List Stmt}
    (answered : (answer.converse listing replies state).1.map Call.reply = later.map .ok) :
    Stmt.Final later := by
  induction listing generalizing replies state later with
  | nil =>
      obtain rfl : later = [] := by simpa [Answer.converse, eq_comm] using answered
      simp [Stmt.Final]
  | cons sentinel rest inductionHypothesis =>
      obtain ⟨fault, next, -, calls⟩ | ⟨reply, next, asked, calls⟩ :=
        answer.converse_cons sentinel rest replies state
      · cases later <;> simp [calls] at answered
      · cases later with
        | nil => simp [calls] at answered
        | cons first others =>
            simp only [calls, List.map_cons, List.cons.injEq, Except.ok.injEq] at answered
            obtain ⟨rfl, answered⟩ := answered
            have replyFinal : reply.sentinels = [] :=
              finishes _ state reply (sentinel.inner_handed final) (by rw [asked])
            have extended : Stmt.Final (replies ++ [reply]) := by
              simpa [Stmt.Final, or_imp, forall_and, replyFinal] using final
            have othersFinal := inductionHypothesis extended answered
            simpa [Stmt.Final, replyFinal] using othersFinal

/-- Replacing touches nothing but sentinels.  Where it succeeds, the result is the program
with the replies of the calls in place of its sentinels; and if the answers bring in no
sentinel, none is left. -/
theorem Program.replaced_replaceM (answer : Answer σ ε) (program : Program) (state : σ)
    (result : Program) (success : (runFrom state (program.replaceM answer)).1 = .ok result) :
    (∃ replies, (program.calls answer state).map Call.reply = replies.map .ok ∧
      Program.Replaced replies program result) ∧
    (answer.Finishes → result.sentinels = []) := by
  rw [Program.runFrom_replaceM] at success
  cases outcome : (answer.converse program.postorder [] state).1.mapM Call.reply with
  | error fault => simp [outcome, Except.map] at success
  | ok replies =>
      obtain rfl : program.refill replies = result := by simpa [outcome, Except.map] using success
      have answered := Call.mapM_reply_eq_ok_iff.mp outcome
      constructor
      · refine ⟨replies, by rw [Program.calls_eq_converse, answered], ?_⟩
        have each : ∀ call ∈ (answer.converse program.postorder [] state).1,
            ∃ reply, call.reply = .ok reply := by
          intro call membership
          have replied : call.reply ∈ replies.map .ok := answered ▸ List.mem_map_of_mem membership
          obtain ⟨reply, -, equal⟩ := List.mem_map.mp replied
          exact ⟨reply, equal.symm⟩
        have count : replies.length = program.postorder.length := by
          rw [← answer.length_converse each, ← List.length_map, ← answered, List.length_map]
        exact Stmt.allReplaced_refillAll program count
      · intro finishes
        exact Stmt.sentinelsOf_refillAll program
          (finishes.final_converse (by simp [Stmt.Final]) answered)

/-- The answer that calls methods of an object brings in no sentinel. -/
theorem Sentinel.sentinels_call {handed : Sentinel} (finished : handed.inner = [])
    (pragma : String) : (handed.call pragma).sentinels = [] := by
  cases handed with
  | text | unescape => rfl
  | element tag attributes children =>
      rw [Sentinel.inner] at finished
      simp [Sentinel.call, Stmt.sentinels, Stmt.sentinelsOf, Stmt.sentinelsOf_append, finished]

/-- The answers that call methods of an object, with a count of the calls. -/
def Answer.counted (pragma : String) : Answer Nat Unit := fun sentinel => do
  modify (· + 1)
  return sentinel.call pragma

/-- Sentinels in a further condition, in the alternate of an iteration, in a later body of
a loop and below an element. -/
def Program.scattered : Program := [
  .branch "a" [.code "f();"] (.branch "b" [.sentinel (.text ⟨[.expr "x"], true⟩)] .none),
  .each "__map" "xs" "x" "$index" [] (some [
    .sentinel (.element "p" none [.scope [.sentinel (.unescape "y")]])]),
  .loop "t" [[.lineComment " none"], [.blockComment "" [.sentinel (.unescape "z")]]]]

theorem Program.replaced_replaceM_scattered :
    ∃ result replies, (runFrom 0 (Program.scattered.replaceM (Answer.counted "h"))).1 =
        .ok result ∧
      replies.length = 4 ∧ Program.Replaced replies Program.scattered result ∧
      result.sentinels = [] := by
  have finishes : (Answer.counted "h").Finishes := by
    intro handed state reply finished replied
    obtain rfl : handed.call "h" = reply := Except.ok.inj replied
    exact Sentinel.sentinels_call finished "h"
  obtain ⟨⟨replies, answered, replaced⟩, finished⟩ :=
    Program.replaced_replaceM (Answer.counted "h") Program.scattered 0 _ rfl
  refine ⟨_, replies, rfl, ?_, replaced, finished finishes⟩
  rw [← List.length_map, ← answered]
  rfl

end Template
