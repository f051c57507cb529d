import Template.Replacement

/-!
# Replacing sentinels one after the other

Replacing the sentinels of a program is a walk over a tree that asks for replies on
its way.  Here the walk is laid out flat.  `Program.postorder` lists the sentinels as
they are met, an element after its children; `Sentinel.answerEach` asks for a reply to
each entry of such a list, and hands an element over with the latest replies in its
children; `Program.refill` puts all replies into the program.  The main statement,
`Program.replaceM_eq_answerEach`, says that the walk is the loop over the listing, for
every way of answering with effects that obey the laws of a monad.
-/

namespace Template

mutual

/-- The sentinels of a statement in source order, an element after its children. -/
def Stmt.postorder : Stmt → List Sentinel
  | .sentinel found => found.postorderBelow ++ [found]
  | .scope body | .blockComment _ body => Stmt.postorderOf body
  | .branch _ consequent alternate => Stmt.postorderOf consequent ++ alternate.postorder
  | .loop _ bodies => Stmt.postorderOfAll bodies
  | .each _ _ _ _ body alternate => Stmt.postorderOf body ++ Stmt.postorderOfOption alternate
  | .code _ | .lineComment _ | .mixinBlock => []

def Else.postorder : Else → List Sentinel
  | .none => []
  | .branch _ consequent alternate => Stmt.postorderOf consequent ++ alternate.postorder
  | .block body => Stmt.postorderOf body

/-- The sentinels below a sentinel. -/
def Sentinel.postorderBelow : Sentinel → List Sentinel
  | .element _ _ children => Stmt.postorderOf children
  | .text _ | .unescape _ => []

def Stmt.postorderOf : List Stmt → List Sentinel
  | [] => []
  | stmt :: rest => stmt.postorder ++ Stmt.postorderOf rest

def Stmt.postorderOfAll : List (List Stmt) → List Sentinel
  | [] => []
  | body :: rest => Stmt.postorderOf body ++ Stmt.postorderOfAll rest

def Stmt.postorderOfOption : Option (List Stmt) → List Sentinel
  | none => []
  | some body => Stmt.postorderOf body

end

/-- The sentinels of a program in source order, an element after its children. -/
def Program.postorder (program : Program) : List Sentinel :=
  Stmt.postorderOf program

mutual

theorem Stmt.postorder_perm : (stmt : Stmt) → stmt.postorder.Perm stmt.sentinels
  | .sentinel found => by
      simp only [Stmt.postorder, Stmt.sentinels]
      exact List.perm_append_singleton found _ |>.trans
        ((Sentinel.postorderBelow_perm found).cons found)
  | .scope body | .blockComment _ body => by
      simp only [Stmt.postorder, Stmt.sentinels]
      exact Stmt.postorderOf_perm body
  | .branch _ consequent alternate => by
      simp only [Stmt.postorder, Stmt.sentinels]
      exact (Stmt.postorderOf_perm consequent).append (Else.postorder_perm alternate)
  | .loop _ bodies => by
      simp only [Stmt.postorder, Stmt.sentinels]
      exact Stmt.postorderOfAll_perm bodies
  | .each _ _ _ _ body alternate => by
      simp only [Stmt.postorder, Stmt.sentinels]
      exact (Stmt.postorderOf_perm body).append (Stmt.postorderOfOption_perm alternate)
  | .code _ | .lineComment _ | .mixinBlock => .nil

theorem Else.postorder_perm : (alternate : Else) →
    alternate.postorder.Perm alternate.sentinels
  | .none => .nil
  | .branch _ consequent alternate => by
      simp only [Else.postorder, Else.sentinels]
      exact (Stmt.postorderOf_perm consequent).append (Else.postorder_perm alternate)
  | .block body => by
      simp only [Else.postorder, Else.sentinels]
      exact Stmt.postorderOf_perm body

theorem Sentinel.postorderBelow_perm : (sentinel : Sentinel) →
    sentinel.postorderBelow.Perm sentinel.inner
  | .element _ _ children => by
      simp only [Sentinel.postorderBelow, Sentinel.inner]
      exact Stmt.postorderOf_perm children
  | .text _ | .unescape _ => .nil

theorem Stmt.postorderOf_perm : (stmts : List Stmt) →
    (Stmt.postorderOf stmts).Perm (Stmt.sentinelsOf stmts)
  | [] => .nil
  | stmt :: rest => by
      simp only [Stmt.postorderOf, Stmt.sentinelsOf]
      exact (Stmt.postorder_perm stmt).append (Stmt.postorderOf_perm rest)

theorem Stmt.postorderOfAll_perm : (bodies : List (List Stmt)) →
    (Stmt.postorderOfAll bodies).Perm (Stmt.sentinelsOfAll bodies)
  | [] => .nil
  | body :: rest => by
      simp only [Stmt.postorderOfAll, Stmt.sentinelsOfAll]
      exact (Stmt.postorderOf_perm body).append (Stmt.postorderOfAll_perm rest)

theorem Stmt.postorderOfOption_perm : (body : Option (List Stmt)) →
    (Stmt.postorderOfOption body).Perm (Stmt.sentinelsOfOption body)
  | none => .nil
  | some body => by
      simp only [Stmt.postorderOfOption, Stmt.sentinelsOfOption]
      exact Stmt.postorderOf_perm body

end

/-! ## Putting replies in place -/

mutual

/-- A statement with replies in place of its sentinels.  There is one reply to each
sentinel of the statement, in post-order; those to the sentinels below another one
have gone into what the outer one was handed over with, so its own reply, which comes
last, is all that shows.  Where a reply is missing there is an empty scope. -/
def Stmt.refill (replies : List Stmt) : Stmt → Stmt
  | .sentinel _ => replies.getLast?.getD (.scope [])
  | .code source => .code source
  | .scope body => .scope (Stmt.refillAll replies body)
  | .branch test consequent alternate =>
      let count := (Stmt.postorderOf consequent).length
      .branch test (Stmt.refillAll (replies.take count) consequent)
        (alternate.refill (replies.drop count))
  | .loop test bodies => .loop test (Stmt.refillBodies replies bodies)
  | .each helper object value key body alternate =>
      let count := (Stmt.postorderOf body).length
      .each helper object value key (Stmt.refillAll (replies.take count) body)
        (Stmt.refillOption (replies.drop count) alternate)
  | .lineComment text => .lineComment text
  | .blockComment text body => .blockComment text (Stmt.refillAll replies body)
  | .mixinBlock => .mixinBlock

def Else.refill (replies : List Stmt) : Else → Else
  | .none => .none
  | .branch test consequent alternate =>
      let count := (Stmt.postorderOf consequent).length
      .branch test (Stmt.refillAll (replies.take count) consequent)
        (alternate.refill (replies.drop count))
  | .block body => .block (Stmt.refillAll replies body)

def Stmt.refillAll (replies : List Stmt) : List Stmt → List Stmt
  | [] => []
  | stmt :: rest =>
      stmt.refill (replies.take stmt.postorder.length) ::
        Stmt.refillAll (replies.drop stmt.postorder.length) rest

def Stmt.refillBodies (replies : List Stmt) : List (List Stmt) → List (List Stmt)
  | [] => []
  | body :: rest =>
      Stmt.refillAll (replies.take (Stmt.postorderOf body).length) body ::
        Stmt.refillBodies (replies.drop (Stmt.postorderOf body).length) rest

def Stmt.refillOption (replies : List Stmt) : Option (List Stmt) → Option (List Stmt)
  | none => none
  | some body => some (Stmt.refillAll replies body)

end

/-- A program with replies in place of its sentinels. -/
def Program.refill (replies : List Stmt) (program : Program) : Program :=
  Stmt.refillAll replies program

namespace Sentinel

/-- The number of sentinels below a sentinel. -/
def countBelow (sentinel : Sentinel) : Nat :=
  sentinel.postorderBelow.length

/-- A sentinel with replies in place of the sentinels in its children. -/
def refill (replies : List Stmt) : Sentinel → Sentinel
  | .text content => .text content
  | .unescape source => .unescape source
  | .element tag attributes children =>
      .element tag attributes (Stmt.refillAll replies children)

/-- The sentinel that is handed over, given all replies so far: the latest of them are
those to the sentinels below it. -/
def handed (replies : List Stmt) (sentinel : Sentinel) : Sentinel :=
  sentinel.refill (replies.drop (replies.length - sentinel.countBelow))

theorem handed_append {sentinel : Sentinel} {latest : List Stmt}
    (count : latest.length = sentinel.countBelow) (earlier : List Stmt) :
    sentinel.handed (earlier ++ latest) = sentinel.refill latest := by
  rw [handed, List.length_append, count, Nat.add_sub_cancel, List.drop_left]

end Sentinel

/-! ## The loop over a listing -/

section Loop

variable {m : Type → Type} [Monad m]

/-- Ask for replies to sentinels one after the other, given the replies so far. -/
def Sentinel.answerEach (answer : Sentinel → m Stmt) :
    List Sentinel → (replies : List Stmt) → m (List Stmt)
  | [], replies => pure replies
  | sentinel :: rest, replies => do
      let reply ← answer (sentinel.handed replies)
      answerEach answer rest (replies ++ [reply])

variable [LawfulMonad m] {answer : Sentinel → m Stmt} {α β γ : Type}

namespace Sentinel

theorem answerEach_append (first second : List Sentinel) (replies : List Stmt) :
    answerEach answer (first ++ second) replies =
      answerEach answer first replies >>= answerEach answer second := by
  induction first generalizing replies with
  | nil => rw [List.nil_append, answerEach, pure_bind]
  | cons sentinel rest inductionHypothesis =>
      simp only [List.cons_append, answerEach, inductionHypothesis, bind_assoc]

/-- After the loop there is one more reply for each entry of the listing, so it may be
continued as if that were known. -/
theorem answerEach_bind_congr {listing : List Sentinel} {replies : List Stmt}
    {next other : List Stmt → m β}
    (agree : ∀ all : List Stmt, all.length = replies.length + listing.length →
      next all = other all) :
    answerEach answer listing replies >>= next =
      answerEach answer listing replies >>= other := by
  induction listing generalizing replies with
  | nil =>
      rw [answerEach, pure_bind, pure_bind]
      exact agree replies rfl
  | cons sentinel rest inductionHypothesis =>
      simp only [answerEach, bind_assoc]
      apply bind_congr
      intro reply
      apply inductionHypothesis
      intro all length
      apply agree
      simp only [length, List.length_append, List.length_cons, List.length_nil]
      omega

end Sentinel

/-- A walk with effects is the loop over a listing: it gives what is assembled from the
replies, and earlier replies make no difference to it. -/
structure Unrolls (answer : Sentinel → m Stmt) (listing : List Sentinel) (walk : m α)
    (assemble : List Stmt → α) : Prop where
  walk_eq : walk = Sentinel.answerEach answer listing [] >>= fun replies =>
    pure (assemble replies)
  after : ∀ earlier, Sentinel.answerEach answer listing earlier =
    Sentinel.answerEach answer listing [] >>= fun replies => pure (earlier ++ replies)

namespace Unrolls

theorem done (value : α) : Unrolls answer [] (pure value) fun _ => value where
  walk_eq := by rw [Sentinel.answerEach, pure_bind]
  after earlier := by rw [Sentinel.answerEach, Sentinel.answerEach, pure_bind, List.append_nil]

theorem map {listing : List Sentinel} {walk : m α} {assemble : List Stmt → α}
    (unrolls : Unrolls answer listing walk assemble) (image : α → β) :
    Unrolls answer listing (walk >>= fun value => pure (image value))
      fun replies => image (assemble replies) where
  walk_eq := by simp only [unrolls.walk_eq, bind_assoc, pure_bind]
  after := unrolls.after

/-- Of two walks in succession, the second takes the replies that the first one left. -/
theorem both {first second : List Sentinel} {firstWalk : m α} {secondWalk : m β}
    {firstPart : List Stmt → α} {secondPart : List Stmt → β}
    (firstUnrolls : Unrolls answer first firstWalk firstPart)
    (secondUnrolls : Unrolls answer second secondWalk secondPart) (combine : α → β → γ) :
    Unrolls answer (first ++ second)
      (firstWalk >>= fun left => secondWalk >>= fun right => pure (combine left right))
      fun replies => combine (firstPart (replies.take first.length))
        (secondPart (replies.drop first.length)) where
  walk_eq := by
    simp only [firstUnrolls.walk_eq, secondUnrolls.walk_eq, Sentinel.answerEach_append,
      bind_assoc, pure_bind]
    apply Sentinel.answerEach_bind_congr
    intro all length
    have count : all.length = first.length := by simpa using length
    simp only [secondUnrolls.after all, bind_assoc, pure_bind, ← count, List.take_left,
      List.drop_left]
  after earlier := by
    simp only [Sentinel.answerEach_append, firstUnrolls.after earlier, bind_assoc, pure_bind]
    apply bind_congr
    intro replies
    rw [secondUnrolls.after (earlier ++ replies), secondUnrolls.after replies]
    simp only [bind_assoc, pure_bind, List.append_assoc]

/-- A sentinel is asked about after those below it, so that its reply comes last. -/
theorem ask {sentinel : Sentinel} {walk : m Sentinel}
    (unrolls : Unrolls answer sentinel.postorderBelow walk fun replies => sentinel.refill replies)
    (default : Stmt) :
    Unrolls answer (sentinel.postorderBelow ++ [sentinel]) (walk >>= answer)
      fun replies => replies.getLast?.getD default where
  walk_eq := by
    simp only [unrolls.walk_eq, Sentinel.answerEach_append, bind_assoc, pure_bind]
    apply Sentinel.answerEach_bind_congr
    intro all length
    have count : all.length = sentinel.countBelow := by
      simpa [Sentinel.countBelow] using length
    simp only [Sentinel.answerEach, bind_assoc, pure_bind, List.getLast?_concat,
      Option.getD_some, bind_pure]
    rw [← Sentinel.handed_append count [], List.nil_append]
  after earlier := by
    simp only [Sentinel.answerEach_append, unrolls.after earlier, bind_assoc, pure_bind]
    apply Sentinel.answerEach_bind_congr
    intro all length
    have count : all.length = sentinel.countBelow := by
      simpa [Sentinel.countBelow] using length
    simp only [Sentinel.answerEach, Sentinel.handed_append count earlier,
      ← Sentinel.handed_append count [], List.nil_append, bind_assoc, pure_bind,
      List.append_assoc]

end Unrolls

mutual

theorem Stmt.replaceM_unrolls : (stmt : Stmt) →
    Unrolls answer stmt.postorder (stmt.replaceM answer) fun replies => stmt.refill replies
  | .sentinel found => by
      simp only [Stmt.postorder, Stmt.replaceM, Stmt.refill]
      exact (Sentinel.replaceInnerM_unrolls found).ask (.scope [])
  | .code _ | .lineComment _ | .mixinBlock => by
      simp only [Stmt.postorder, Stmt.replaceM, Stmt.refill]
      exact Unrolls.done _
  | .scope body | .blockComment _ body => by
      simp only [Stmt.postorder, Stmt.replaceM, Stmt.refill]
      exact (Stmt.replaceAllM_unrolls body).map _
  | .branch _ consequent alternate => by
      simp only [Stmt.postorder, Stmt.replaceM, Stmt.refill]
      exact (Stmt.replaceAllM_unrolls consequent).both (Else.replaceM_unrolls alternate) _
  | .loop _ bodies => by
      simp only [Stmt.postorder, Stmt.replaceM, Stmt.refill]
      exact (Stmt.replaceBodiesM_unrolls bodies).map _
  | .each _ _ _ _ body alternate => by
      simp only [Stmt.postorder, Stmt.replaceM, Stmt.refill]
      exact (Stmt.replaceAllM_unrolls body).both (Stmt.replaceOptionM_unrolls alternate) _

theorem Else.replaceM_unrolls : (alternate : Else) →
    Unrolls answer alternate.postorder (alternate.replaceM answer) fun replies =>
      alternate.refill replies
  | .none => by
      simp only [Else.postorder, Else.replaceM, Else.refill]
      exact Unrolls.done _
  | .branch _ consequent alternate => by
      simp only [Else.postorder, Else.replaceM, Else.refill]
      exact (Stmt.replaceAllM_unrolls consequent).both (Else.replaceM_unrolls alternate) _
  | .block body => by
      simp only [Else.postorder, Else.replaceM, Else.refill]
      exact (Stmt.replaceAllM_unrolls body).map _

theorem Sentinel.replaceInnerM_unrolls : (sentinel : Sentinel) →
    Unrolls answer sentinel.postorderBelow (sentinel.replaceInnerM answer) fun replies =>
      sentinel.refill replies
  | .text _ | .unescape _ => by
      simp only [Sentinel.postorderBelow, Sentinel.replaceInnerM, Sentinel.refill]
      exact Unrolls.done _
  | .element _ _ children => by
      simp only [Sentinel.postorderBelow, Sentinel.replaceInnerM, Sentinel.refill]
      exact (Stmt.replaceAllM_unrolls children).map _

theorem Stmt.replaceAllM_unrolls : (stmts : List Stmt) →
    Unrolls answer (Stmt.postorderOf stmts) (Stmt.replaceAllM answer stmts) fun replies =>
      Stmt.refillAll replies stmts
  | [] => by
      simp only [Stmt.postorderOf, Stmt.replaceAllM, Stmt.refillAll]
      exact Unrolls.done _
  | stmt :: rest => by
      simp only [Stmt.postorderOf, Stmt.replaceAllM, Stmt.refillAll]
      exact (Stmt.replaceM_unrolls stmt).both (Stmt.replaceAllM_unrolls rest) _

theorem Stmt.replaceBodiesM_unrolls : (bodies : List (List Stmt)) →
    Unrolls answer (Stmt.postorderOfAll bodies) (Stmt.replaceBodiesM answer bodies)
      fun replies => Stmt.refillBodies replies bodies
  | [] => by
      simp only [Stmt.postorderOfAll, Stmt.replaceBodiesM, Stmt.refillBodies]
      exact Unrolls.done _
  | body :: rest => by
      simp only [Stmt.postorderOfAll, Stmt.replaceBodiesM, Stmt.refillBodies]
      exact (Stmt.replaceAllM_unrolls body).both (Stmt.replaceBodiesM_unrolls rest) _

theorem Stmt.replaceOptionM_unrolls : (body : Option (List Stmt)) →
    Unrolls answer (Stmt.postorderOfOption body) (Stmt.replaceOptionM answer body)
      fun replies => Stmt.refillOption replies body
  | none => by
      simp only [Stmt.postorderOfOption, Stmt.replaceOptionM, Stmt.refillOption]
      exact Unrolls.done _
  | some body => by
      simp only [Stmt.postorderOfOption, Stmt.replaceOptionM, Stmt.refillOption]
      exact (Stmt.replaceAllM_unrolls body).map _

end

/-- Replacing the sentinels of a program is asking for a reply to each of them in
post-order, and putting the replies in place. -/
theorem Program.replaceM_eq_answerEach (program : Program) :
    program.replaceM answer = (do
      let replies ← Sentinel.answerEach answer program.postorder []
      pure (program.refill replies)) :=
  (Stmt.replaceAllM_unrolls program).walk_eq

end Loop

end Template
