import Template.Proofs.Translation

/-!
# Silent comments

A silent comment gives no statement, so that nothing should change when it is deleted.
`Node.prune` deletes all of them from the lists of nodes in a tree.  One kind of list is
told apart: each node in the body of a loop becomes a closure of its own, and a silent
comment there becomes an empty one.  The main statement is that what is generated stays
the same without the silent comments outside of the bodies of loops, and without all of
them exactly if no body of a loop has one.

What deleting does to a program is carried by `Thinned`: the uses of helpers stay, and
the closures that are lost are counted.
-/

namespace Template

/-- Whether a node is a comment that is not to be seen. -/
def Node.isSilent : Node → Bool
  | .comment _ visible _ | .blockComment _ visible _ _ => !visible
  | _ => false

/-! ## Deleting silent comments -/

mutual

/-- A node without the silent comments in its lists of nodes, at any depth.  Those in
the bodies of loops are deleted only if `fromLoops` is set. -/
def Node.prune (fromLoops : Bool) : Node → Node
  | .block content => .block (content.prune fromLoops)
  | .tag content => .tag (content.prune fromLoops)
  | .text value location => .text value location
  | .literal text location => .literal text location
  | .code content => .code (content.prune fromLoops)
  | .conditional content => .conditional (content.prune fromLoops)
  | .loop test ⟨nodes, place⟩ location =>
      .loop test ⟨Node.pruneOf fromLoops fromLoops nodes, place⟩ location
  | .each content => .each (content.prune fromLoops)
  | .comment value visible location => .comment value visible location
  | .blockComment value visible content location =>
      .blockComment value visible (content.prune fromLoops) location
  | .mixinBlock location => .mixinBlock location
  | .rejected kind location => .rejected kind location

def Block.prune (fromLoops : Bool) : Block → Block
  | ⟨nodes, location⟩ => ⟨Node.pruneOf fromLoops true nodes, location⟩

/-- The pruned nodes of a list, without the silent comments in the list itself if
`delete` is set. -/
def Node.pruneOf (fromLoops delete : Bool) : List Node → List Node
  | [] => []
  | first :: rest =>
      if delete && first.isSilent then Node.pruneOf fromLoops delete rest
      else first.prune fromLoops :: Node.pruneOf fromLoops delete rest

def Tag.prune (fromLoops : Bool) : Tag → Tag
  | ⟨name, attributes, attributeBlocks, content, body, location⟩ =>
      ⟨name, attributes, attributeBlocks, Code.pruneOption fromLoops content,
        body.prune fromLoops, location⟩

def Code.prune (fromLoops : Bool) : Code → Code
  | ⟨source, buffered, mustEscape, content, location⟩ =>
      ⟨source, buffered, mustEscape, Block.pruneOption fromLoops content, location⟩

def Code.pruneOption (fromLoops : Bool) : Option Code → Option Code
  | none => none
  | some content => some (content.prune fromLoops)

def Block.pruneOption (fromLoops : Bool) : Option Block → Option Block
  | none => none
  | some content => some (content.prune fromLoops)

def Conditional.prune (fromLoops : Bool) : Conditional → Conditional
  | ⟨test, consequent, other, location⟩ =>
      ⟨test, consequent.prune fromLoops, Alternate.pruneOption fromLoops other, location⟩

def Alternate.prune (fromLoops : Bool) : Alternate → Alternate
  | .conditional content => .conditional (content.prune fromLoops)
  | .block content => .block (content.prune fromLoops)

def Alternate.pruneOption (fromLoops : Bool) : Option Alternate → Option Alternate
  | none => none
  | some content => some (content.prune fromLoops)

def Each.prune (fromLoops : Bool) : Each → Each
  | ⟨object, value, key, content, other, location⟩ =>
      ⟨object, value, key, content.prune fromLoops, Block.pruneOption fromLoops other, location⟩

end

mutual

/-- The number of silent comments that stand in the bodies of loops themselves.  What is
in a silent comment does not count. -/
def Node.silentInLoops : Node → Nat
  | .block content => content.silentInLoops
  | .tag content => content.silentInLoops
  | .code content => content.silentInLoops
  | .conditional content => content.silentInLoops
  | .loop _ ⟨nodes, _⟩ _ => nodes.countP Node.isSilent + Node.silentInLoopsOf nodes
  | .each content => content.silentInLoops
  | .blockComment _ visible content _ => if visible then content.silentInLoops else 0
  | .text .. | .literal .. | .comment .. | .mixinBlock _ | .rejected .. => 0

def Block.silentInLoops : Block → Nat
  | ⟨nodes, _⟩ => Node.silentInLoopsOf nodes

def Node.silentInLoopsOf : List Node → Nat
  | [] => 0
  | first :: rest => first.silentInLoops + Node.silentInLoopsOf rest

def Tag.silentInLoops : Tag → Nat
  | ⟨_, _, _, content, body, _⟩ => Code.silentInLoopsOfOption content + body.silentInLoops

def Code.silentInLoops : Code → Nat
  | ⟨_, _, _, content, _⟩ => Block.silentInLoopsOfOption content

def Code.silentInLoopsOfOption : Option Code → Nat
  | none => 0
  | some content => content.silentInLoops

def Block.silentInLoopsOfOption : Option Block → Nat
  | none => 0
  | some content => content.silentInLoops

def Conditional.silentInLoops : Conditional → Nat
  | ⟨_, consequent, other, _⟩ =>
      consequent.silentInLoops + Alternate.silentInLoopsOfOption other

def Alternate.silentInLoops : Alternate → Nat
  | .conditional content => content.silentInLoops
  | .block content => content.silentInLoops

def Alternate.silentInLoopsOfOption : Option Alternate → Nat
  | none => 0
  | some content => content.silentInLoops

def Each.silentInLoops : Each → Nat
  | ⟨_, _, _, content, other, _⟩ =>
      content.silentInLoops + Block.silentInLoopsOfOption other

end

/-- A silent comment has nothing to reject, no statement, and no loop. -/
theorem Node.eq_nothing_of_isSilent {node : Node} (silent : node.isSilent = true)
    (indexName : String) :
    node.offenders = [] ∧ node.translate indexName = [] ∧ node.silentInLoops = 0 := by
  cases node with
  | comment value visible location | blockComment value visible content location =>
      cases visible with
      | true => exact absurd silent (by simp [Node.isSilent])
      | false => simp [Node.offenders, Node.translate, Node.silentInLoops]
  | _ => exact absurd silent (by simp [Node.isSilent])

/-! ## Offenders -/

mutual

theorem Node.offenders_prune (fromLoops : Bool) : (content : Node) →
    (content.prune fromLoops).offenders = content.offenders
  | .block content => by
      simp only [Node.prune, Node.offenders, Block.offenders_prune fromLoops content]
  | .tag content => by
      simp only [Node.prune, Node.offenders, Tag.offenders_prune fromLoops content]
  | .code content => by
      simp only [Node.prune, Node.offenders, Code.offenders_prune fromLoops content]
  | .conditional content => by
      simp only [Node.prune, Node.offenders, Conditional.offenders_prune fromLoops content]
  | .loop _ ⟨nodes, _⟩ _ => by
      simp only [Node.prune, Node.offenders, Block.offenders,
        Node.offendersOf_pruneOf fromLoops fromLoops nodes]
  | .each content => by
      simp only [Node.prune, Node.offenders, Each.offenders_prune fromLoops content]
  | .blockComment _ visible content _ => by
      simp only [Node.prune, Node.offenders, Block.offenders_prune fromLoops content]
  | .text .. | .literal .. | .comment .. | .mixinBlock _ | .rejected .. => by
      simp only [Node.prune]

theorem Block.offenders_prune (fromLoops : Bool) : (content : Block) →
    (content.prune fromLoops).offenders = content.offenders
  | ⟨nodes, _⟩ => by
      simp only [Block.prune, Block.offenders, Node.offendersOf_pruneOf fromLoops true nodes]

theorem Node.offendersOf_pruneOf (fromLoops delete : Bool) : (nodes : List Node) →
    Node.offendersOf (Node.pruneOf fromLoops delete nodes) = Node.offendersOf nodes
  | [] => by simp only [Node.pruneOf]
  | first :: rest => by
      rw [Node.pruneOf, Node.offendersOf]
      split
      next deleted =>
        rw [Bool.and_eq_true] at deleted
        rw [(Node.eq_nothing_of_isSilent deleted.2 "").1, List.nil_append]
        exact Node.offendersOf_pruneOf fromLoops delete rest
      next =>
        rw [Node.offendersOf, Node.offenders_prune fromLoops first,
          Node.offendersOf_pruneOf fromLoops delete rest]

theorem Tag.offenders_prune (fromLoops : Bool) : (content : Tag) →
    (content.prune fromLoops).offenders = content.offenders
  | ⟨_, _, _, content, body, _⟩ => by
      simp only [Tag.prune, Tag.offenders, Code.offendersOfOption_pruneOption fromLoops content,
        Block.offenders_prune fromLoops body]

theorem Code.offenders_prune (fromLoops : Bool) : (content : Code) →
    (content.prune fromLoops).offenders = content.offenders
  | ⟨_, _, _, content, _⟩ => by
      simp only [Code.prune, Code.offenders,
        Block.offendersOfOption_pruneOption fromLoops content]

theorem Code.offendersOfOption_pruneOption (fromLoops : Bool) : (content : Option Code) →
    Code.offendersOfOption (Code.pruneOption fromLoops content) = Code.offendersOfOption content
  | none => by simp only [Code.pruneOption]
  | some content => by
      simp only [Code.pruneOption, Code.offendersOfOption, Code.offenders_prune fromLoops content]

theorem Block.offendersOfOption_pruneOption (fromLoops : Bool) : (content : Option Block) →
    Block.offendersOfOption (Block.pruneOption fromLoops content) =
      Block.offendersOfOption content
  | none => by simp only [Block.pruneOption]
  | some content => by
      simp only [Block.pruneOption, Block.offendersOfOption,
        Block.offenders_prune fromLoops content]

theorem Conditional.offenders_prune (fromLoops : Bool) : (content : Conditional) →
    (content.prune fromLoops).offenders = content.offenders
  | ⟨_, consequent, other, _⟩ => by
      simp only [Conditional.prune, Conditional.offenders,
        Block.offenders_prune fromLoops consequent,
        Alternate.offendersOfOption_pruneOption fromLoops other]

theorem Alternate.offenders_prune (fromLoops : Bool) : (content : Alternate) →
    (content.prune fromLoops).offenders = content.offenders
  | .conditional content => by
      simp only [Alternate.prune, Alternate.offenders,
        Conditional.offenders_prune fromLoops content]
  | .block content => by
      simp only [Alternate.prune, Alternate.offenders, Block.offenders_prune fromLoops content]

theorem Alternate.offendersOfOption_pruneOption (fromLoops : Bool) :
    (content : Option Alternate) →
    Alternate.offendersOfOption (Alternate.pruneOption fromLoops content) =
      Alternate.offendersOfOption content
  | none => by simp only [Alternate.pruneOption]
  | some content => by
      simp only [Alternate.pruneOption, Alternate.offendersOfOption,
        Alternate.offenders_prune fromLoops content]

theorem Each.offenders_prune (fromLoops : Bool) : (content : Each) →
    (content.prune fromLoops).offenders = content.offenders
  | ⟨_, _, _, content, other, _⟩ => by
      simp only [Each.prune, Each.offenders, Block.offenders_prune fromLoops content,
        Block.offendersOfOption_pruneOption fromLoops other]

end

/-! ## Programs that lose closures -/

/-- The closures that a statement has itself, apart from the statements in it. -/
def Stmt.ownClosures : Stmt → Nat
  | .loop _ bodies => bodies.length
  | _ => 0

def Stmt.closuresIn : List Stmt → Nat
  | [] => 0
  | stmt :: rest => stmt.ownClosures + Stmt.closuresIn rest

@[simp] theorem Stmt.closuresIn_nil : Stmt.closuresIn [] = 0 := rfl

@[simp] theorem Stmt.closuresIn_cons (stmt : Stmt) (rest : List Stmt) :
    Stmt.closuresIn (stmt :: rest) = stmt.ownClosures + Stmt.closuresIn rest := rfl

@[simp] theorem Stmt.closuresIn_append (first second : List Stmt) :
    Stmt.closuresIn (first ++ second) = Stmt.closuresIn first + Stmt.closuresIn second := by
  induction first with
  | nil => simp
  | cons stmt rest inductionHypothesis =>
      rw [List.cons_append, closuresIn_cons, closuresIn_cons, inductionHypothesis, Nat.add_assoc]

theorem Stmt.closuresIn_codeStmt (code : Code) :
    Stmt.closuresIn (Generation.codeStmt code).statements = 0 := by
  simp only [Generation.codeStmt]
  split
  · split <;> rfl
  · rfl

/-- A part of a program, the statements of which are listed by `listing`, that has lost a
number of closures.  Where it has lost none it is unchanged, and the helpers that it uses
are the same in any case. -/
structure Thinned {α : Type} (listing : α → List Stmt) (lost : Nat) (before after : α) : Prop where
  uses : Stmt.usesIn (listing after) = Stmt.usesIn (listing before)
  closures : Stmt.closuresIn (listing after) + lost = Stmt.closuresIn (listing before)
  same : lost = 0 → after = before

namespace Thinned

variable {α β γ : Type}
variable {firstListing : α → List Stmt} {secondListing : β → List Stmt}
variable {listing : γ → List Stmt} {firstLost secondLost : Nat}

theorem refl (listing : α → List Stmt) (part : α) : Thinned listing 0 part part where
  uses := rfl
  closures := rfl
  same _ := rfl

/-- What is built from one part has lost what the part has lost, if it adds the same
uses whatever the part is, and no closure. -/
theorem wrap (own : List Helper) (build : α → γ)
    (uses : ∀ part, Stmt.usesIn (listing (build part)) =
      own ++ Stmt.usesIn (firstListing part))
    (closures : ∀ part, Stmt.closuresIn (listing (build part)) =
      Stmt.closuresIn (firstListing part))
    {before after : α} (thinned : Thinned firstListing firstLost before after) :
    Thinned listing firstLost (build before) (build after) where
  uses := by rw [uses, uses, thinned.uses]
  closures := by rw [closures, closures, thinned.closures]
  same none := by rw [thinned.same none]

/-- What is built from two parts has lost what the parts have lost, if it adds the same
uses and as many closures whatever the parts are. -/
theorem pair (own : List Helper) (count : Nat) (build : α → β → γ)
    (uses : ∀ first second, Stmt.usesIn (listing (build first second)) =
      own ++ (Stmt.usesIn (firstListing first) ++ Stmt.usesIn (secondListing second)))
    (closures : ∀ first second, Stmt.closuresIn (listing (build first second)) =
      count + (Stmt.closuresIn (firstListing first) + Stmt.closuresIn (secondListing second)))
    {firstBefore firstAfter : α} {secondBefore secondAfter : β}
    (first : Thinned firstListing firstLost firstBefore firstAfter)
    (second : Thinned secondListing secondLost secondBefore secondAfter) :
    Thinned listing (firstLost + secondLost) (build firstBefore secondBefore)
      (build firstAfter secondAfter) where
  uses := by rw [uses, uses, first.uses, second.uses]
  closures := by
    have firstClosures := first.closures
    have secondClosures := second.closures
    rw [closures, closures]
    omega
  same none := by
    rw [first.same (by omega), second.same (by omega)]

theorem append {firstBefore firstAfter secondBefore secondAfter : List Stmt}
    (first : Thinned Stmt.statementsOf firstLost firstBefore firstAfter)
    (second : Thinned Stmt.statementsOf secondLost secondBefore secondAfter) :
    Thinned Stmt.statementsOf (firstLost + secondLost) (firstBefore ++ secondBefore)
      (firstAfter ++ secondAfter) :=
  pair [] 0 (· ++ ·)
    (fun _ _ => by rw [Stmt.statementsOf_append, Stmt.usesIn_append, List.nil_append])
    (fun _ _ => by rw [Stmt.statementsOf_append, Stmt.closuresIn_append, Nat.zero_add])
    first second

theorem single {before after : Stmt} (thinned : Thinned Stmt.statements firstLost before after) :
    Thinned Stmt.statementsOf firstLost [before] [after] :=
  wrap [] (fun stmt => [stmt])
    (fun _ => by simp only [Stmt.statementsOf, List.append_nil, List.nil_append])
    (fun _ => by simp only [Stmt.statementsOf, List.append_nil]) thinned

theorem closure {test : String} {before after : List Stmt}
    {othersBefore othersAfter : List (List Stmt)}
    (body : Thinned Stmt.statementsOf firstLost before after)
    (others : Thinned (fun bodies => (Stmt.loop test bodies).statements) secondLost
      othersBefore othersAfter) :
    Thinned (fun bodies => (Stmt.loop test bodies).statements) (firstLost + secondLost)
      (before :: othersBefore) (after :: othersAfter) := by
  refine pair [] 1 List.cons ?_ ?_ body others
  · intro body others
    simp [Stmt.statements, Stmt.statementsOfAll, Stmt.ownUses]
  · intro body others
    simp only [Stmt.statements, Stmt.statementsOfAll, Stmt.closuresIn_cons, Stmt.ownClosures,
      Stmt.closuresIn_append, List.length_cons]
    omega

theorem emptyClosure {test : String} {before after : List (List Stmt)}
    (others : Thinned (fun bodies => (Stmt.loop test bodies).statements) firstLost
      before after) :
    Thinned (fun bodies => (Stmt.loop test bodies).statements) (firstLost + 1)
      ([] :: before) after where
  uses := others.uses
  closures := by
    have closures := others.closures
    simp only [Stmt.statements, Stmt.statementsOfAll, Stmt.statementsOf, Stmt.closuresIn_cons,
      Stmt.ownClosures, List.length_cons, List.nil_append] at closures ⊢
    omega
  same none := absurd none (Nat.succ_ne_zero firstLost)

end Thinned

/-- What is lost to a deletion that may spare the bodies of loops. -/
def lostIf (fromLoops : Bool) (count : Nat) : Nat := if fromLoops then count else 0

@[simp] theorem lostIf_zero (fromLoops : Bool) : lostIf fromLoops 0 = 0 := by
  cases fromLoops <;> rfl

theorem lostIf_add (fromLoops : Bool) (first second : Nat) :
    lostIf fromLoops (first + second) = lostIf fromLoops first + lostIf fromLoops second := by
  cases fromLoops <;> rfl

mutual

/-- To delete silent comments from a node makes its statements lose as many closures as
are deleted from the bodies of loops. -/
theorem Node.thinned_translate (indexName : String) (fromLoops : Bool) : (content : Node) →
    Thinned Stmt.statementsOf (lostIf fromLoops content.silentInLoops)
      (content.translate indexName) ((content.prune fromLoops).translate indexName)
  | .block content => by
      simp only [Node.prune, Node.translate, Node.silentInLoops]
      exact Block.thinned_translate indexName fromLoops content
  | .tag content => by
      simp only [Node.prune, Node.translate, Node.silentInLoops]
      exact (Tag.thinned_translate indexName fromLoops content).single
  | .code content => by
      simp only [Node.prune, Node.translate, Node.silentInLoops]
      exact Code.thinned_translate indexName fromLoops content
  | .conditional content => by
      simp only [Node.prune, Node.translate, Node.silentInLoops]
      refine .wrap [] (fun parts => [Stmt.branch parts.1 parts.2.1 parts.2.2]) ?_ ?_
        (Conditional.thinned_translate indexName fromLoops content)
      · intro parts
        simp [Stmt.statementsOf, Stmt.statements, Stmt.ownUses]
      · intro parts
        simp [Stmt.statementsOf, Stmt.statements, Stmt.ownClosures]
  | .loop test ⟨nodes, _⟩ _ => by
      simp only [Node.prune, Node.translate, Node.silentInLoops]
      exact .wrap [] (fun bodies => [Stmt.loop (Text.trim test) bodies])
        (fun _ => by simp [Stmt.statementsOf])
        (fun _ => by simp [Stmt.statementsOf])
        (Node.thinned_translateApart indexName fromLoops (Text.trim test) nodes)
  | .each content => by
      simp only [Node.prune, Node.translate, Node.silentInLoops]
      exact (Each.thinned_translate indexName fromLoops content).single
  | .blockComment value visible content _ => by
      simp only [Node.prune, Node.translate, Node.silentInLoops]
      cases visible with
      | false =>
          simp only [Bool.false_eq_true, ↓reduceIte, lostIf_zero]
          exact .refl _ _
      | true =>
          exact .wrap [] (fun body => [Stmt.blockComment value body])
            (fun _ => by simp [Stmt.statementsOf, Stmt.statements, Stmt.ownUses])
            (fun _ => by simp [Stmt.statementsOf, Stmt.statements, Stmt.ownClosures])
            (Block.thinned_translate indexName fromLoops content)
  | .text .. | .literal .. | .comment .. | .mixinBlock _ | .rejected .. => by
      simp only [Node.prune, Node.silentInLoops, lostIf_zero]
      exact Thinned.refl _ _

theorem Block.thinned_translate (indexName : String) (fromLoops : Bool) : (content : Block) →
    Thinned Stmt.statementsOf (lostIf fromLoops content.silentInLoops)
      (content.translate indexName) ((content.prune fromLoops).translate indexName)
  | ⟨nodes, _⟩ => by
      simp only [Block.prune, Block.translate, Block.silentInLoops]
      exact Node.thinned_translateTogether indexName fromLoops nodes

theorem Node.thinned_translateTogether (indexName : String) (fromLoops : Bool) :
    (nodes : List Node) →
    Thinned Stmt.statementsOf (lostIf fromLoops (Node.silentInLoopsOf nodes))
      (Node.translateTogether indexName nodes)
      (Node.translateTogether indexName (Node.pruneOf fromLoops true nodes))
  | [] => by
      simp only [Node.pruneOf, Node.silentInLoopsOf, lostIf_zero]
      exact Thinned.refl _ _
  | first :: rest => by
      have later := Node.thinned_translateTogether indexName fromLoops rest
      rw [Node.pruneOf, Node.silentInLoopsOf, Node.translateTogether]
      split
      next deleted =>
        obtain ⟨-, statements, loops⟩ :=
          Node.eq_nothing_of_isSilent (by simpa using deleted) indexName
        rw [statements, loops, List.nil_append, Nat.zero_add]
        exact later
      next =>
        rw [lostIf_add]
        exact (Node.thinned_translate indexName fromLoops first).append later

-- The list of closures is taken with the loop that it stands in, so that an empty
-- closure counts.
theorem Node.thinned_translateApart (indexName : String) (fromLoops : Bool) (test : String) :
    (nodes : List Node) →
    Thinned (fun bodies => (Stmt.loop test bodies).statements)
      (lostIf fromLoops (nodes.countP Node.isSilent + Node.silentInLoopsOf nodes))
      (Node.translateApart indexName nodes)
      (Node.translateApart indexName (Node.pruneOf fromLoops fromLoops nodes))
  | [] => by
      simp only [Node.pruneOf, Node.silentInLoopsOf, List.countP_nil, Nat.add_zero, lostIf_zero]
      exact Thinned.refl _ _
  | first :: rest => by
      have own := Node.thinned_translate indexName fromLoops first
      have later := Node.thinned_translateApart indexName fromLoops test rest
      rw [Node.pruneOf, Node.silentInLoopsOf, Node.translateApart]
      split
      next deleted =>
        obtain ⟨rfl, silent⟩ := Bool.and_eq_true_iff.mp deleted
        obtain ⟨-, statements, loops⟩ := Node.eq_nothing_of_isSilent silent indexName
        have count : lostIf true ((first :: rest).countP Node.isSilent +
            (first.silentInLoops + Node.silentInLoopsOf rest)) =
              lostIf true (rest.countP Node.isSilent + Node.silentInLoopsOf rest) + 1 := by
          rw [List.countP_cons_of_pos silent, loops]
          simp only [lostIf, ↓reduceIte]
          omega
        rw [statements, count]
        exact later.emptyClosure
      next kept =>
        have count : lostIf fromLoops ((first :: rest).countP Node.isSilent +
            (first.silentInLoops + Node.silentInLoopsOf rest)) =
              lostIf fromLoops first.silentInLoops +
                lostIf fromLoops (rest.countP Node.isSilent + Node.silentInLoopsOf rest) := by
          cases fromLoops with
          | false => rfl
          | true =>
              rw [List.countP_cons_of_neg (by simpa using kept), ← lostIf_add]
              congr 1
              omega
        rw [count, Node.translateApart]
        exact own.closure later

theorem Tag.thinned_translate (indexName : String) (fromLoops : Bool) : (content : Tag) →
    Thinned Stmt.statements (lostIf fromLoops content.silentInLoops)
      (content.translate indexName) ((content.prune fromLoops).translate indexName)
  | ⟨name, attributes, attributeBlocks, content, body, _⟩ => by
      simp only [Tag.prune, Tag.translate, Tag.silentInLoops, lostIf_add]
      exact .wrap (Attributes.usesOfOption (Attributes.normalize attributes attributeBlocks))
        (fun children => Stmt.sentinel (.element name
          (Attributes.normalize attributes attributeBlocks) children))
        (fun _ => by simp [Stmt.statements, Sentinel.statements, Stmt.ownUses])
        (fun _ => by simp [Stmt.statements, Sentinel.statements, Stmt.ownClosures])
        ((Code.thinned_translateOption indexName fromLoops content).append
          (Block.thinned_translate indexName fromLoops body))

theorem Code.thinned_translate (indexName : String) (fromLoops : Bool) : (content : Code) →
    Thinned Stmt.statementsOf (lostIf fromLoops content.silentInLoops)
      (content.translate indexName) ((content.prune fromLoops).translate indexName)
  | ⟨source, buffered, mustEscape, content, location⟩ => by
      simp only [Code.prune, Code.translate, Code.silentInLoops]
      -- The statement in front does not look at the block.
      refine .wrap [] (fun body =>
          Generation.codeStmt ⟨source, buffered, mustEscape, none, location⟩ ::
            match body with
            | none => []
            | some body => if buffered then body else [Stmt.scope body]) ?_ ?_
        (Block.thinned_translateOption indexName fromLoops content)
      · intro body
        rw [Stmt.statementsOf, Stmt.usesIn_append, Generation.usesIn_codeStmt]
        cases body with
        | none => rfl
        | some body =>
            cases buffered <;>
              simp [Stmt.statementsOfOption, Stmt.statementsOf, Stmt.statements, Stmt.ownUses]
      · intro body
        rw [Stmt.statementsOf, Stmt.closuresIn_append, Stmt.closuresIn_codeStmt, Nat.zero_add]
        cases body with
        | none => rfl
        | some body =>
            cases buffered <;>
              simp [Stmt.statementsOfOption, Stmt.statementsOf, Stmt.statements,
                Stmt.ownClosures]

theorem Code.thinned_translateOption (indexName : String) (fromLoops : Bool) :
    (content : Option Code) →
    Thinned Stmt.statementsOf (lostIf fromLoops (Code.silentInLoopsOfOption content))
      (Code.translateOption indexName content)
      (Code.translateOption indexName (Code.pruneOption fromLoops content))
  | none => by
      simp only [Code.pruneOption, Code.silentInLoopsOfOption, lostIf_zero]
      exact Thinned.refl _ _
  | some content => by
      simp only [Code.pruneOption, Code.translateOption, Code.silentInLoopsOfOption]
      exact Code.thinned_translate indexName fromLoops content

theorem Block.thinned_translateOption (indexName : String) (fromLoops : Bool) :
    (content : Option Block) →
    Thinned Stmt.statementsOfOption (lostIf fromLoops (Block.silentInLoopsOfOption content))
      (Block.translateOption indexName content)
      (Block.translateOption indexName (Block.pruneOption fromLoops content))
  | none => by
      simp only [Block.pruneOption, Block.silentInLoopsOfOption, lostIf_zero]
      exact Thinned.refl _ _
  | some content => by
      simp only [Block.pruneOption, Block.translateOption, Block.silentInLoopsOfOption]
      exact .wrap [] some (fun _ => rfl) (fun _ => rfl)
        (Block.thinned_translate indexName fromLoops content)

theorem Conditional.thinned_translate (indexName : String) (fromLoops : Bool) :
    (content : Conditional) →
    Thinned (fun parts => Stmt.statementsOf parts.2.1 ++ parts.2.2.statements)
      (lostIf fromLoops content.silentInLoops)
      (content.translate indexName) ((content.prune fromLoops).translate indexName)
  | ⟨test, consequent, other, _⟩ => by
      simp only [Conditional.prune, Conditional.translate, Conditional.silentInLoops, lostIf_add]
      exact .pair [] 0 (fun body alternate => (Text.trim test, body, alternate))
        (fun _ _ => by simp) (fun _ _ => by simp)
        (Block.thinned_translate indexName fromLoops consequent)
        (Alternate.thinned_translateOption indexName fromLoops other)

theorem Alternate.thinned_translate (indexName : String) (fromLoops : Bool) :
    (content : Alternate) →
    Thinned Else.statements (lostIf fromLoops content.silentInLoops)
      (content.translate indexName) ((content.prune fromLoops).translate indexName)
  | .conditional content => by
      simp only [Alternate.prune, Alternate.translate, Alternate.silentInLoops]
      refine .wrap [] (fun parts => Else.branch parts.1 parts.2.1 parts.2.2) ?_ ?_
        (Conditional.thinned_translate indexName fromLoops content)
      · intro parts
        simp [Else.statements]
      · intro parts
        simp [Else.statements]
  | .block content => by
      simp only [Alternate.prune, Alternate.translate, Alternate.silentInLoops]
      exact .wrap [] Else.block
        (fun _ => by simp [Else.statements]) (fun _ => by simp [Else.statements])
        (Block.thinned_translate indexName fromLoops content)

theorem Alternate.thinned_translateOption (indexName : String) (fromLoops : Bool) :
    (content : Option Alternate) →
    Thinned Else.statements (lostIf fromLoops (Alternate.silentInLoopsOfOption content))
      (Alternate.translateOption indexName content)
      (Alternate.translateOption indexName (Alternate.pruneOption fromLoops content))
  | none => by
      simp only [Alternate.pruneOption, Alternate.silentInLoopsOfOption, lostIf_zero]
      exact Thinned.refl _ _
  | some content => by
      simp only [Alternate.pruneOption, Alternate.translateOption,
        Alternate.silentInLoopsOfOption]
      exact Alternate.thinned_translate indexName fromLoops content

theorem Each.thinned_translate (indexName : String) (fromLoops : Bool) : (content : Each) →
    Thinned Stmt.statements (lostIf fromLoops content.silentInLoops)
      (content.translate indexName) ((content.prune fromLoops).translate indexName)
  | ⟨object, value, key, content, other, _⟩ => by
      simp only [Each.prune, Each.translate, Each.silentInLoops, lostIf_add]
      refine .pair [.iterate] 0
        (Stmt.each Helper.iterate.identifier (Text.trim object) (Text.trim value)
          (Generation.keyName indexName key)) ?_ ?_
        (Block.thinned_translate indexName fromLoops content)
        (Block.thinned_translateOption indexName fromLoops other)
      · intro body alternate
        simp [Stmt.statements, Stmt.ownUses]
      · intro body alternate
        simp [Stmt.statements, Stmt.ownClosures]

end

/-! ## What is generated -/

namespace Settings

theorem declarations_translate_prune (settings : Settings) (fromLoops : Bool) (root : Node) :
    (settings.translate (root.prune fromLoops)).declarations =
      (settings.translate root).declarations := by
  have uses : Program.uses ((root.prune fromLoops).translate settings.indexName) =
      Program.uses (root.translate settings.indexName) :=
    (root.thinned_translate settings.indexName fromLoops).uses
  simp only [translate, uses]

theorem translate_prune_eq_iff (settings : Settings) (fromLoops : Bool) (root : Node) :
    settings.translate (root.prune fromLoops) = settings.translate root ↔
      lostIf fromLoops root.silentInLoops = 0 := by
  have thinned := root.thinned_translate settings.indexName fromLoops
  constructor
  · intro same
    have program : (root.prune fromLoops).translate settings.indexName =
        root.translate settings.indexName := congrArg Intermediate.program same
    have closures := thinned.closures
    rw [program] at closures
    omega
  · intro none
    simp only [translate, thinned.same none]

/-- Without the silent comments outside of the bodies of loops, a tree gives the same
program, the same declarations and the same rejection.  Without all silent comments it
gives the same declarations and the same rejection, and the program is the same exactly
if no body of a loop has a silent comment of its own. -/
theorem generate_prune (settings : Settings) (root : Node) :
    settings.generate (root.prune false) = settings.generate root ∧
    (settings.generate (root.prune true)).map Intermediate.declarations =
      (settings.generate root).map Intermediate.declarations ∧
    (settings.generate (root.prune true) = settings.generate root ↔
      (∃ rejection, settings.generate root = .error rejection) ∨ root.silentInLoops = 0) := by
  simp only [generate_eq, Node.offenders_prune]
  cases root.offenders with
  | cons first rest => simp
  | nil =>
      refine ⟨?_, ?_, ?_⟩
      · exact congrArg Except.ok ((settings.translate_prune_eq_iff false root).mpr rfl)
      · exact congrArg Except.ok (settings.declarations_translate_prune true root)
      · simp only [Except.ok.injEq, reduceCtorEq, exists_false, false_or]
        exact settings.translate_prune_eq_iff true root

end Settings

/-- A loop with a comment that is not to be seen. -/
def Node.silentLoop : Node :=
  .loop "x" ⟨[.comment " note" false {}], {}⟩ {}

/-- A silent comment in the body of a loop does not disappear: it becomes an empty
closure. -/
theorem Settings.generate_prune_silentLoop :
    ({} : Settings).generate Node.silentLoop = .ok ⟨[.loop "x" [[]]], []⟩ ∧
      ({} : Settings).generate (Node.silentLoop.prune true) = .ok ⟨[.loop "x" []], []⟩ ∧
      ¬ ∀ (settings : Settings) (root : Node),
        settings.generate (root.prune true) = settings.generate root := by
  have seen : ({} : Settings).generate Node.silentLoop = .ok ⟨[.loop "x" [[]]], []⟩ := rfl
  have deleted : ({} : Settings).generate (Node.silentLoop.prune true) =
      .ok ⟨[.loop "x" []], []⟩ := rfl
  refine ⟨seen, deleted, ?_⟩
  intro invisible
  have same := invisible {} Node.silentLoop
  rw [seen, deleted] at same
  cases same

end Template
