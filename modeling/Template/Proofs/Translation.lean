import Template.Compilation
import Template.Proofs.Uses

/-!
# Generation as a translation

Generating statements threads the preamble through the tree and stops at the
first construct it cannot take.  Here the three things it does are separated:
`Node.translate` gives the statements and nothing else, `Node.offenders` lists the
constructs without a translation in document order, and `Program.uses` lists the
helpers that the statements call.  The main statement, `Generation.node_eq_settled`,
puts them together again: the generation fails with the first offender if there is
one, and otherwise gives the translation and notes its uses.

Every property of generated programs can then be shown of the translation, which
is a plain recursion on the tree.
-/

namespace Template

/-- A construct that no program is generated for, with its place. -/
structure Offender where
  kind : RejectedKind
  location : Location
  deriving DecidableEq, Repr

def Offender.rejection (offender : Offender) : Rejection :=
  ⟨offender.kind.name, offender.location⟩

def Sentinel.isElement : Sentinel → Bool
  | .element .. => true
  | .text _ | .unescape _ => false

namespace Segment

theorem isElement_flush (buffer : Concatenation) :
    ∀ sentinel ∈ flush buffer, sentinel.isElement = false := by
  intro sentinel membership
  unfold flush at membership
  split at membership
  · simp only [List.not_mem_nil] at membership
  · simp only [List.mem_singleton] at membership
    rw [membership]
    rfl

theorem isElement_gather (buffer : Concatenation) (segments : List Segment) :
    ∀ sentinel ∈ gather buffer segments, sentinel.isElement = false := by
  fun_induction gather buffer segments with
  | case1 buffer => exact isElement_flush buffer
  | case2 | case3 | case4 | case5 | case6 => assumption
  | case7 buffer rest raw source notBlank inductionHypothesis =>
      intro sentinel membership
      rw [List.mem_append, List.mem_cons] at membership
      rcases membership with flushed | rfl | gathered
      · exact isElement_flush buffer sentinel flushed
      · rfl
      · exact inductionHypothesis sentinel gathered

theorem isElement_sentinelsOfText (text : String) :
    ∀ sentinel ∈ sentinelsOfText text, sentinel.isElement = false := by
  unfold sentinelsOfText sentinels
  split
  · intro sentinel membership
    rw [List.mem_singleton] at membership
    rw [membership]
    rfl
  · exact isElement_gather Concatenation.start (ofText text.toList)

end Segment

/-! ## Offenders in document order -/

mutual

/-- The constructs below a node that no program is generated for, in document
order.  The block of a silent comment is not part of the document. -/
def Node.offenders : Node → List Offender
  | .block content => content.offenders
  | .tag content => content.offenders
  | .code content => content.offenders
  | .conditional content => content.offenders
  | .loop _ content _ => content.offenders
  | .each content => content.offenders
  | .blockComment _ visible content _ => if visible then content.offenders else []
  | .rejected kind location => [⟨kind, location⟩]
  | .text .. | .literal .. | .comment .. | .mixinBlock _ => []

def Block.offenders : Block → List Offender
  | ⟨nodes, _⟩ => Node.offendersOf nodes

def Node.offendersOf : List Node → List Offender
  | [] => []
  | first :: rest => first.offenders ++ Node.offendersOf rest

/-- The offenders in an element: those of its code precede those of its block. -/
def Tag.offenders : Tag → List Offender
  | ⟨_, _, _, content, body, _⟩ => Code.offendersOfOption content ++ body.offenders

def Code.offenders : Code → List Offender
  | ⟨_, _, _, content, _⟩ => Block.offendersOfOption content

def Code.offendersOfOption : Option Code → List Offender
  | none => []
  | some content => content.offenders

def Block.offendersOfOption : Option Block → List Offender
  | none => []
  | some content => content.offenders

/-- The offenders in a condition: the consequent precedes the alternate. -/
def Conditional.offenders : Conditional → List Offender
  | ⟨_, consequent, other, _⟩ => consequent.offenders ++ Alternate.offendersOfOption other

def Alternate.offenders : Alternate → List Offender
  | .conditional content => content.offenders
  | .block content => content.offenders

def Alternate.offendersOfOption : Option Alternate → List Offender
  | none => []
  | some content => content.offenders

/-- The offenders in an iteration: its body precedes its alternate. -/
def Each.offenders : Each → List Offender
  | ⟨_, _, _, content, other, _⟩ => content.offenders ++ Block.offendersOfOption other

end

/-! ## The statements of a tree -/

mutual

/-- The statements of a node, where offenders have none. -/
def Node.translate (indexName : String) : Node → List Stmt
  | .block content => content.translate indexName
  | .tag content => [content.translate indexName]
  | .text value _ => (Segment.sentinelsOfText value).map Stmt.sentinel
  | .literal text _ => [.sentinel (.text (Concatenation.ofText text))]
  | .code content => content.translate indexName
  | .conditional content =>
      let (test, consequent, alternate) := content.translate indexName
      [.branch test consequent alternate]
  | .loop test ⟨nodes, _⟩ _ => [.loop (Text.trim test) (Node.translateApart indexName nodes)]
  | .each content => [content.translate indexName]
  | .comment value visible _ => if visible then [.lineComment value] else []
  | .blockComment value visible content _ =>
      if visible then [.blockComment value (content.translate indexName)] else []
  | .mixinBlock _ => [.mixinBlock]
  | .rejected _ _ => []

def Block.translate (indexName : String) : Block → List Stmt
  | ⟨nodes, _⟩ => Node.translateTogether indexName nodes

def Node.translateTogether (indexName : String) : List Node → List Stmt
  | [] => []
  | first :: rest => first.translate indexName ++ Node.translateTogether indexName rest

/-- The statements of nodes, those of each node by themselves. -/
def Node.translateApart (indexName : String) : List Node → List (List Stmt)
  | [] => []
  | first :: rest => first.translate indexName :: Node.translateApart indexName rest

def Tag.translate (indexName : String) : Tag → Stmt
  | ⟨name, attributes, attributeBlocks, content, body, _⟩ =>
      .sentinel (.element name (Attributes.normalize attributes attributeBlocks)
        (Code.translateOption indexName content ++ body.translate indexName))

def Code.translate (indexName : String) : Code → List Stmt
  | ⟨source, buffered, mustEscape, content, location⟩ =>
      Generation.codeStmt ⟨source, buffered, mustEscape, content, location⟩ ::
        match Block.translateOption indexName content with
        | none => []
        | some body => if buffered then body else [.scope body]

def Code.translateOption (indexName : String) : Option Code → List Stmt
  | none => []
  | some content => content.translate indexName

def Block.translateOption (indexName : String) : Option Block → Option (List Stmt)
  | none => none
  | some content => some (content.translate indexName)

/-- The test, the consequent and the alternate of a condition. -/
def Conditional.translate (indexName : String) : Conditional → String × List Stmt × Else
  | ⟨test, consequent, other, _⟩ =>
      (Text.trim test, consequent.translate indexName, Alternate.translateOption indexName other)

def Alternate.translate (indexName : String) : Alternate → Else
  | .conditional content =>
      let (test, consequent, other) := content.translate indexName
      .branch test consequent other
  | .block content => .block (content.translate indexName)

def Alternate.translateOption (indexName : String) : Option Alternate → Else
  | none => .none
  | some content => content.translate indexName

def Each.translate (indexName : String) : Each → Stmt
  | ⟨object, value, key, content, other, _⟩ =>
      .each Helper.iterate.identifier (Text.trim object) (Text.trim value)
        (Generation.keyName indexName key) (content.translate indexName)
        (Block.translateOption indexName other)

end

/-! ## Generation in normal form -/

namespace Generation

variable {α β : Type}

/-- The generation that meets the given offenders, and that notes helpers and gives
a result if there are none. -/
def settled (offenders : List Offender) (uses : List Helper) (result : α) : Generation α :=
  fun preamble =>
    match offenders with
    | [] => .ok (result, preamble.needAll uses)
    | first :: _ => .error first.rejection

theorem pure_eq_settled (result : α) : (pure result : Generation α) = settled [] [] result := rfl

theorem throw_eq_settled (kind : RejectedKind) (location : Location) (uses : List Helper)
    (result : α) :
    (throw ⟨kind.name, location⟩ : Generation α) = settled [⟨kind, location⟩] uses result := rfl

theorem modify_need_eq_settled (helper : Helper) :
    (modify (·.need helper) : Generation PUnit) = settled [] [helper] ⟨⟩ := rfl

theorem compile_eq_settled (attributes : List Attribute) (blocks : List AttributeBlock) :
    (modifyGet (Attributes.compile attributes blocks).run : Generation (Option Attributes)) =
      settled [] (Attributes.usesOfOption (Attributes.normalize attributes blocks))
        (Attributes.normalize attributes blocks) := by
  rw [Attributes.compile_eq_noting]
  rfl

/-- One generation after another: offenders and uses are concatenated. -/
theorem settled_bind_of_eq {offenders offendersAfter : List Offender}
    {uses usesAfter : List Helper} {result : α} {next : α → Generation β} {final : β}
    (after : next result = settled offendersAfter usesAfter final) :
    settled offenders uses result >>= next =
      settled (offenders ++ offendersAfter) (uses ++ usesAfter) final := by
  funext preamble
  cases offenders with
  | cons first rest => rfl
  | nil =>
      change next result (preamble.needAll uses) = _
      rw [after]
      simp only [settled, List.nil_append, Preamble.needAll_append]

theorem settled_bind_pure {offenders : List Offender} {uses : List Helper} {result : α}
    {next : α → Generation β} {final : β} (after : next result = pure final) :
    settled offenders uses result >>= next = settled offenders uses final := by
  rw [settled_bind_of_eq (after.trans (pure_eq_settled final)), List.append_nil, List.append_nil]

theorem settled_bind (offenders : List Offender) (uses : List Helper) (result : α)
    (offendersAfter : α → List Offender) (usesAfter : α → List Helper) (next : α → β) :
    (settled offenders uses result >>= fun found =>
        settled (offendersAfter found) (usesAfter found) (next found)) =
      settled (offenders ++ offendersAfter result) (uses ++ usesAfter result) (next result) :=
  settled_bind_of_eq rfl

theorem usesIn_codeStmt (code : Code) : Stmt.usesIn (codeStmt code).statements = [] := by
  simp only [codeStmt]
  split
  · split <;> rfl
  · rfl

theorem usesIn_sentinelsOfText (text : String) :
    Stmt.usesIn (Stmt.statementsOf ((Segment.sentinelsOfText text).map Stmt.sentinel)) = [] := by
  have plain := Segment.isElement_sentinelsOfText text
  generalize Segment.sentinelsOfText text = sentinels at plain
  induction sentinels with
  | nil => rfl
  | cons first rest inductionHypothesis =>
      rw [List.forall_mem_cons] at plain
      have firstUses : Stmt.usesIn (Stmt.sentinel first).statements = [] := by
        cases first with
        | text | unescape => rfl
        | element => exact absurd plain.1 (by simp [Sentinel.isElement])
      rw [List.map_cons, Stmt.statementsOf, Stmt.usesIn_append, firstUses]
      exact inductionHypothesis plain.2

mutual

/-- Generation fails with the first offender of a node if there is one; otherwise it
gives the translation of the node and notes the helpers that the translation calls. -/
theorem node_eq_settled (indexName : String) : (content : Node) →
    node indexName content =
      settled content.offenders (Stmt.usesIn (Stmt.statementsOf (content.translate indexName)))
        (content.translate indexName)
  | .block content => by
      simp only [node, Node.offenders, Node.translate]
      exact block_eq_settled indexName content
  | .tag content => by
      simp only [node, Node.offenders, Node.translate, tag_eq_settled indexName content,
        pure_eq_settled, settled_bind, List.append_nil, Stmt.statementsOf]
  | .text value _ => by
      simp only [node, Node.offenders, Node.translate, usesIn_sentinelsOfText, pure_eq_settled]
  | .literal text _ => rfl
  | .code content => by
      simp only [node, Node.offenders, Node.translate]
      exact code_eq_settled indexName content
  | .conditional content => by
      simp only [node, Node.offenders, Node.translate, conditional_eq_settled indexName content,
        pure_eq_settled, settled_bind, List.append_nil, Stmt.statementsOf, Stmt.statements,
        Stmt.usesIn_cons, Stmt.ownUses, List.nil_append]
  | .loop test ⟨nodes, _⟩ _ => by
      simp only [node, Node.offenders, Block.offenders, Node.translate,
        nodesApart_eq_settled indexName nodes, pure_eq_settled, settled_bind, List.append_nil,
        Stmt.statementsOf, Stmt.statements, Stmt.usesIn_cons, Stmt.ownUses, List.nil_append]
  | .each content => by
      simp only [node, Node.offenders, Node.translate, each_eq_settled indexName content,
        pure_eq_settled, settled_bind, List.append_nil, Stmt.statementsOf]
  | .comment value visible _ => by cases visible <;> rfl
  | .blockComment value visible content _ => by
      cases visible with
      | false => rfl
      | true =>
          simp only [node, Node.offenders, Node.translate, ↓reduceIte,
            block_eq_settled indexName content, pure_eq_settled, settled_bind, List.append_nil,
            Stmt.statementsOf, Stmt.statements, Stmt.usesIn_cons, Stmt.ownUses, List.nil_append]
  | .mixinBlock _ => rfl
  | .rejected kind location => by
      simp only [node, Node.offenders]
      exact throw_eq_settled kind location _ _

theorem block_eq_settled (indexName : String) : (content : Block) →
    block indexName content =
      settled content.offenders (Stmt.usesIn (Stmt.statementsOf (content.translate indexName)))
        (content.translate indexName)
  | ⟨nodes, _⟩ => by
      simp only [block, Block.offenders, Block.translate]
      exact nodesTogether_eq_settled indexName nodes

theorem nodesTogether_eq_settled (indexName : String) : (nodes : List Node) →
    nodesTogether indexName nodes =
      settled (Node.offendersOf nodes)
        (Stmt.usesIn (Stmt.statementsOf (Node.translateTogether indexName nodes)))
        (Node.translateTogether indexName nodes)
  | [] => rfl
  | first :: rest => by
      simp only [nodesTogether, Node.offendersOf, Node.translateTogether,
        node_eq_settled indexName first, nodesTogether_eq_settled indexName rest,
        pure_eq_settled, settled_bind, List.append_nil, Stmt.statementsOf_append,
        Stmt.usesIn_append]

theorem nodesApart_eq_settled (indexName : String) : (nodes : List Node) →
    nodesApart indexName nodes =
      settled (Node.offendersOf nodes)
        (Stmt.usesIn (Stmt.statementsOfAll (Node.translateApart indexName nodes)))
        (Node.translateApart indexName nodes)
  | [] => rfl
  | first :: rest => by
      simp only [nodesApart, Node.offendersOf, Node.translateApart,
        node_eq_settled indexName first, nodesApart_eq_settled indexName rest,
        pure_eq_settled, settled_bind, List.append_nil, Stmt.statementsOfAll, Stmt.usesIn_append]

theorem tag_eq_settled (indexName : String) : (content : Tag) →
    tag indexName content =
      settled content.offenders (Stmt.usesIn (content.translate indexName).statements)
        (content.translate indexName)
  | ⟨name, attributes, attributeBlocks, content, body, _⟩ => by
      simp only [tag, Tag.offenders, Tag.translate, compile_eq_settled,
        optionalCode_eq_settled indexName content, block_eq_settled indexName body,
        pure_eq_settled, settled_bind, List.append_nil, List.nil_append, Stmt.statements,
        Sentinel.statements, Stmt.statementsOf_append, Stmt.usesIn_cons, Stmt.usesIn_append,
        Stmt.ownUses]

theorem code_eq_settled (indexName : String) : (content : Code) →
    code indexName content =
      settled content.offenders (Stmt.usesIn (Stmt.statementsOf (content.translate indexName)))
        (content.translate indexName)
  | ⟨source, buffered, mustEscape, content, location⟩ => by
      simp only [code, Code.offenders, Code.translate, optionalBlock_eq_settled indexName content,
        Stmt.statementsOf, Stmt.usesIn_append, usesIn_codeStmt, List.nil_append]
      cases Block.translateOption indexName content with
      | none => exact settled_bind_pure rfl
      | some body =>
          cases buffered with
          | false =>
              simp only [Stmt.statementsOfOption, Bool.false_eq_true, ↓reduceIte,
                Stmt.statementsOf, Stmt.statements, Stmt.usesIn_cons, Stmt.ownUses,
                List.append_nil, List.nil_append]
              exact settled_bind_pure rfl
          | true => exact settled_bind_pure rfl

theorem optionalCode_eq_settled (indexName : String) : (content : Option Code) →
    optionalCode indexName content =
      settled (Code.offendersOfOption content)
        (Stmt.usesIn (Stmt.statementsOf (Code.translateOption indexName content)))
        (Code.translateOption indexName content)
  | none => rfl
  | some content => by
      simp only [optionalCode, Code.offendersOfOption, Code.translateOption]
      exact code_eq_settled indexName content

theorem optionalBlock_eq_settled (indexName : String) : (content : Option Block) →
    optionalBlock indexName content =
      settled (Block.offendersOfOption content)
        (Stmt.usesIn (Stmt.statementsOfOption (Block.translateOption indexName content)))
        (Block.translateOption indexName content)
  | none => rfl
  | some content => by
      simp only [optionalBlock, Block.offendersOfOption, Block.translateOption,
        Stmt.statementsOfOption, block_eq_settled indexName content, pure_eq_settled, settled_bind,
        List.append_nil]

theorem conditional_eq_settled (indexName : String) : (content : Conditional) →
    conditional indexName content =
      settled content.offenders
        (Stmt.usesIn (Stmt.statementsOf (content.translate indexName).2.1 ++
          (content.translate indexName).2.2.statements))
        (content.translate indexName)
  | ⟨test, consequent, other, _⟩ => by
      simp only [conditional, Conditional.offenders, Conditional.translate,
        block_eq_settled indexName consequent, optionalAlternate_eq_settled indexName other,
        pure_eq_settled, settled_bind, List.append_nil, Stmt.usesIn_append]

theorem alternate_eq_settled (indexName : String) : (content : Alternate) →
    alternate indexName content =
      settled content.offenders (Stmt.usesIn (content.translate indexName).statements)
        (content.translate indexName)
  | .conditional content => by
      simp only [alternate, Alternate.offenders, Alternate.translate, Else.statements,
        conditional_eq_settled indexName content, pure_eq_settled, settled_bind, List.append_nil]
  | .block content => by
      simp only [alternate, Alternate.offenders, Alternate.translate, Else.statements,
        block_eq_settled indexName content, pure_eq_settled, settled_bind, List.append_nil]

theorem optionalAlternate_eq_settled (indexName : String) : (content : Option Alternate) →
    optionalAlternate indexName content =
      settled (Alternate.offendersOfOption content)
        (Stmt.usesIn (Alternate.translateOption indexName content).statements)
        (Alternate.translateOption indexName content)
  | none => rfl
  | some content => by
      simp only [optionalAlternate, Alternate.offendersOfOption, Alternate.translateOption]
      exact alternate_eq_settled indexName content

theorem each_eq_settled (indexName : String) : (content : Each) →
    each indexName content =
      settled content.offenders (Stmt.usesIn (content.translate indexName).statements)
        (content.translate indexName)
  | ⟨object, value, key, content, other, _⟩ => by
      simp only [each, Each.offenders, Each.translate, modify_need_eq_settled,
        block_eq_settled indexName content, optionalBlock_eq_settled indexName other,
        pure_eq_settled, settled_bind, List.append_nil, List.nil_append, Stmt.statements,
        Stmt.usesIn_cons, Stmt.usesIn_append, Stmt.ownUses]

end

end Generation

namespace Settings

/-- The translation of a tree with the declarations of the helpers it uses. -/
def translate (settings : Settings) (root : Node) : Intermediate where
  program := root.translate settings.indexName
  declarations :=
    (({} : Preamble).needAll (Program.uses (root.translate settings.indexName))).declarations
      settings.mode settings.module

theorem generate_eq (settings : Settings) (root : Node) :
    settings.generate root =
      match root.offenders with
      | [] => .ok (settings.translate root)
      | first :: _ => .error first.rejection := by
  rw [generate, Generation.node_eq_settled]
  cases offenders : root.offenders with
  | nil => rfl
  | cons first rest => rfl

theorem generate_eq_ok_iff {settings : Settings} {root : Node} {generated : Intermediate} :
    settings.generate root = .ok generated ↔
      root.offenders = [] ∧ generated = settings.translate root := by
  rw [generate_eq]
  cases root.offenders with
  | nil => simp only [Except.ok.injEq, true_and, eq_comm]
  | cons first rest => simp only [reduceCtorEq, false_and]

theorem generate_eq_error_iff {settings : Settings} {root : Node} {rejection : Rejection} :
    settings.generate root = .error rejection ↔
      ∃ first rest, root.offenders = first :: rest ∧ rejection = first.rejection := by
  rw [generate_eq]
  cases root.offenders with
  | nil => simp only [reduceCtorEq, false_and, exists_false]
  | cons first rest => simp [eq_comm]

end Settings

end Template
