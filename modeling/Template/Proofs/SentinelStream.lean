import Template.Proofs.Translation

/-!
# The stream of sentinels

A tree says in which order its texts and elements come: an element before what it
contains, the code of a tag before its block, the consequent of a condition before
its alternate.  `Node.stream` reads that order directly off the tree.  The main
statement is that the sentinels of a generated program are this stream, so that
none is lost, repeated or moved.
-/

namespace Template

/-- A sentinel in a stream.  An element does not carry its children, which follow it
in the stream, but only the number of sentinels below it. -/
inductive SentinelHead where
  | text (content : Concatenation)
  | unescape (source : String)
  | element (tag : String) (attributes : Option Attributes) (below : Nat)
  deriving DecidableEq, Repr

def Sentinel.head : Sentinel → SentinelHead
  | .text content => .text content
  | .unescape source => .unescape source
  | .element tag attributes children =>
      .element tag attributes (Stmt.sentinelsOf children).length

mutual

/-- The heads of the sentinels that a node stands for, in document order. -/
def Node.stream : Node → List SentinelHead
  | .block content => content.stream
  | .tag content => content.stream
  | .text value _ => (Segment.sentinelsOfText value).map Sentinel.head
  | .literal text _ => [.text (Concatenation.ofText text)]
  | .code content => content.stream
  | .conditional content => content.stream
  | .loop _ content _ => content.stream
  | .each content => content.stream
  | .blockComment _ visible content _ => if visible then content.stream else []
  | .comment .. | .mixinBlock _ | .rejected .. => []

def Block.stream : Block → List SentinelHead
  | ⟨nodes, _⟩ => Node.streamOf nodes

def Node.streamOf : List Node → List SentinelHead
  | [] => []
  | first :: rest => first.stream ++ Node.streamOf rest

/-- The stream of a tag: its element, its code and its block. -/
def Tag.stream : Tag → List SentinelHead
  | ⟨name, attributes, attributeBlocks, content, body, _⟩ =>
      let below := Code.streamOfOption content ++ body.stream
      .element name (Attributes.normalize attributes attributeBlocks) below.length :: below

/-- The stream of code: its value if it is put out, and its block. -/
def Code.stream : Code → List SentinelHead
  | ⟨source, buffered, mustEscape, content, _⟩ =>
      (if buffered then
        [if mustEscape then .text (Concatenation.ofExpr (Text.trim source))
          else .unescape (Text.trim source)]
      else []) ++ Block.streamOfOption content

def Code.streamOfOption : Option Code → List SentinelHead
  | none => []
  | some content => content.stream

def Block.streamOfOption : Option Block → List SentinelHead
  | none => []
  | some content => content.stream

/-- The stream of a condition: its consequent and its alternate. -/
def Conditional.stream : Conditional → List SentinelHead
  | ⟨_, consequent, other, _⟩ => consequent.stream ++ Alternate.streamOfOption other

def Alternate.stream : Alternate → List SentinelHead
  | .conditional content => content.stream
  | .block content => content.stream

def Alternate.streamOfOption : Option Alternate → List SentinelHead
  | none => []
  | some content => content.stream

/-- The stream of an iteration: its body and its alternate. -/
def Each.stream : Each → List SentinelHead
  | ⟨_, _, _, content, other, _⟩ => content.stream ++ Block.streamOfOption other

end

theorem Stmt.sentinelsOf_append (first second : List Stmt) :
    Stmt.sentinelsOf (first ++ second) =
      Stmt.sentinelsOf first ++ Stmt.sentinelsOf second := by
  induction first with
  | nil => simp only [List.nil_append, Stmt.sentinelsOf]
  | cons stmt rest inductionHypothesis =>
      simp only [List.cons_append, Stmt.sentinelsOf, inductionHypothesis, List.append_assoc]

/-- Sentinels that are no elements contain nothing but themselves. -/
theorem Stmt.sentinelsOf_map_sentinel {sentinels : List Sentinel}
    (plain : ∀ sentinel ∈ sentinels, sentinel.isElement = false) :
    Stmt.sentinelsOf (sentinels.map Stmt.sentinel) = sentinels := by
  induction sentinels with
  | nil => rfl
  | cons first rest inductionHypothesis =>
      rw [List.forall_mem_cons] at plain
      have firstInner : first.inner = [] := by
        cases first with
        | text | unescape => rfl
        | element => exact absurd plain.1 (by simp [Sentinel.isElement])
      simp only [List.map_cons, Stmt.sentinelsOf, Stmt.sentinels, firstInner,
        inductionHypothesis plain.2, List.singleton_append]

mutual

theorem Node.sentinelsOf_translate (indexName : String) : (content : Node) →
    (Stmt.sentinelsOf (content.translate indexName)).map Sentinel.head = content.stream
  | .block content => by
      simp only [Node.translate, Node.stream]
      exact Block.sentinelsOf_translate indexName content
  | .tag content => by
      simp only [Node.translate, Node.stream, Stmt.sentinelsOf, List.append_nil]
      exact Tag.sentinels_translate indexName content
  | .text value _ => by
      simp only [Node.translate, Node.stream,
        Stmt.sentinelsOf_map_sentinel (Segment.isElement_sentinelsOfText value)]
  | .literal text _ => rfl
  | .code content => by
      simp only [Node.translate, Node.stream]
      exact Code.sentinelsOf_translate indexName content
  | .conditional content => by
      simp only [Node.translate, Node.stream, Stmt.sentinelsOf, Stmt.sentinels, List.append_nil]
      exact Conditional.sentinelsOf_translate indexName content
  | .loop test ⟨nodes, _⟩ _ => by
      simp only [Node.translate, Node.stream, Block.stream, Stmt.sentinelsOf, Stmt.sentinels,
        List.append_nil]
      exact Node.sentinelsOfAll_translateApart indexName nodes
  | .each content => by
      simp only [Node.translate, Node.stream, Stmt.sentinelsOf, List.append_nil]
      exact Each.sentinels_translate indexName content
  | .comment value visible _ => by cases visible <;> rfl
  | .blockComment value visible content _ => by
      cases visible with
      | false => rfl
      | true =>
          simp only [Node.translate, Node.stream, ↓reduceIte, Stmt.sentinelsOf, Stmt.sentinels,
            List.append_nil]
          exact Block.sentinelsOf_translate indexName content
  | .mixinBlock _ => rfl
  | .rejected _ _ => rfl

theorem Block.sentinelsOf_translate (indexName : String) : (content : Block) →
    (Stmt.sentinelsOf (content.translate indexName)).map Sentinel.head = content.stream
  | ⟨nodes, _⟩ => by
      simp only [Block.translate, Block.stream]
      exact Node.sentinelsOf_translateTogether indexName nodes

theorem Node.sentinelsOf_translateTogether (indexName : String) : (nodes : List Node) →
    (Stmt.sentinelsOf (Node.translateTogether indexName nodes)).map Sentinel.head =
      Node.streamOf nodes
  | [] => rfl
  | first :: rest => by
      simp only [Node.translateTogether, Node.streamOf, Stmt.sentinelsOf_append, List.map_append,
        Node.sentinelsOf_translate indexName first,
        Node.sentinelsOf_translateTogether indexName rest]

theorem Node.sentinelsOfAll_translateApart (indexName : String) : (nodes : List Node) →
    (Stmt.sentinelsOfAll (Node.translateApart indexName nodes)).map Sentinel.head =
      Node.streamOf nodes
  | [] => rfl
  | first :: rest => by
      simp only [Node.translateApart, Node.streamOf, Stmt.sentinelsOfAll, List.map_append,
        Node.sentinelsOf_translate indexName first,
        Node.sentinelsOfAll_translateApart indexName rest]

theorem Tag.sentinels_translate (indexName : String) : (content : Tag) →
    (content.translate indexName).sentinels.map Sentinel.head = content.stream
  | ⟨name, attributes, attributeBlocks, content, body, _⟩ => by
      have below : (Stmt.sentinelsOf
          (Code.translateOption indexName content ++ body.translate indexName)).map Sentinel.head =
            Code.streamOfOption content ++ body.stream := by
        rw [Stmt.sentinelsOf_append, List.map_append,
          Code.sentinelsOf_translateOption indexName content,
          Block.sentinelsOf_translate indexName body]
      simp only [Tag.translate, Tag.stream, Stmt.sentinels, Sentinel.inner, List.map_cons,
        Sentinel.head]
      rw [← below, List.length_map]

theorem Code.sentinelsOf_translate (indexName : String) : (content : Code) →
    (Stmt.sentinelsOf (content.translate indexName)).map Sentinel.head = content.stream
  | ⟨source, buffered, mustEscape, content, location⟩ => by
      have body := Block.sentinelsOfOption_translateOption indexName content
      simp only [Code.translate, Code.stream]
      rw [← body]
      cases Block.translateOption indexName content with
      | none => cases buffered <;> cases mustEscape <;> rfl
      | some stmts =>
          cases buffered <;> cases mustEscape <;>
            simp [Generation.codeStmt, Stmt.sentinelsOf, Stmt.sentinels, Sentinel.inner,
              Sentinel.head, Stmt.sentinelsOfOption]

theorem Code.sentinelsOf_translateOption (indexName : String) : (content : Option Code) →
    (Stmt.sentinelsOf (Code.translateOption indexName content)).map Sentinel.head =
      Code.streamOfOption content
  | none => rfl
  | some content => by
      simp only [Code.translateOption, Code.streamOfOption]
      exact Code.sentinelsOf_translate indexName content

theorem Block.sentinelsOfOption_translateOption (indexName : String) :
    (content : Option Block) →
    (Stmt.sentinelsOfOption (Block.translateOption indexName content)).map Sentinel.head =
      Block.streamOfOption content
  | none => rfl
  | some content => by
      simp only [Block.translateOption, Block.streamOfOption, Stmt.sentinelsOfOption]
      exact Block.sentinelsOf_translate indexName content

theorem Conditional.sentinelsOf_translate (indexName : String) : (content : Conditional) →
    (Stmt.sentinelsOf (content.translate indexName).2.1 ++
      (content.translate indexName).2.2.sentinels).map Sentinel.head = content.stream
  | ⟨test, consequent, other, _⟩ => by
      simp only [Conditional.translate, Conditional.stream, List.map_append,
        Block.sentinelsOf_translate indexName consequent,
        Alternate.sentinels_translateOption indexName other]

theorem Alternate.sentinels_translate (indexName : String) : (content : Alternate) →
    (content.translate indexName).sentinels.map Sentinel.head = content.stream
  | .conditional content => by
      simp only [Alternate.translate, Alternate.stream, Else.sentinels]
      exact Conditional.sentinelsOf_translate indexName content
  | .block content => by
      simp only [Alternate.translate, Alternate.stream, Else.sentinels]
      exact Block.sentinelsOf_translate indexName content

theorem Alternate.sentinels_translateOption (indexName : String) :
    (content : Option Alternate) →
    (Alternate.translateOption indexName content).sentinels.map Sentinel.head =
      Alternate.streamOfOption content
  | none => rfl
  | some content => by
      simp only [Alternate.translateOption, Alternate.streamOfOption]
      exact Alternate.sentinels_translate indexName content

theorem Each.sentinels_translate (indexName : String) : (content : Each) →
    (content.translate indexName).sentinels.map Sentinel.head = content.stream
  | ⟨object, value, key, content, other, _⟩ => by
      simp only [Each.translate, Each.stream, Stmt.sentinels, List.map_append,
        Block.sentinelsOf_translate indexName content,
        Block.sentinelsOfOption_translateOption indexName other]

end

/-- The sentinels of a generated program are the stream of its tree: the same ones,
as often, and in document order. -/
theorem Settings.sentinels_generate (settings : Settings) (root : Node)
    (generated : Intermediate) (success : settings.generate root = .ok generated) :
    generated.program.sentinels.map Sentinel.head = root.stream := by
  obtain ⟨-, rfl⟩ := Settings.generate_eq_ok_iff.mp success
  exact Node.sentinelsOf_translate settings.indexName root

/-- A tag with code and interpolated text, an iteration with an alternate, and a silent
comment around a filter. -/
def Node.tagAndEach : Node :=
  .block ⟨[
    .tag ⟨"p", [⟨"class", .source "[a, 'b']", true⟩], [], some ⟨" x ", true, true, none, {}⟩,
      ⟨[.text "a#\x7bb\x7d!\x7bc\x7d" {}], {}⟩, {}⟩,
    .each ⟨"xs", "x", none, ⟨[.literal "some" {}], {}⟩, some ⟨[.literal "none" {}], {}⟩, {}⟩,
    .blockComment "" false ⟨[.rejected .filter {}], {}⟩ {}], {}⟩

theorem Settings.sentinels_generate_tagAndEach :
    ∃ generated, ({} : Settings).generate Node.tagAndEach = .ok generated ∧
      generated.program.sentinels.map Sentinel.head =
        [.element "p" (some (.object ⟨[("className", .classes [.dynamic "a", .static "b"])]⟩)) 3,
          .text ⟨[.expr "x"], false⟩, .text ⟨[.literal "a", .expr "b"], true⟩, .unescape "c",
          .text ⟨[.literal "some"], false⟩, .text ⟨[.literal "none"], false⟩] := by
  have success : ({} : Settings).generate Node.tagAndEach =
      .ok (({} : Settings).translate Node.tagAndEach) :=
    Settings.generate_eq_ok_iff.mpr ⟨by decide, rfl⟩
  refine ⟨_, success, ?_⟩
  rw [Settings.sentinels_generate _ _ _ success]
  decide +kernel

end Template
