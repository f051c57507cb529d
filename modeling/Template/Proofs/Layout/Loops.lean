import Template.Proofs.Layout.Branches

/-!
# Loops

A loop becomes one closure for each node of its body, and a round of the loop calls each of
them once, in the same order, and collects what they return.  All of this stands in a function
of its own, so that the names of the closures are known there only and a loop inside another
one can use the same names again.
-/

namespace Template

/-! ## Closures -/

namespace Stmt

theorem bodyName_injective : Function.Injective bodyName := by
  intro first second sameName
  have sameDigits := congrArg String.toList sameName
  simp only [bodyName, String.toList_append, String.toList_ofList, List.append_cancel_left_eq]
    at sameDigits
  calc
    first = Nat.ofDigitChars 10 (Nat.toDigits 10 first) 0 := Nat.ofDigitChars_ten_toDigits.symm
    _ = Nat.ofDigitChars 10 (Nat.toDigits 10 second) 0 := by rw [sameDigits]
    _ = second := Nat.ofDigitChars_ten_toDigits

/-- The names of the closures of a loop, in order. -/
def bodyNames (count : Nat) : List String :=
  (List.range count).map bodyName

theorem nodup_bodyNames (count : Nat) : (bodyNames count).Nodup :=
  List.Pairwise.map bodyName (fun _ _ => bodyName_injective.ne) List.nodup_range

/-- The line that opens the closure with a name. -/
def declaration (name : String) : String := "var " ++ name ++ " = function () \x7b"

/-- The line that calls the closure with a name and collects what it returns. -/
def call (name : String) : String := "__return.push(" ++ name ++ ".call(this));"

/-- The lines of a closure. -/
def closure (depth : Nat) (name : String) (body : Program) : List Line :=
  ⟨depth, declaration name⟩ :: linesOf (depth + 1) body ++ [⟨depth, "\x7d;"⟩]

theorem closureLines_eq (depth index : Nat) (bodies : List Program) :
    closureLines depth index bodies =
      (((List.range' index bodies.length).map bodyName).zip bodies).flatMap fun named =>
        closure depth named.1 named.2 := by
  induction bodies generalizing index with
  | nil => rfl
  | cons body rest inductionHypothesis =>
      rw [closureLines, inductionHypothesis, List.length_cons, List.range'_succ, List.map_cons,
        List.zip_cons_cons, List.flatMap_cons, closure]
      simp [declaration]

theorem infix_closureLines (depth index : Nat) {body : Program} {bodies : List Program}
    (membership : body ∈ bodies) :
    linesOf (depth + 1) body <:+: closureLines depth index bodies := by
  induction bodies generalizing index with
  | nil => exact absurd membership List.not_mem_nil
  | cons first rest inductionHypothesis =>
      rw [closureLines]
      rcases List.mem_cons.mp membership with rfl | later
      · exact ⟨[_], _, rfl⟩
      · refine (inductionHypothesis (index + 1) later).trans ?_
        exact ((List.suffix_cons _ _).trans (List.suffix_append (_ :: _) _)).isInfix

/-- The statements of every closure of a loop are printed side by side. -/
theorem infix_lines_loop {depth : Nat} {test : String} {body : Program} {bodies : List Program}
    (membership : body ∈ bodies) :
    linesOf (depth + 2) body <:+: lines depth (.loop test bodies) := by
  refine (infix_closureLines (depth + 1) 0 membership).trans ?_
  rw [lines]
  refine List.IsInfix.trans ?_ (List.prefix_append _ _).isInfix
  exact (List.suffix_append [_, _] _).isInfix.trans (List.prefix_append _ _).isInfix

/-- The lines of a loop: the closures, then the rounds that call them, in a function. -/
theorem lines_loop (depth : Nat) (test : String) (bodies : List Program) :
    lines depth (.loop test bodies) =
      [⟨depth, "(function () \x7b"⟩, ⟨depth + 1, "var __return = [];"⟩] ++
        (((bodyNames bodies.length).zip bodies).flatMap fun named =>
          closure (depth + 1) named.1 named.2) ++
        ⟨depth + 1, "while (" ++ test ++ ") \x7b"⟩ ::
          (bodyNames bodies.length).map (fun name => ⟨depth + 2, call name⟩) ++
        [⟨depth + 1, "\x7d"⟩, ⟨depth + 1, "return __return;"⟩, ⟨depth, "\x7d).call(this);"⟩] := by
  rw [lines, closureLines_eq, ← List.range_eq_range', bodyNames, List.map_map]
  rfl

end Stmt

/-! ## Nodes inside nodes -/

/-- The nodes of a block, which are printed at a depth. -/
def Block.children (depth : Nat) (content : Block) : List (Nat × Node) :=
  content.nodes.map fun node => (depth, node)

/-- The nodes in the block of code, with the depth that they are printed at. -/
def Code.children (depth : Nat) (content : Code) : List (Nat × Node) :=
  content.block.toList.flatMap (Block.children (if content.buffered then depth else depth + 1))

namespace Node

/-- The nodes right inside a node that is printed at a depth, each with the depth that it is
printed at itself. -/
def children (depth : Nat) : Node → List (Nat × Node)
  | .block content => content.children depth
  | .tag content =>
      content.code.toList.flatMap (Code.children (depth + 1)) ++
        content.block.children (depth + 1)
  | .code content => content.children depth
  | .conditional content => content.blocks.flatMap (Block.children (depth + 1))
  | .loop _ content _ => content.children (depth + 2)
  | .each content =>
      content.block.children (depth + 1) ++
        content.alternate.toList.flatMap (Block.children (depth + 1))
  | .blockComment _ visible content _ => if visible then content.children (depth + 1) else []
  | .text .. | .literal .. | .comment .. | .mixinBlock _ | .rejected .. => []

/-- A node that is printed at a depth contains another one that is printed at a place of its
own. -/
inductive Contains : (node : Node) → (depth : Nat) → (target : Node) → (place : Nat) → Prop where
  | self {node : Node} {depth : Nat} : node.Contains depth node depth
  | inner {node child target : Node} {depth between place : Nat}
      (membership : (between, child) ∈ node.children depth)
      (contains : child.Contains between target place) : node.Contains depth target place

/-- Nodes whose lines stand side by side among some lines and whose offenders are among some
offenders. -/
def AllInside (indexName : String) (children : List (Nat × Node)) (lines : List Line)
    (offenders : List Offender) : Prop :=
  ∀ child ∈ children, Stmt.linesOf child.1 (child.2.translate indexName) <:+: lines ∧
    child.2.offenders ⊆ offenders

namespace AllInside

variable {indexName : String} {children others : List (Nat × Node)}
variable {lines outer : List Line} {offenders all : List Offender}

theorem nil : AllInside indexName [] lines offenders :=
  List.forall_mem_nil _

theorem append (first : AllInside indexName children lines offenders)
    (second : AllInside indexName others lines offenders) :
    AllInside indexName (children ++ others) lines offenders :=
  List.forall_mem_append.mpr ⟨first, second⟩

theorem mono (inside : AllInside indexName children lines offenders) (part : lines <:+: outer)
    (among : offenders ⊆ all) : AllInside indexName children outer all := fun child membership =>
  ⟨(inside child membership).1.trans part, List.Subset.trans (inside child membership).2 among⟩

/-- The nodes of blocks that are inside. -/
theorem flatMap {α : Type} {parts : List α} {childrenOf : α → List (Nat × Node)}
    (inside : ∀ part ∈ parts, AllInside indexName (childrenOf part) lines offenders) :
    AllInside indexName (parts.flatMap childrenOf) lines offenders := by
  intro child membership
  obtain ⟨part, found, within⟩ := List.mem_flatMap.mp membership
  exact inside part found child within

end AllInside

theorem offendersOf_eq_flatMap (nodes : List Node) :
    offendersOf nodes = nodes.flatMap offenders := by
  induction nodes with
  | nil => rfl
  | cons first rest inductionHypothesis =>
      rw [offendersOf, List.flatMap_cons, inductionHypothesis]

theorem translateApart_eq_map (indexName : String) (nodes : List Node) :
    translateApart indexName nodes = nodes.map (translate indexName) := by
  induction nodes with
  | nil => rfl
  | cons first rest inductionHypothesis =>
      rw [translateApart, List.map_cons, inductionHypothesis]

end Node

/-- Every node of a block is printed among the lines of the block. -/
theorem Block.allInside (indexName : String) (depth : Nat) (content : Block) :
    Node.AllInside indexName (content.children depth)
      (Stmt.linesOf depth (content.translate indexName)) content.offenders := by
  obtain ⟨nodes, location⟩ := content
  rw [Block.children, Node.AllInside, List.forall_mem_map]
  intro node membership
  obtain ⟨before, after, rfl⟩ := List.append_of_mem membership
  constructor
  · refine Stmt.infix_linesOf depth ?_
    rw [Block.translate, Node.translateTogether_eq_flatMap, List.flatMap_append,
      List.flatMap_cons]
    exact List.infix_append' _ _ _
  · rw [Block.offenders, Node.offendersOf_eq_flatMap]
    exact fun offender => List.mem_flatMap_of_mem membership

/-- The nodes in the block of code are printed among the lines of the code. -/
theorem Code.allInside (indexName : String) (depth : Nat) (content : Code) :
    Node.AllInside indexName (content.children depth)
      (Stmt.linesOf depth (content.translate indexName)) content.offenders := by
  obtain ⟨source, buffered, mustEscape, block, location⟩ := content
  cases block with
  | none => exact .nil
  | some block =>
      rw [children, Option.toList_some, List.flatMap_singleton]
      refine (block.allInside indexName _).mono ?_ (List.Subset.refl _)
      cases buffered with
      | true => exact Stmt.infix_linesOf depth (List.suffix_cons _ _).isInfix
      | false =>
          have scope : Stmt.linesOf (depth + 1) (block.translate indexName) <:+:
              Stmt.linesOf depth [.scope (block.translate indexName)] := by
            rw [Stmt.linesOf_singleton]
            exact ⟨[_], [_], rfl⟩
          exact scope.trans (Stmt.infix_linesOf depth (List.suffix_cons _ _).isInfix)

namespace Node

variable (indexName : String) (depth : Nat)

/-- The nodes right inside a node are printed among its lines. -/
def HoldsChildren (node : Node) : Prop :=
  AllInside indexName (node.children depth) (Stmt.linesOf depth (node.translate indexName))
    node.offenders

theorem holdsChildren_tag (content : Tag) : HoldsChildren indexName depth (.tag content) := by
  obtain ⟨name, attributes, blocks, code, body, location⟩ := content
  have element : Stmt.linesOf (depth + 1) (Code.translateOption indexName code) ++
        Stmt.linesOf (depth + 1) (body.translate indexName) <:+:
      Stmt.linesOf depth
        ((tag ⟨name, attributes, blocks, code, body, location⟩).translate indexName) := by
    rw [translate, Stmt.linesOf_singleton, ← Stmt.linesOf_append]
    exact ⟨[_, _], [_], rfl⟩
  refine .append (.flatMap fun front found => ?_) ?_
  · obtain rfl := Option.mem_toList.mp found
    exact (front.allInside indexName (depth + 1)).mono
      ((List.prefix_append _ _).isInfix.trans element) (List.subset_append_left _ _)
  · exact (body.allInside indexName (depth + 1)).mono
      ((List.suffix_append _ _).isInfix.trans element) (List.subset_append_right _ _)

theorem holdsChildren_conditional (content : Conditional) :
    HoldsChildren indexName depth (.conditional content) := by
  refine .flatMap fun block found => (block.allInside indexName (depth + 1)).mono ?_ ?_
  · obtain ⟨opening, opened⟩ := Chain.exists_mem_openings indexName found
    rw [Stmt.linesOf_conditional]
    exact (Chain.infix_linesOf opened).trans (List.prefix_append _ _).isInfix
  · rw [offenders, content.offenders_eq_flatMap]
    exact fun offender => List.mem_flatMap_of_mem found

theorem holdsChildren_loop (test : String) (content : Block) (location : Location) :
    HoldsChildren indexName depth (.loop test content location) := by
  obtain ⟨nodes, blockLocation⟩ := content
  rw [HoldsChildren, translate, Stmt.linesOf_singleton, translateApart_eq_map, children,
    Block.children, AllInside, List.forall_mem_map]
  intro node membership
  constructor
  · exact Stmt.infix_lines_loop (List.mem_map_of_mem membership)
  · rw [offenders, Block.offenders, offendersOf_eq_flatMap]
    exact fun offender => List.mem_flatMap_of_mem membership

theorem holdsChildren_each (content : Each) : HoldsChildren indexName depth (.each content) := by
  obtain ⟨object, value, key, body, alternate, location⟩ := content
  rw [HoldsChildren, translate, Stmt.linesOf_singleton]
  refine .append ?_ (.flatMap fun other found => ?_)
  · exact (body.allInside indexName (depth + 1)).mono ⟨[_], _, rfl⟩ (List.subset_append_left _ _)
  · obtain rfl := Option.mem_toList.mp found
    have otherwise : Stmt.linesOf (depth + 1) (other.translate indexName) <:+:
        Stmt.alternateLines depth (some (other.translate indexName)) := ⟨[_], [_], rfl⟩
    exact (other.allInside indexName (depth + 1)).mono
      (otherwise.trans (List.suffix_append (_ :: _) _).isInfix) (List.subset_append_right _ _)

theorem holdsChildren_blockComment (value : String) (visible : Bool) (content : Block)
    (location : Location) :
    HoldsChildren indexName depth (.blockComment value visible content location) := by
  cases visible with
  | false => exact .nil
  | true =>
      refine (content.allInside indexName (depth + 1)).mono ?_ (List.Subset.refl _)
      rw [translate, if_pos rfl, Stmt.linesOf_singleton]
      exact ⟨[_], [_], rfl⟩

theorem holdsChildren (node : Node) : HoldsChildren indexName depth node := by
  cases node with
  | block content => exact content.allInside indexName depth
  | tag content => exact holdsChildren_tag indexName depth content
  | code content => exact content.allInside indexName depth
  | conditional content => exact holdsChildren_conditional indexName depth content
  | loop test content location => exact holdsChildren_loop indexName depth test content location
  | each content => exact holdsChildren_each indexName depth content
  | blockComment value visible content location =>
      exact holdsChildren_blockComment indexName depth value visible content location
  | text | literal | comment | mixinBlock | rejected => exact .nil

variable {depth}

/-- A node inside another one is printed among its lines, however deep inside it is. -/
theorem Contains.printed {place : Nat} {node target : Node}
    (contains : node.Contains depth target place) (indexName : String) :
    Stmt.linesOf place (target.translate indexName) <:+:
        Stmt.linesOf depth (node.translate indexName) ∧
      target.offenders ⊆ node.offenders := by
  induction contains with
  | self => exact ⟨List.infix_refl _, List.Subset.refl _⟩
  | inner membership _ inductionHypothesis =>
      obtain ⟨inside, among⟩ := holdsChildren indexName _ _ _ membership
      exact ⟨inductionHypothesis.1.trans inside, List.Subset.trans inductionHypothesis.2 among⟩

end Node

/-! ## Printed loops -/

/-- The text of a loop whose closures have the given statements. -/
def Program.renderLoop (indent : String) (depth : Nat) (test : String) (bodies : List Program) :
    String :=
  let names := Stmt.bodyNames bodies.length
  let line (levels : Nat) (text : String) := Line.margin indent (depth + levels) ++ text ++ "\n"
  line 0 "(function () \x7b" ++ line 1 "var __return = [];" ++
    String.join ((names.zip bodies).map fun (name, body) =>
      line 1 (Stmt.declaration name) ++ body.renderAt indent (depth + 2) ++ line 1 "\x7d;") ++
    line 1 ("while (" ++ test ++ ") \x7b") ++
    String.join (names.map fun name => line 2 (Stmt.call name)) ++
    line 1 "\x7d" ++ line 1 "return __return;" ++ line 0 "\x7d).call(this);"

theorem Program.renderAt_loop (indent : String) (depth : Nat) (test : String)
    (bodies : List Program) :
    renderAt indent depth [.loop test bodies] = renderLoop indent depth test bodies := by
  have calls (names : List String) :
      Line.join indent (names.map fun name => ⟨depth + 2, Stmt.call name⟩) =
        String.join (names.map fun name =>
          Line.margin indent (depth + 2) ++ Stmt.call name ++ "\n") := by
    rw [Line.join, List.map_map]
    rfl
  rw [renderAt, Stmt.linesOf_singleton, Stmt.lines_loop]
  simp only [Line.join_append, Line.join_cons, Line.join_nil, Line.join_flatMap, calls,
    Stmt.closure, Line.render_eq, renderLoop, renderAt, Nat.add_zero, String.append_empty,
    String.append_assoc]

/-- The lines of the function around a loop are those of its result, the closures and the
rounds. -/
theorem Stmt.texts_lines_loop (depth : Nat) (test : String) (bodies : List Program) :
    ((linesOf depth [.loop test bodies]).filter (·.depth == depth + 1)).map Line.text =
      "var __return = [];" ::
        (bodyNames bodies.length).flatMap (fun name => [declaration name, "\x7d;"]) ++
        ["while (" ++ test ++ ") \x7b", "\x7d", "return __return;"] := by
  have names : ((bodyNames bodies.length).zip bodies).map Prod.fst = bodyNames bodies.length :=
    List.map_fst_zip (by simp [bodyNames])
  have closures : (((bodyNames bodies.length).zip bodies).flatMap fun named =>
        [declaration named.1, "\x7d;"]) =
      (bodyNames bodies.length).flatMap (fun name => [declaration name, "\x7d;"]) := by
    conv_rhs => rw [← names, List.flatMap_map]
  rw [linesOf_singleton, lines_loop, ← closures]
  simp [closure, List.filter_flatMap, filter_linesOf_succ, List.map_flatMap]

namespace Settings

variable {settings : Settings} {indent : String} {depth : Nat} {test : String} {block : Block}

/-- The text of a loop at a depth, where the statements of each closure are generated from one
node of the body alone. -/
def LoopText (settings : Settings) (indent : String) (depth : Nat) (test : String)
    (block : Block) (text : String) : Prop :=
  ∃ parts : List Intermediate,
    List.Forall₂ (fun node part => settings.generate node = .ok part) block.nodes parts ∧
    text = Program.renderLoop indent depth (Text.trim test) (parts.map Intermediate.program)

theorem program_translate_loop (location : Location) :
    (settings.translate (.loop test block location)).program =
      [.loop (Text.trim test) ((block.nodes.map settings.translate).map Intermediate.program)] := by
  obtain ⟨nodes, blockLocation⟩ := block
  change (Node.loop test ⟨nodes, blockLocation⟩ location).translate settings.indexName = _
  rw [Node.translate, Node.translateApart_eq_map, List.map_map]
  rfl

theorem offenders_body {location : Location}
    (accepted : (Node.loop test block location).offenders = []) :
    ∀ node ∈ block.nodes, node.offenders = [] := by
  obtain ⟨nodes, blockLocation⟩ := block
  exact (Node.offendersOf_eq_nil_iff nodes).mp accepted

/-- A loop without offenders is printed with the closures of its nodes. -/
theorem loopText_renderAt {location : Location}
    (accepted : (Node.loop test block location).offenders = []) :
    settings.LoopText indent depth test block
      ((settings.translate (.loop test block location)).program.renderAt indent depth) := by
  refine ⟨block.nodes.map settings.translate,
    forall₂_generate_translate (offenders_body accepted), ?_⟩
  rw [program_translate_loop, Program.renderAt_loop]

/-- A loop that is generated is printed as one closure for each node of its body, whose
statements are generated from this node alone, and as many calls, at every depth.  The function
around them declares each of the names that are called exactly once.  A loop inside
one of the nodes, however deep, is printed in the same way inside the closure. -/
theorem renderAt_generate_loop {location : Location} {generated : Intermediate}
    (success : settings.generate (.loop test block location) = .ok generated)
    (indent : String) (depth : Nat) :
    settings.LoopText indent depth test block (generated.program.renderAt indent depth) ∧
    (Stmt.bodyNames block.nodes.length).Nodup ∧
    ((Stmt.linesOf depth generated.program).filter (·.depth == depth + 1)).map Line.text =
      "var __return = [];" ::
        (Stmt.bodyNames block.nodes.length).flatMap
          (fun name => [Stmt.declaration name, "\x7d;"]) ++
        ["while (" ++ Text.trim test ++ ") \x7b", "\x7d", "return __return;"] ∧
    ∀ node ∈ block.nodes, ∀ place innerTest inner innerLocation,
      node.Contains (depth + 2) (.loop innerTest inner innerLocation) place →
      ∃ part before text after, settings.generate node = .ok part ∧
        part.program.renderAt indent (depth + 2) = before ++ text ++ after ∧
        settings.LoopText indent place innerTest inner text := by
  obtain ⟨accepted, rfl⟩ := generate_eq_ok_iff.mp success
  refine ⟨loopText_renderAt accepted, Stmt.nodup_bodyNames _, ?_, ?_⟩
  · rw [program_translate_loop, Stmt.texts_lines_loop]
    simp only [List.length_map]
  · intro node membership place innerTest inner innerLocation contains
    have nodeAccepted := offenders_body accepted node membership
    obtain ⟨inside, among⟩ := contains.printed settings.indexName
    rw [nodeAccepted, List.subset_nil] at among
    obtain ⟨before, after, split⟩ := Line.exists_join_of_infix indent inside
    exact ⟨settings.translate node, before, _, after,
      generate_eq_ok_iff.mpr ⟨nodeAccepted, rfl⟩, split, loopText_renderAt among⟩

/-- The body of a loop: two texts. -/
def innerBody : Block := ⟨[.literal "x" {}, .literal "y" {}], {}⟩

/-- The body of another loop: a silent comment, a text in several parts, and an element with the
first loop in a branch. -/
def outerBody : Block :=
  let guarded : Node :=
    .conditional ⟨"a", ⟨[], {}⟩, some (.block ⟨[.loop "m" innerBody {}], {}⟩), {}⟩
  ⟨[.comment "" false {}, .text "u #\x7bv\x7d !\x7bw\x7d" {},
    .tag ⟨"p", [], [], none, ⟨[.mixinBlock {}, guarded], {}⟩, {}⟩], {}⟩

theorem renderAt_generate_loop_outerBody :
    ∃ (generated part : Intermediate) (before text after : String),
      ({} : Settings).generate (.loop " n " outerBody {}) = .ok generated ∧
      ({} : Settings).LoopText "\t" 1 " n " outerBody (generated.program.renderAt "\t" 1) ∧
      Stmt.bodyNames outerBody.nodes.length = ["__body0", "__body1", "__body2"] ∧
      ({} : Settings).generate (outerBody.nodes.get ⟨2, by decide⟩) = .ok part ∧
      part.program.renderAt "\t" 3 = before ++ text ++ after ∧
      ({} : Settings).LoopText "\t" 5 "m" innerBody text := by
  have success : ({} : Settings).generate (.loop " n " outerBody {}) =
      .ok (({} : Settings).translate (.loop " n " outerBody {})) :=
    generate_eq_ok_iff.mpr ⟨by decide, rfl⟩
  obtain ⟨printed, -, -, nested⟩ := renderAt_generate_loop success "\t" 1
  have contains : (outerBody.nodes.get ⟨2, by decide⟩).Contains 3 (.loop "m" innerBody {}) 5 :=
    .inner (.tail _ (.head _)) (.inner (.head _) .self)
  obtain ⟨part, before, text, after, generates, split, inner⟩ :=
    nested _ (List.get_mem _ _) _ _ _ _ contains
  exact ⟨_, part, before, text, after, success, printed, by decide +kernel, generates, split,
    inner⟩

end Settings

end Template
