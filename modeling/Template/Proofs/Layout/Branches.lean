import Template.Proofs.Layout.Depth
import Template.Proofs.Siblings

/-!
# Chains of branches

A condition whose alternate is a condition again is one chain of tested branches, with a block
for the case that no test succeeds behind them or not.  The chain is printed flat, however long
it is: every branch is opened by a line at the depth of the condition, and what it guards is
one level deeper.
-/

namespace Template

/-! ## The branches of a condition -/

namespace Conditional

/-- The tested branches that follow the first one, each with its test and its block. -/
def others : Conditional → List (String × Block)
  | ⟨_, _, some (.conditional next), _⟩ => (next.test, next.consequent) :: next.others
  | ⟨_, _, some (.block _), _⟩ | ⟨_, _, none, _⟩ => []

/-- The tested branches of a condition in order, each with its test and its block. -/
def branches (content : Conditional) : List (String × Block) :=
  (content.test, content.consequent) :: content.others

/-- The block for the case that no test succeeds. -/
def otherwise? : Conditional → Option Block
  | ⟨_, _, some (.conditional next), _⟩ => next.otherwise?
  | ⟨_, _, some (.block content), _⟩ => some content
  | ⟨_, _, none, _⟩ => none

/-- The blocks of all branches in order. -/
def blocks (content : Conditional) : List Block :=
  content.branches.map Prod.snd ++ content.otherwise?.toList

/-- The offenders in a condition are those in the blocks of its branches. -/
theorem offenders_eq_flatMap : (content : Conditional) →
    content.offenders = content.blocks.flatMap Block.offenders
  | ⟨test, consequent, none, location⟩ => by
      simp [offenders, Alternate.offendersOfOption, blocks, branches, others, otherwise?]
  | ⟨test, consequent, some (.block content), location⟩ => by
      simp [offenders, Alternate.offendersOfOption, Alternate.offenders, blocks, branches, others,
        otherwise?]
  | ⟨test, consequent, some (.conditional next), location⟩ => by
      rw [offenders, Alternate.offendersOfOption, Alternate.offenders, offenders_eq_flatMap next]
      rfl

end Conditional

/-! ## Printed chains -/

/-- Statements for the branches of a chain: at least one with a test, and those for the case that
no test succeeds. -/
structure Chain where
  first : String × Program
  others : List (String × Program)
  otherwise : Option Program

namespace Chain

/-- The statements of the branches behind the first, each with the line that opens the branch. -/
def followers (chain : Chain) : List (String × Program) :=
  chain.others.map (fun branch => ("\x7d else if (" ++ branch.1 ++ ") \x7b", branch.2)) ++
    chain.otherwise.toList.map fun body => ("\x7d else \x7b", body)

/-- The statements of the branches in order, each with the line that opens the branch. -/
def openings (chain : Chain) : List (String × Program) :=
  ("if (" ++ chain.first.1 ++ ") \x7b", chain.first.2) :: chain.followers

/-- The text of a chain: every branch is opened at the depth of the chain and its statements are
one level deeper. -/
def render (indent : String) (depth : Nat) (chain : Chain) : String :=
  String.join (chain.openings.map fun opening =>
      Line.margin indent depth ++ opening.1 ++ "\n" ++ opening.2.renderAt indent (depth + 1)) ++
    Line.margin indent depth ++ "\x7d\n"

/-- The tests of a chain are those of a condition without the blanks around them, and the
statements of each branch are generated from its block alone. -/
structure Translates (settings : Settings) (content : Conditional) (chain : Chain) : Prop where
  branches : List.Forall₂
    (fun branch printed => printed.1 = Text.trim branch.1 ∧
      ∃ declarations, settings.generate (.block branch.2) = .ok ⟨printed.2, declarations⟩)
    content.branches (chain.first :: chain.others)
  otherwise : Option.Rel
    (fun block program =>
      ∃ declarations, settings.generate (.block block) = .ok ⟨program, declarations⟩)
    content.otherwise? chain.otherwise

/-- The lines that open branches, each with the lines of its statements behind it. -/
def linesOf (depth : Nat) (openings : List (String × Program)) : List Line :=
  openings.flatMap fun opening => ⟨depth, opening.1⟩ :: Stmt.linesOf (depth + 1) opening.2

theorem linesOf_cons (depth : Nat) (opening : String) (body : Program)
    (rest : List (String × Program)) :
    linesOf depth ((opening, body) :: rest) =
      ⟨depth, opening⟩ :: Stmt.linesOf (depth + 1) body ++ linesOf depth rest :=
  List.flatMap_cons

theorem join_linesOf (indent : String) (depth : Nat) (openings : List (String × Program)) :
    Line.join indent (linesOf depth openings) =
      String.join (openings.map fun opening =>
        Line.margin indent depth ++ opening.1 ++ "\n" ++
          opening.2.renderAt indent (depth + 1)) := by
  simp only [linesOf, Line.join_flatMap, Line.join_cons, Line.render_eq, Program.renderAt]

/-- The statements of a branch are printed side by side. -/
theorem infix_linesOf {depth : Nat} {opening : String} {body : Program}
    {openings : List (String × Program)} (membership : (opening, body) ∈ openings) :
    Stmt.linesOf (depth + 1) body <:+: linesOf depth openings := by
  obtain ⟨before, after, rfl⟩ := List.append_of_mem membership
  refine ⟨linesOf depth before ++ [⟨depth, opening⟩], linesOf depth after, ?_⟩
  simp [linesOf]

/-- Only the lines that open branches are at the depth of the chain. -/
theorem texts_linesOf (depth : Nat) (openings : List (String × Program)) :
    ((linesOf depth openings).filter (·.depth == depth)).map Line.text =
      openings.map Prod.fst := by
  simp [linesOf, List.filter_flatMap, Stmt.filter_linesOf_succ, ← List.map_eq_flatMap]

/-- The test and the statements of a branch. -/
def ofBranch (indexName : String) (branch : String × Block) : String × Program :=
  (Text.trim branch.1, branch.2.translate indexName)

/-- The chain that a condition is translated to. -/
def ofConditional (indexName : String) (content : Conditional) : Chain where
  first := ofBranch indexName (content.test, content.consequent)
  others := content.others.map (ofBranch indexName)
  otherwise := content.otherwise?.map (Block.translate indexName)

/-- Every block of a condition has a branch in the chain. -/
theorem exists_mem_openings (indexName : String) {content : Conditional} {block : Block}
    (membership : block ∈ content.blocks) :
    ∃ opening,
      (opening, block.translate indexName) ∈ (ofConditional indexName content).openings := by
  have translated : (ofConditional indexName content).openings.map Prod.snd =
      content.blocks.map (Block.translate indexName) := by
    simp [openings, followers, ofConditional, ofBranch, Conditional.blocks, Conditional.branches,
      Option.toList_map, Function.comp_def]
  have opened := List.mem_map_of_mem (f := Block.translate indexName) membership
  rw [← translated, List.mem_map] at opened
  obtain ⟨⟨opening, _⟩, found, rfl⟩ := opened
  exact ⟨opening, found⟩

theorem translates_ofConditional (settings : Settings) {content : Conditional}
    (accepted : content.offenders = []) :
    (ofConditional settings.indexName content).Translates settings content := by
  rw [content.offenders_eq_flatMap, List.flatMap_eq_nil_iff, Conditional.blocks,
    List.forall_mem_append, List.forall_mem_map] at accepted
  obtain ⟨branches, otherwise⟩ := accepted
  have generates {block : Block} (blockAccepted : block.offenders = []) : ∃ declarations,
      settings.generate (.block block) =
        .ok ⟨block.translate settings.indexName, declarations⟩ :=
    ⟨_, Settings.generate_eq_ok_iff.mpr ⟨blockAccepted, rfl⟩⟩
  constructor
  · change List.Forall₂ _ content.branches (content.branches.map (ofBranch settings.indexName))
    rw [List.forall₂_map_right_iff, List.forall₂_same]
    intro branch membership
    exact ⟨rfl, generates (branches branch membership)⟩
  · change Option.Rel _ content.otherwise? (content.otherwise?.map _)
    cases found : content.otherwise? with
    | none => exact .none
    | some block => exact .some (generates (otherwise block (by simp [found])))

end Chain

namespace Stmt

/-- The lines behind the first branch of a condition are those of the other branches. -/
theorem elseLines_translate (indexName : String) (depth : Nat) : (content : Conditional) →
    elseLines depth (Alternate.translateOption indexName content.alternate) =
      Chain.linesOf depth (Chain.ofConditional indexName content).followers ++
        [⟨depth, "\x7d"⟩]
  | ⟨_, _, none, _⟩ => rfl
  | ⟨_, _, some (.block content), _⟩ => by
      simp [Alternate.translateOption, Alternate.translate, elseLines, Chain.followers,
        Chain.ofConditional, Conditional.others, Conditional.otherwise?, Chain.linesOf]
  | ⟨_, _, some (.conditional ⟨test, consequent, other, location⟩), _⟩ => by
      have rest := elseLines_translate indexName depth ⟨test, consequent, other, location⟩
      change ⟨depth, "\x7d else if (" ++ Text.trim test ++ ") \x7b"⟩ ::
        linesOf (depth + 1) (consequent.translate indexName) ++
          elseLines depth (Alternate.translateOption indexName other) = _
      rw [rest, ← List.append_assoc, ← Chain.linesOf_cons]
      rfl

/-- The lines of a condition are those of its branches and a closing brace. -/
theorem linesOf_conditional (indexName : String) (depth : Nat) (content : Conditional) :
    linesOf depth ((Node.conditional content).translate indexName) =
      Chain.linesOf depth (Chain.ofConditional indexName content).openings ++
        [⟨depth, "\x7d"⟩] := by
  have program : (Node.conditional content).translate indexName =
      [.branch (Text.trim content.test) (content.consequent.translate indexName)
        (Alternate.translateOption indexName content.alternate)] := by
    obtain ⟨test, consequent, other, location⟩ := content
    rfl
  rw [program, linesOf_singleton, lines, elseLines_translate, ← List.append_assoc,
    ← Chain.linesOf_cons]
  rfl

end Stmt

namespace Settings

/-- A condition that is generated is printed as a flat chain, at every depth: one block for each
of its branches, in order, whose statements are generated from the block of the branch alone.
The lines at the depth of the condition are those that open the branches and the last brace. -/
theorem renderAt_conditional (settings : Settings) {content : Conditional}
    {generated : Intermediate}
    (success : settings.generate (.conditional content) = .ok generated) :
    ∃ chain : Chain, chain.Translates settings content ∧ ∀ indent depth,
      generated.program.renderAt indent depth = chain.render indent depth ∧
      ((Stmt.linesOf depth generated.program).filter (·.depth == depth)).map Line.text =
        chain.openings.map Prod.fst ++ ["\x7d"] := by
  obtain ⟨accepted, rfl⟩ := generate_eq_ok_iff.mp success
  refine ⟨.ofConditional settings.indexName content,
    Chain.translates_ofConditional settings accepted, fun indent depth => ?_⟩
  have lines : Stmt.linesOf depth (settings.translate (.conditional content)).program = _ :=
    Stmt.linesOf_conditional settings.indexName depth content
  have closing : Line.join indent [⟨depth, "\x7d"⟩] = Line.margin indent depth ++ "\x7d\n" := by
    rw [Line.join_cons, Line.join_nil, String.append_empty, Line.render_eq, String.append_assoc]
    rfl
  constructor
  · rw [Program.renderAt, lines, Line.join_append, Chain.join_linesOf, closing,
      ← String.append_assoc]
    rfl
  · rw [lines, List.filter_append, List.map_append, Chain.texts_linesOf]
    simp

/-- Three tested branches and a last one, with another condition in the first. -/
def fourBranches : Conditional :=
  let inner : Conditional := ⟨"e", ⟨[], {}⟩, some (.block ⟨[], {}⟩), {}⟩
  let last : Conditional := ⟨"c\t", ⟨[], {}⟩, some (.block ⟨[.literal "d" {}], {}⟩), {}⟩
  ⟨" a ", ⟨[.literal "x" {}, .conditional inner], {}⟩,
    some (.conditional ⟨"b", ⟨[.text "y\n" {}], {}⟩, some (.conditional last), {}⟩), {}⟩

theorem renderAt_conditional_fourBranches :
    ∃ (generated : Intermediate) (chain : Chain),
      ({} : Settings).generate (.conditional fourBranches) = .ok generated ∧
      chain.Translates {} fourBranches ∧
      generated.program.renderAt "\t" 1 = chain.render "\t" 1 ∧
      chain.openings.map Prod.fst ++ ["\x7d"] =
        ["if (a) \x7b", "\x7d else if (b) \x7b", "\x7d else if (c) \x7b", "\x7d else \x7b",
          "\x7d"] := by
  have success : ({} : Settings).generate (.conditional fourBranches) =
      .ok (({} : Settings).translate (.conditional fourBranches)) :=
    generate_eq_ok_iff.mpr ⟨by decide, rfl⟩
  obtain ⟨chain, translates, printed⟩ := renderAt_conditional {} success
  obtain ⟨text, openings⟩ := printed "\t" 1
  refine ⟨_, chain, success, translates, text, ?_⟩
  rw [← openings]
  decide +kernel

end Settings

end Template
