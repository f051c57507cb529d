import Mathlib.Data.List.Forall2
import Template.Proofs.Translation

/-!
# Siblings

The preamble is threaded through the nodes of a list, so that what one node notes is
there when the next one is visited.  It goes into the declarations only: the statements
of a node are the same behind every preamble, and those of a list are the statements of
its nodes, each generated alone.  Of the settings only the name of the index matters.
-/

namespace Template

namespace Node

theorem offendersOf_eq_nil_iff (nodes : List Node) :
    offendersOf nodes = [] ↔ ∀ node ∈ nodes, node.offenders = [] := by
  induction nodes with
  | nil => simp [offendersOf]
  | cons first rest inductionHypothesis =>
      rw [offendersOf, List.append_eq_nil_iff, inductionHypothesis, List.forall_mem_cons]

/-- The first offender of a list is the first one of the first node that has any. -/
theorem exists_first_offending {nodes : List Node} {offender : Offender}
    {others : List Offender} (offenders : offendersOf nodes = offender :: others) :
    ∃ before node after inside, nodes = before ++ node :: after ∧
      (∀ earlier ∈ before, earlier.offenders = []) ∧ node.offenders = offender :: inside := by
  induction nodes with
  | nil => exact absurd offenders (by simp [offendersOf])
  | cons first rest inductionHypothesis =>
      rw [offendersOf] at offenders
      cases own : first.offenders with
      | nil =>
          rw [own, List.nil_append] at offenders
          obtain ⟨before, node, after, inside, split, accepted, found⟩ :=
            inductionHypothesis offenders
          refine ⟨first :: before, node, after, inside, ?_, ?_, found⟩
          · rw [split, List.cons_append]
          · rw [List.forall_mem_cons]
            exact ⟨own, accepted⟩
      | cons found inside =>
          rw [own, List.cons_append] at offenders
          cases offenders
          exact ⟨[], first, rest, inside, rfl, by simp, own⟩

theorem translateTogether_eq_flatMap (indexName : String) (nodes : List Node) :
    translateTogether indexName nodes = nodes.flatMap (translate indexName) := by
  induction nodes with
  | nil => rfl
  | cons first rest inductionHypothesis =>
      rw [translateTogether, List.flatMap_cons, inductionHypothesis]

end Node

namespace Settings

theorem exists_generate_eq_ok_iff (settings : Settings) (root : Node) :
    (∃ generated, settings.generate root = .ok generated) ↔ root.offenders = [] := by
  simp only [generate_eq_ok_iff, exists_and_left, exists_eq, and_true]

/-- The statements of a node are the same behind every preamble, and so is the
rejection. -/
theorem map_fst_node (settings : Settings) (node : Node) (preamble : Preamble) :
    ((Generation.node settings.indexName node).run preamble).map Prod.fst =
      (settings.generate node).map Intermediate.program := by
  rw [Generation.node_eq_settled, generate_eq]
  cases node.offenders with
  | nil => rfl
  | cons first rest => rfl

theorem forall₂_generate_translate {settings : Settings} {nodes : List Node}
    (accepted : ∀ node ∈ nodes, node.offenders = []) :
    List.Forall₂ (fun node part => settings.generate node = .ok part) nodes
      (nodes.map settings.translate) := by
  rw [List.forall₂_map_right_iff, List.forall₂_same]
  intro node membership
  exact generate_eq_ok_iff.mpr ⟨accepted node membership, rfl⟩

/-- A list of nodes is generated as its nodes are, each alone and under any settings with
the same name of the index: it is accepted if all of them are, its program is then the
concatenation of theirs, and otherwise it is rejected as the first of them that is
rejected.  Behind every preamble, and so behind all earlier siblings, a node gives the
statements that it gives alone. -/
theorem generate_siblings (first second : Settings)
    (sameIndex : first.indexName = second.indexName) (nodes : List Node)
    (location : Location) :
    ((∃ generated, first.generate (.block ⟨nodes, location⟩) = .ok generated) ↔
      ∀ node ∈ nodes, ∃ part, second.generate node = .ok part) ∧
    (∀ generated, first.generate (.block ⟨nodes, location⟩) = .ok generated →
      ∃ parts, List.Forall₂ (fun node part => second.generate node = .ok part) nodes parts ∧
        generated.program = parts.flatMap Intermediate.program) ∧
    (∀ rejection, first.generate (.block ⟨nodes, location⟩) = .error rejection →
      ∃ before node after, nodes = before ++ node :: after ∧
        (∀ earlier ∈ before, ∃ part, second.generate earlier = .ok part) ∧
        second.generate node = .error rejection) ∧
    ∀ node preamble,
      ((Generation.node first.indexName node).run preamble).map Prod.fst =
        (second.generate node).map Intermediate.program := by
  have offenders : (Node.block ⟨nodes, location⟩).offenders = Node.offendersOf nodes := by
    rw [Node.offenders, Block.offenders]
  refine ⟨?_, ?_, ?_, ?_⟩
  · simp only [exists_generate_eq_ok_iff, offenders, Node.offendersOf_eq_nil_iff]
  · intro generated success
    obtain ⟨accepted, rfl⟩ := generate_eq_ok_iff.mp success
    rw [offenders, Node.offendersOf_eq_nil_iff] at accepted
    refine ⟨nodes.map second.translate, forall₂_generate_translate accepted, ?_⟩
    rw [List.flatMap_map]
    change (Node.block ⟨nodes, location⟩).translate first.indexName = _
    rw [Node.translate, Block.translate, Node.translateTogether_eq_flatMap, sameIndex]
    rfl
  · intro rejection rejected
    obtain ⟨offender, others, found, rfl⟩ := generate_eq_error_iff.mp rejected
    rw [offenders] at found
    obtain ⟨before, node, after, inside, split, accepted, own⟩ :=
      Node.exists_first_offending found
    refine ⟨before, node, after, split, ?_, ?_⟩
    · intro earlier membership
      exact (exists_generate_eq_ok_iff second earlier).mpr (accepted earlier membership)
    · exact generate_eq_error_iff.mpr ⟨offender, inside, own, rfl⟩
  · intro node preamble
    rw [sameIndex]
    exact map_fst_node second node preamble

end Settings

/-- An iteration between two tags, all of which need the class helper. -/
def Node.sharedHelper : List Node :=
  let item : Node := .tag ⟨"p", [⟨"class", .source "x", true⟩], [], none, ⟨[], {}⟩, {}⟩
  [item, .each ⟨"xs", "x", none, ⟨[item], {}⟩, none, {}⟩, item]

theorem Settings.generate_siblings_sharedHelper :
    ∃ generated parts,
      ({} : Settings).generate (.block ⟨Node.sharedHelper, {}⟩) = .ok generated ∧
      List.Forall₂
        (fun node part => ({ mode := .inline, module := "m" } : Settings).generate node = .ok part)
        Node.sharedHelper parts ∧
      generated.program = parts.flatMap Intermediate.program ∧
      generated.program.uses = [.join, .iterate, .join, .join] := by
  have siblings := Settings.generate_siblings {} { mode := .inline, module := "m" } rfl
    Node.sharedHelper {}
  have success : ({} : Settings).generate (.block ⟨Node.sharedHelper, {}⟩) =
      .ok (({} : Settings).translate (.block ⟨Node.sharedHelper, {}⟩)) :=
    Settings.generate_eq_ok_iff.mpr ⟨by decide, rfl⟩
  obtain ⟨parts, generated, program⟩ := siblings.2.1 _ success
  exact ⟨_, parts, success, generated, program, by decide +kernel⟩

end Template
