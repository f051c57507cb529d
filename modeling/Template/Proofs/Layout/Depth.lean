import Template.Layout

/-!
# The depth of printed statements

The statements of a block are printed one level deeper than the lines around the block.
The depth is put in front of their lines and has no other effect: the lines of statements at
a depth are those of the same statements at no depth, all moved by the same number of levels
(`linesOf_add`).  So the lines that a statement adds by itself can be told from those of the
blocks in it, which are deeper.
-/

namespace Template

/-! ## Lines -/

namespace Line

variable {indent : String}

/-- The indentation in front of a line at a depth. -/
def margin (indent : String) (depth : Nat) : String :=
  String.join (List.replicate depth indent)

theorem margin_add (indent : String) (levels depth : Nat) :
    margin indent (levels + depth) = margin indent levels ++ margin indent depth := by
  rw [margin, ← List.replicate_append_replicate, String.join_append, margin, margin]

theorem render_eq (depth : Nat) (text : String) :
    render indent ⟨depth, text⟩ = margin indent depth ++ text ++ "\n" := rfl

/-- A line that is moved some levels deeper. -/
def deepen (levels : Nat) (line : Line) : Line :=
  { line with depth := levels + line.depth }

/-- The text of lines one below the other. -/
def join (indent : String) (lines : List Line) : String :=
  String.join (lines.map (render indent))

@[simp] theorem join_nil : join indent [] = "" := rfl

@[simp] theorem join_cons (line : Line) (rest : List Line) :
    join indent (line :: rest) = line.render indent ++ join indent rest := by
  rw [join, List.map_cons, String.join_cons, join]

@[simp] theorem join_append (first second : List Line) :
    join indent (first ++ second) = join indent first ++ join indent second := by
  rw [join, List.map_append, String.join_append, join, join]

theorem join_flatMap {α : Type} (items : List α) (lines : α → List Line) :
    join indent (items.flatMap lines) =
      String.join (items.map fun item => join indent (lines item)) := by
  induction items with
  | nil => rfl
  | cons item rest inductionHypothesis =>
      rw [List.flatMap_cons, join_append, inductionHypothesis, List.map_cons, String.join_cons]

/-- The text of lines that stand side by side among others is a part of the text of all. -/
theorem exists_join_of_infix (indent : String) {inner outer : List Line}
    (inside : inner <:+: outer) :
    ∃ before after, join indent outer = before ++ join indent inner ++ after := by
  obtain ⟨front, back, rfl⟩ := inside
  exact ⟨join indent front, join indent back, by rw [join_append, join_append]⟩

end Line

/-! ## Statements -/

namespace Stmt

open Line (deepen)

theorem linesOf_append (depth : Nat) (first second : List Stmt) :
    linesOf depth (first ++ second) = linesOf depth first ++ linesOf depth second := by
  induction first with
  | nil => rfl
  | cons stmt rest inductionHypothesis =>
      rw [List.cons_append, linesOf, inductionHypothesis, linesOf, List.append_assoc]

theorem linesOf_singleton (depth : Nat) (stmt : Stmt) :
    linesOf depth [stmt] = lines depth stmt := by
  rw [linesOf, linesOf, List.append_nil]

/-- Statements that stand side by side among others are printed side by side. -/
theorem infix_linesOf {part stmts : List Stmt} (depth : Nat) (inside : part <:+: stmts) :
    linesOf depth part <:+: linesOf depth stmts := by
  obtain ⟨front, back, rfl⟩ := inside
  rw [linesOf_append, linesOf_append]
  exact List.infix_append _ _ _

mutual

/-- The lines of a statement some levels deeper are its lines, moved by these levels. -/
theorem lines_add (levels depth : Nat) (stmt : Stmt) :
    lines (levels + depth) stmt = (lines depth stmt).map (deepen levels) := by
  cases stmt with
  | sentinel found => exact sentinelLines_add levels depth found
  | code | lineComment | mixinBlock => rfl
  | scope body | blockComment text body =>
      simp only [lines, List.map_cons, List.map_append, List.map_nil, deepen, Nat.add_assoc,
        linesOf_add levels (depth + 1) body]
  | branch test consequent alternate =>
      simp only [lines, List.map_cons, List.map_append, deepen, Nat.add_assoc,
        linesOf_add levels (depth + 1) consequent, elseLines_add levels depth alternate]
  | loop test bodies =>
      simp only [lines, List.map_cons, List.map_append, List.map_nil, List.map_map,
        Function.comp_def, deepen, Nat.add_assoc, closureLines_add levels (depth + 1) 0 bodies]
  | each helper object value key body alternate =>
      simp only [lines, List.map_cons, List.map_append, deepen, Nat.add_assoc,
        linesOf_add levels (depth + 1) body, alternateLines_add levels depth alternate]

theorem sentinelLines_add (levels depth : Nat) (found : Sentinel) :
    sentinelLines (levels + depth) found = (sentinelLines depth found).map (deepen levels) := by
  cases found with
  | text | unescape => rfl
  | element tag attributes children =>
      simp only [sentinelLines, List.map_cons, List.map_append, List.map_nil, deepen,
        Nat.add_assoc, linesOf_add levels (depth + 1) children]

theorem elseLines_add (levels depth : Nat) (alternate : Else) :
    elseLines (levels + depth) alternate = (elseLines depth alternate).map (deepen levels) := by
  cases alternate with
  | none => rfl
  | branch test consequent alternate =>
      simp only [elseLines, List.map_cons, List.map_append, deepen, Nat.add_assoc,
        linesOf_add levels (depth + 1) consequent, elseLines_add levels depth alternate]
  | block body =>
      simp only [elseLines, List.map_cons, List.map_append, List.map_nil, deepen,
        Nat.add_assoc, linesOf_add levels (depth + 1) body]

theorem alternateLines_add (levels depth : Nat) (alternate : Option (List Stmt)) :
    alternateLines (levels + depth) alternate =
      (alternateLines depth alternate).map (deepen levels) := by
  cases alternate with
  | none => rfl
  | some body =>
      simp only [alternateLines, List.map_cons, List.map_append, List.map_nil, deepen,
        Nat.add_assoc, linesOf_add levels (depth + 1) body]

theorem closureLines_add (levels depth index : Nat) (bodies : List (List Stmt)) :
    closureLines (levels + depth) index bodies =
      (closureLines depth index bodies).map (deepen levels) := by
  cases bodies with
  | nil => rfl
  | cons body rest =>
      simp only [closureLines, List.map_cons, List.map_append, deepen, Nat.add_assoc,
        linesOf_add levels (depth + 1) body, closureLines_add levels depth (index + 1) rest]

theorem linesOf_add (levels depth : Nat) (stmts : List Stmt) :
    linesOf (levels + depth) stmts = (linesOf depth stmts).map (deepen levels) := by
  cases stmts with
  | nil => rfl
  | cons stmt rest =>
      simp only [linesOf, List.map_append, lines_add levels depth stmt,
        linesOf_add levels depth rest]

end

/-- No line of a statement is further to the left than the statement. -/
theorem le_depth_of_mem_linesOf {depth : Nat} {stmts : List Stmt} {line : Line}
    (membership : line ∈ linesOf depth stmts) : depth ≤ line.depth := by
  rw [← Nat.add_zero depth, linesOf_add, List.mem_map] at membership
  obtain ⟨shallow, -, rfl⟩ := membership
  exact Nat.le_add_right depth shallow.depth

/-- The lines of a block are deeper than the lines around it. -/
theorem filter_linesOf_succ (depth : Nat) (body : List Stmt) :
    (linesOf (depth + 1) body).filter (·.depth == depth) = [] := by
  rw [List.filter_eq_nil_iff]
  intro line membership
  have deeper := le_depth_of_mem_linesOf membership
  rw [beq_iff_eq]
  omega

end Stmt

/-! ## Programs -/

namespace Program

variable {indent : String}

/-- The text of a program that is printed at a depth. -/
def renderAt (indent : String) (depth : Nat) (program : Program) : String :=
  Line.join indent (Stmt.linesOf depth program)

theorem renderAt_zero (program : Program) : program.renderAt indent 0 = program.render indent := rfl

end Program

end Template
