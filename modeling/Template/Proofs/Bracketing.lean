import Template.Proofs.Comments
import Template.Proofs.Expressions
import Template.Proofs.Statements

/-!
# Brackets in printed programs

A printed program stays inside the brackets it is put into: if the fragments of the
program are closed and its comments end where they should, every bracket that the
program opens is closed by the program, and it closes no other one.  Tags, keys,
literals and class names may be any text.

Lines are followed one by one.  A statement takes several lines, of which the first
opens brackets and the last closes them, so what is said of a list of lines is from
which open brackets it leads to which.
-/

namespace Template

open Fragment (Closed Commentable Frame Leads)

/-! ## Sound programs -/

def Else.tests : Else → List String
  | .none | .block _ => []
  | .branch test _ alternate => test :: alternate.tests

/-- The fragments that a statement keeps as they are, apart from the statements in it. -/
def Stmt.fragments : Stmt → List String
  | .sentinel (.text content) => content.fragments
  | .sentinel (.unescape source) => [source]
  | .sentinel (.element _ attributes _) => Attributes.fragmentsOfOption attributes
  | .code source => [source]
  | .branch test _ alternate => test :: alternate.tests
  | .loop test _ => [test]
  | .each helper object value key _ _ => [helper, object, value, key]
  | .scope _ | .lineComment _ | .blockComment _ _ | .mixinBlock => []

/-- Nothing ends a comment early.  Other statements may say anything. -/
def Stmt.CommentEnds (indent : String) : Stmt → Prop
  | .lineComment text => '\n' ∉ text.toList
  | .blockComment text body => Commentable text ∧ Commentable (Program.render indent body)
  | _ => True

/-- A statement whose own fragments are closed and which is no comment that ends early. -/
def Stmt.Sound (indent : String) (stmt : Stmt) : Prop :=
  (∀ source ∈ stmt.fragments, Closed source) ∧ stmt.CommentEnds indent

def Stmt.AllSound (indent : String) (stmts : List Stmt) : Prop :=
  ∀ stmt ∈ stmts, stmt.Sound indent

/-- A program all of whose statements are sound. -/
def Program.Sound (indent : String) (program : Program) : Prop :=
  Stmt.AllSound indent program.statements

instance (indent : String) (stmt : Stmt) : Decidable (stmt.CommentEnds indent) :=
  match stmt with
  | .lineComment _ => inferInstanceAs (Decidable (_ ∉ _))
  | .blockComment _ _ => inferInstanceAs (Decidable (_ ∧ _))
  | .sentinel _ | .code _ | .scope _ | .branch _ _ _ | .loop _ _ | .each _ _ _ _ _ _
  | .mixinBlock => inferInstanceAs (Decidable True)

instance (indent : String) (stmt : Stmt) : Decidable (stmt.Sound indent) :=
  inferInstanceAs (Decidable (_ ∧ _))

instance (indent : String) (program : Program) : Decidable (program.Sound indent) :=
  inferInstanceAs (Decidable (∀ stmt ∈ program.statements, stmt.Sound indent))

namespace Stmt.AllSound

variable {indent : String} {stmt : Stmt} {first second rest : List Stmt}

theorem head (sound : Stmt.AllSound indent (stmt :: rest)) : stmt.Sound indent :=
  sound stmt List.mem_cons_self

theorem tail (sound : Stmt.AllSound indent (stmt :: rest)) : Stmt.AllSound indent rest :=
  (List.forall_mem_cons.mp sound).2

theorem left (sound : Stmt.AllSound indent (first ++ second)) : Stmt.AllSound indent first :=
  (List.forall_mem_append.mp sound).1

theorem right (sound : Stmt.AllSound indent (first ++ second)) : Stmt.AllSound indent second :=
  (List.forall_mem_append.mp sound).2

end Stmt.AllSound

/-! ## Lines -/

/-- Lines that lead from open brackets to open brackets, whatever follows them. -/
def Line.Lead (indent : String) (lines : List Line) (before after : List Frame) : Prop :=
  ∀ next, Leads next (String.join (lines.map (Line.render indent))) before after

namespace Line.Lead

variable {indent : String} {lines first second : List Line}
variable {before middle after : List Frame}

theorem nil (indent : String) (stack : List Frame) : Line.Lead indent [] stack stack :=
  fun next => Leads.empty next stack

theorem append (head : Line.Lead indent first before middle)
    (tail : Line.Lead indent second middle after) :
    Line.Lead indent (first ++ second) before after := by
  intro next
  rw [List.map_append, String.join_append]
  exact (head _).append (tail next)

variable (blank : Text.Blank indent)

include blank

theorem indentation (depth : Nat) (next : Option Char) (stack : List Frame) :
    Leads next (String.join (List.replicate depth indent)) stack stack := by
  refine Leads.plain ?_ next stack
  intro char membership
  exact Fragment.not_mem_specials_of_isBlank (Line.blank_indentation blank depth char membership)

theorem cons {text : String} (depth : Nat) (head : Leads (some '\n') text before middle)
    (tail : Line.Lead indent lines middle after) :
    Line.Lead indent (⟨depth, text⟩ :: lines) before after := by
  intro next
  rw [List.map_cons, String.join_cons]
  refine Leads.append ?_ (tail next)
  exact Leads.append (Leads.append (indentation blank depth _ before) head) rfl

theorem single {text : String} (depth : Nat) (head : Leads (some '\n') text before after) :
    Line.Lead indent [⟨depth, text⟩] before after :=
  cons blank depth head (nil indent after)

/-- A line that opens brackets and one that closes them, with lines between them. -/
theorem around {opening closing : String} {inner last : List Frame} (depth : Nat)
    (opens : Leads (some '\n') opening before inner) (body : Line.Lead indent lines inner last)
    (closes : Leads (some '\n') closing last after) :
    Line.Lead indent (⟨depth, opening⟩ :: lines ++ [⟨depth, closing⟩]) before after :=
  (cons blank depth opens body).append (single blank depth closes)

theorem all {stack : List Frame} (texts : ∀ line ∈ lines, Leads (some '\n') line.text stack stack) :
    Line.Lead indent lines stack stack := by
  induction lines with
  | nil => exact nil indent stack
  | cons line rest inductionHypothesis =>
      rw [List.forall_mem_cons] at texts
      exact cons blank line.depth texts.1 (inductionHypothesis texts.2)

theorem lineComment {text : String} (depth : Nat) (oneLine : '\n' ∉ text.toList)
    (stack : List Frame) : Line.Lead indent [⟨depth, "//" ++ text⟩] stack stack := by
  intro next
  have printed : String.join ([(⟨depth, "//" ++ text⟩ : Line)].map (Line.render indent)) =
      String.join (List.replicate depth indent) ++ ("//" ++ text ++ "\n") := by
    simp [Line.render, String.append_assoc]
  rw [printed]
  exact (indentation blank depth _ stack).append (Leads.lineComment oneLine next stack)

/-- A comment around lines is one token. -/
theorem blockComment {text : String} (depth : Nat) (textInside : Commentable text)
    (linesInside : Commentable (String.join (lines.map (Line.render indent))))
    (stack : List Frame) :
    Line.Lead indent (⟨depth, "/*" ++ text⟩ :: lines ++ [⟨depth, "*/"⟩]) stack stack := by
  intro next
  have printed : String.join
      (((⟨depth, "/*" ++ text⟩ : Line) :: lines ++ [(⟨depth, "*/"⟩ : Line)]).map
        (Line.render indent)) =
      String.join (List.replicate depth indent) ++
        ("/*" ++ (text ++ ("\n" ++ (String.join (lines.map (Line.render indent)) ++
          String.join (List.replicate depth indent)))) ++ "*/") ++ "\n" := by
    simp [Line.render, String.append_assoc]
  rw [printed]
  have indentationBlank := Line.blank_indentation blank depth
  have noSlash : (String.join (List.replicate depth indent)).toList.head? ≠ some '/' := by
    intro slash
    have slashBlank : Text.isBlank '/' = true := indentationBlank '/' (List.mem_of_head? slash)
    exact absurd slashBlank (by decide)
  have inside : Commentable (text ++ ("\n" ++ (String.join (lines.map (Line.render indent)) ++
      String.join (List.replicate depth indent)))) := by
    rw [Fragment.commentable_append_iff (Or.inr (by simp)),
      Fragment.commentable_append_iff (Or.inl (by decide)),
      Fragment.commentable_append_iff (Or.inr noSlash)]
    exact ⟨textInside, Fragment.commentable_lineBreak, linesInside,
      Fragment.commentable_of_blank indentationBlank⟩
  exact Leads.append ((indentation blank depth _ stack).append
    (Leads.blockComment inside _ stack)) rfl

end Line.Lead

/-! ## Statements -/

namespace Stmt

variable {indent : String}

theorem leads_bodyName (index : Nat) (next : Option Char) (stack : List Frame) :
    Leads next (bodyName index) stack stack := by
  refine Leads.append rfl (Leads.plain ?_ next stack)
  intro char membership
  rw [String.toList_ofList] at membership
  exact Fragment.not_mem_specials_of_isDigit
    (Nat.isDigit_of_mem_toDigits (by decide) (by decide) membership)

/-- The lines of a loop that call its closures. -/
theorem lead_bodyCalls (blank : Text.Blank indent) (count depth : Nat) (stack : List Frame) :
    Line.Lead indent ((List.range count).map fun index =>
      (⟨depth, "__return.push(" ++ bodyName index ++ ".call(this));"⟩ : Line)) stack stack := by
  refine Line.Lead.all blank ?_
  intro line membership
  obtain ⟨index, -, rfl⟩ := List.mem_map.mp membership
  exact Leads.append (Leads.append rfl (leads_bodyName index _ _)) rfl

/-- The first line of an iteration opens the call and the body of its function. -/
theorem leads_iteration {helper object value key : String}
    (closed : ∀ source ∈ [helper, object, value, key], Closed source) (next : Option Char)
    (stack : List Frame) :
    Leads next (helper ++ "(" ++ object ++ ", (" ++ value ++ ", " ++ key ++ ") => \x7b") stack
      (.bracket '}' :: .bracket ')' :: stack) := by
  simp only [List.forall_mem_cons, List.not_mem_nil, false_implies, implies_true,
    and_true] at closed
  obtain ⟨helperClosed, objectClosed, valueClosed, keyClosed⟩ := closed
  have upToObject : Leads (some ',') (helper ++ "(" ++ object) stack (.bracket ')' :: stack) :=
    Leads.append (Leads.append (Leads.fragment helperClosed rfl _) rfl)
      (Leads.fragment objectClosed rfl _)
  have upToValue : Leads (some ',') (helper ++ "(" ++ object ++ ", (" ++ value) stack
      (.bracket ')' :: .bracket ')' :: stack) :=
    Leads.append (Leads.append upToObject rfl) (Leads.fragment valueClosed rfl _)
  have upToKey : Leads (some ')') (helper ++ "(" ++ object ++ ", (" ++ value ++ ", " ++ key)
      stack (.bracket ')' :: .bracket ')' :: stack) :=
    Leads.append (Leads.append upToValue rfl) (Leads.fragment keyClosed rfl _)
  exact Leads.append upToKey rfl

mutual

/-- The lines of a sound statement leave the open brackets alone. -/
theorem lead_lines (blank : Text.Blank indent) (stmt : Stmt)
    (sound : Stmt.AllSound indent stmt.statements) (depth : Nat) (stack : List Frame) :
    Line.Lead indent (lines depth stmt) stack stack := by
  cases stmt with
  | sentinel found => exact lead_sentinelLines blank found sound depth stack
  | code source =>
      have sourceClosed : Closed source := sound.head.1 source (List.mem_singleton_self source)
      exact Line.Lead.single blank depth (Leads.fragment sourceClosed rfl stack)
  | scope body =>
      have bodyLeads := lead_linesOf blank body sound.tail (depth + 1) (.bracket '}' :: stack)
      exact Line.Lead.around blank depth rfl bodyLeads rfl
  | branch test consequent alternate =>
      have closed : ∀ source ∈ test :: alternate.tests, Closed source := sound.head.1
      rw [List.forall_mem_cons] at closed
      have testLeads : Leads (some '\n') ("if (" ++ test ++ ") \x7b") stack
          (.bracket '}' :: stack) :=
        Leads.append (Leads.append rfl (Leads.fragment closed.1 rfl _)) rfl
      have consequentLeads :=
        lead_linesOf blank consequent sound.tail.left (depth + 1) (.bracket '}' :: stack)
      exact (Line.Lead.cons blank depth testLeads consequentLeads).append
        (lead_elseLines blank alternate closed.2 sound.tail.right depth stack)
  | loop test bodies =>
      have testClosed : Closed test := sound.head.1 test (List.mem_singleton_self test)
      have testLeads : Leads (some '\n') ("while (" ++ test ++ ") \x7b")
          (.bracket '}' :: .bracket ')' :: stack)
          (.bracket '}' :: .bracket '}' :: .bracket ')' :: stack) :=
        Leads.append (Leads.append rfl (Leads.fragment testClosed rfl _)) rfl
      have closures := lead_closureLines blank bodies sound.tail (depth + 1) 0
        (.bracket '}' :: .bracket ')' :: stack)
      have calls := lead_bodyCalls blank bodies.length (depth + 2)
        (.bracket '}' :: .bracket '}' :: .bracket ')' :: stack)
      have opening : Line.Lead indent (⟨depth, "(function () \x7b"⟩ ::
          ⟨depth + 1, "var __return = [];"⟩ :: closureLines (depth + 1) 0 bodies) stack
          (.bracket '}' :: .bracket ')' :: stack) :=
        Line.Lead.cons blank depth rfl (Line.Lead.cons blank (depth + 1) rfl closures)
      have closing : Line.Lead indent [⟨depth + 1, "\x7d"⟩, ⟨depth + 1, "return __return;"⟩,
          ⟨depth, "\x7d).call(this);"⟩] (.bracket '}' :: .bracket '}' :: .bracket ')' :: stack)
          stack :=
        Line.Lead.cons blank (depth + 1) rfl
          (Line.Lead.cons blank (depth + 1) rfl (Line.Lead.single blank depth rfl))
      exact (opening.append (Line.Lead.cons blank (depth + 1) testLeads calls)).append closing
  | each helper object value key body alternate =>
      have callLeads := leads_iteration sound.head.1 (some '\n') stack
      have bodyLeads := lead_linesOf blank body sound.tail.left (depth + 1)
        (.bracket '}' :: .bracket ')' :: stack)
      exact (Line.Lead.cons blank depth callLeads bodyLeads).append
        (lead_alternateLines blank alternate sound.tail.right depth stack)
  | lineComment text =>
      have oneLine : '\n' ∉ text.toList := sound.head.2
      exact Line.Lead.lineComment blank depth oneLine stack
  | blockComment text body =>
      have inside : Commentable text ∧ Commentable (Program.render indent body) := sound.head.2
      have bodyInside := (commentable_linesOf_iff blank (depth + 1) body).mpr inside.2
      exact Line.Lead.blockComment blank depth inside.1 bodyInside stack
  | mixinBlock => exact Line.Lead.single blank depth rfl

theorem lead_sentinelLines (blank : Text.Blank indent) (found : Sentinel)
    (sound : Stmt.AllSound indent (.sentinel found :: found.statements)) (depth : Nat)
    (stack : List Frame) : Line.Lead indent (sentinelLines depth found) stack stack := by
  cases found with
  | text content =>
      have contentLeads : Leads (some ')') content.render (.bracket ')' :: stack)
          (.bracket ')' :: stack) := Concatenation.leads_render sound.head.1 rfl _
      exact Line.Lead.single blank depth (Leads.append (Leads.append rfl contentLeads) rfl)
  | unescape source =>
      have sourceClosed : Closed source := sound.head.1 source (List.mem_singleton_self source)
      exact Line.Lead.single blank depth
        (Leads.append (Leads.append rfl (Leads.fragment sourceClosed rfl _)) rfl)
  | element tag attributes children =>
      have callLeads : Leads (some '\n')
          ("ELEMENT(" ++ Text.quote tag ++ ", " ++ renderAttributes attributes ++ ");")
          stack stack :=
        Leads.append (Leads.append (Leads.append (Leads.append rfl (Leads.quote tag _ _)) rfl)
          (leads_renderAttributes sound.head.1 _ _)) rfl
      have childrenLead :=
        lead_linesOf blank children sound.tail (depth + 1) (.bracket '}' :: stack)
      exact Line.Lead.cons blank depth callLeads
        (Line.Lead.around blank depth rfl childrenLead rfl)

theorem lead_elseLines (blank : Text.Blank indent) (alternate : Else)
    (tests : ∀ test ∈ alternate.tests, Closed test)
    (sound : Stmt.AllSound indent alternate.statements) (depth : Nat) (stack : List Frame) :
    Line.Lead indent (elseLines depth alternate) (.bracket '}' :: stack) stack := by
  cases alternate with
  | none => exact Line.Lead.single blank depth rfl
  | branch test consequent alternate =>
      rw [Else.tests, List.forall_mem_cons] at tests
      have testLeads : Leads (some '\n') ("\x7d else if (" ++ test ++ ") \x7b")
          (.bracket '}' :: stack) (.bracket '}' :: stack) :=
        Leads.append (Leads.append rfl (Leads.fragment tests.1 rfl _)) rfl
      have consequentLeads :=
        lead_linesOf blank consequent sound.left (depth + 1) (.bracket '}' :: stack)
      exact (Line.Lead.cons blank depth testLeads consequentLeads).append
        (lead_elseLines blank alternate tests.2 sound.right depth stack)
  | block body =>
      have bodyLeads := lead_linesOf blank body sound (depth + 1) (.bracket '}' :: stack)
      exact Line.Lead.around blank depth rfl bodyLeads rfl

theorem lead_alternateLines (blank : Text.Blank indent) (alternate : Option (List Stmt))
    (sound : Stmt.AllSound indent (Stmt.statementsOfOption alternate)) (depth : Nat)
    (stack : List Frame) :
    Line.Lead indent (alternateLines depth alternate)
      (.bracket '}' :: .bracket ')' :: stack) stack := by
  cases alternate with
  | none => exact Line.Lead.single blank depth rfl
  | some body =>
      have bodyLeads := lead_linesOf blank body sound (depth + 1)
        (.bracket '}' :: .bracket ')' :: stack)
      exact Line.Lead.around blank depth rfl bodyLeads rfl

theorem lead_closureLines (blank : Text.Blank indent) (bodies : List (List Stmt))
    (sound : Stmt.AllSound indent (Stmt.statementsOfAll bodies)) (depth index : Nat)
    (stack : List Frame) : Line.Lead indent (closureLines depth index bodies) stack stack := by
  cases bodies with
  | nil => exact Line.Lead.nil indent stack
  | cons body rest =>
      have nameLeads : Leads (some '\n') ("var " ++ bodyName index ++ " = function () \x7b")
          stack (.bracket '}' :: stack) :=
        Leads.append (Leads.append rfl (leads_bodyName index _ _)) rfl
      have bodyLeads := lead_linesOf blank body sound.left (depth + 1) (.bracket '}' :: stack)
      exact (Line.Lead.cons blank depth nameLeads bodyLeads).append
        (Line.Lead.cons blank depth rfl
          (lead_closureLines blank rest sound.right depth (index + 1) stack))

theorem lead_linesOf (blank : Text.Blank indent) (stmts : List Stmt)
    (sound : Stmt.AllSound indent (Stmt.statementsOf stmts)) (depth : Nat)
    (stack : List Frame) : Line.Lead indent (linesOf depth stmts) stack stack := by
  cases stmts with
  | nil => exact Line.Lead.nil indent stack
  | cons stmt rest =>
      exact (lead_lines blank stmt sound.left depth stack).append
        (lead_linesOf blank rest sound.right depth stack)

end

end Stmt

namespace Program

/-- A sound program that is printed with white space for indentation stays inside the
braces around it. -/
theorem matchingClose?_render (indent : String)
    (blank : Text.Blank indent) (program : Program)
    (sound : program.Sound indent) :
    Fragment.matchingClose? ("\x7b" ++ program.render indent ++ "\x7d") =
      some (1 + Text.byteSize (program.render indent).toList) := by
  have balanced : Fragment.Balanced (program.render indent).toList :=
    Stmt.lead_linesOf blank program sound 0 [] none
  have braces : Fragment.closer? '{' = some '}' := rfl
  exact balanced.matchingClose?_eq braces

/-- Brackets in quotes and in comments, and statements that open brackets of their own. -/
def hiddenBrackets : Program :=
  [.sentinel (.element "a\"\x7d"
      (some (.object ⟨[(")", .classes [.static "(", .dynamic "c[0]"])]⟩))
      [.sentinel (.text ⟨[.literal "\x7b", .expr "f(x)"], true⟩), .lineComment " (["]),
    .branch "x" [.code "y();"] (.branch "z" [] (.block [.mixinBlock])),
    .loop "i--" [[.sentinel (.unescape "')'")]],
    .each "map" "xs" "v" "k" [] (some [.scope []]),
    .blockComment " \x7d" [.code "w"]]

theorem matchingClose?_render_hiddenBrackets :
    hiddenBrackets.Sound "  " ∧
      Fragment.matchingClose? ("\x7b" ++ hiddenBrackets.render "  " ++ "\x7d") =
        some (1 + Text.byteSize (hiddenBrackets.render "  ").toList) := by
  have blank : Text.Blank "  " := List.all_eq_true.mp (by decide)
  have sound : hiddenBrackets.Sound "  " := by decide +kernel
  exact ⟨sound, matchingClose?_render "  " blank hiddenBrackets sound⟩

end Program

end Template
