import Template.Attribute.Render
import Template.Proofs.Fragment.Leading

/-!
# Printed expressions

Concatenations and attributes are printed around fragments that are kept as they are.
If these fragments are closed, the printed expression leaves the open brackets alone,
whatever the literals, the class names and the keys in it say: they are quoted.
-/

namespace Template

open Fragment (Closed Leads separates Frame)

variable {next : Option Char}

/-! ## Concatenations -/

def Term.fragments : Term → List String
  | .literal _ => []
  | .expr source => [source]

/-- The fragments that a concatenation keeps as they are. -/
def Concatenation.fragments (concatenation : Concatenation) : List String :=
  concatenation.terms.flatMap Term.fragments

theorem Term.leads_render {term : Term} (closed : ∀ source ∈ term.fragments, Closed source)
    (next : Option Char) (stack : List Frame) : Leads next term.render stack stack := by
  cases term with
  | literal text => exact Leads.quote text next stack
  | expr source =>
      have sourceClosed : Closed source := closed source (List.mem_singleton_self source)
      exact Leads.append (Leads.append rfl (Leads.fragment sourceClosed rfl _)) rfl

/-- The terms of a concatenation with plus signs between them, as they are printed
unless there is at most one. -/
theorem Term.leads_sum {sources : List String} {terms : List Term}
    (closed : ∀ term ∈ terms, ∀ source ∈ term.fragments, Closed source)
    (printed : ∀ source ∈ sources, source = Text.quote "" ∨ source ∈ terms.map Term.render)
    (nextSeparates : separates next = true) (stack : List Frame) :
    Leads next (" + ".intercalate sources) stack stack := by
  refine Leads.intercalate (fun _ => rfl) (fun _ => rfl) ?_ nextSeparates
  intro source membership next _
  rcases printed source membership with rfl | rendered
  · exact Leads.quote "" next stack
  · obtain ⟨term, termMembership, rfl⟩ := List.mem_map.mp rendered
    exact Term.leads_render (closed term termMembership) next stack

theorem Concatenation.leads_render {concatenation : Concatenation}
    (closed : ∀ source ∈ concatenation.fragments, Closed source)
    (nextSeparates : separates next = true) (stack : List Frame) :
    Leads next concatenation.render stack stack := by
  have termsClosed : ∀ term ∈ concatenation.terms, ∀ source ∈ term.fragments, Closed source :=
    fun term termMembership source membership =>
      closed source (List.mem_flatMap.mpr ⟨term, termMembership, membership⟩)
  unfold Concatenation.render
  split
  · exact Leads.quote "" next stack
  · exact Leads.quote _ next stack
  · rename_i source termsEq _
    rw [termsEq] at termsClosed
    have sourceClosed : Closed source :=
      termsClosed (.expr source) (List.mem_singleton_self _) source (List.mem_singleton_self _)
    exact Leads.fragment sourceClosed nextSeparates stack
  · rename_i first rest _ termsEq _
    rw [termsEq] at termsClosed
    refine Term.leads_sum termsClosed ?_ nextSeparates stack
    intro source membership
    split at membership
    · exact List.mem_cons.mp membership
    · exact Or.inr membership

/-! ## Attributes -/

def ClassTerm.fragments : ClassTerm → List String
  | .static _ => []
  | .dynamic source => [source]

def PropertyValue.fragments : PropertyValue → List String
  | .source code => [code]
  | .classes terms => terms.flatMap ClassTerm.fragments

def ObjectLiteral.fragments (object : ObjectLiteral) : List String :=
  object.props.flatMap fun property => property.2.fragments

def MergeArgument.fragments : MergeArgument → List String
  | .object literal => literal.fragments
  | .source code => [code]

/-- The fragments that attributes keep as they are. -/
def Attributes.fragments : Attributes → List String
  | .object literal => literal.fragments
  | .merge arguments => arguments.flatMap MergeArgument.fragments

def Attributes.fragmentsOfOption : Option Attributes → List String
  | none => []
  | some attributes => attributes.fragments

theorem ClassTerm.leads_render {term : ClassTerm}
    (closed : ∀ source ∈ term.fragments, Closed source) (next : Option Char)
    (stack : List Frame) : Leads next term.render stack stack := by
  cases term with
  | static name => exact Leads.quote name next stack
  | dynamic source =>
      have sourceClosed : Closed source := closed source (List.mem_singleton_self source)
      exact Leads.append (Leads.append rfl (Leads.fragment sourceClosed rfl _)) rfl

theorem PropertyValue.leads_render {value : PropertyValue}
    (closed : ∀ source ∈ value.fragments, Closed source) (nextSeparates : separates next = true)
    (stack : List Frame) : Leads next value.render stack stack := by
  cases value with
  | source source =>
      exact Leads.fragment (closed source (List.mem_singleton_self source)) nextSeparates stack
  | classes terms =>
      refine Leads.intercalate (fun _ => rfl) (fun _ => rfl) ?_ nextSeparates
      intro item membership next _
      obtain ⟨term, termMembership, rfl⟩ := List.mem_map.mp membership
      refine ClassTerm.leads_render ?_ next stack
      intro source sourceMembership
      exact closed source (List.mem_flatMap.mpr ⟨term, termMembership, sourceMembership⟩)

theorem leads_renderProperty {value : PropertyValue}
    (closed : ∀ source ∈ value.fragments, Closed source) (key : String)
    (nextSeparates : separates next = true) (stack : List Frame) :
    Leads next (renderProperty key value) stack stack :=
  Leads.append (Leads.append (Leads.quote key _ stack) rfl)
    (PropertyValue.leads_render closed nextSeparates stack)

theorem ObjectLiteral.leads_props {object : ObjectLiteral}
    (closed : ∀ source ∈ object.fragments, Closed source) (nextSeparates : separates next = true)
    (stack : List Frame) :
    Leads next (", ".intercalate
      (object.props.map fun property => renderProperty property.1 property.2)) stack stack := by
  refine Leads.intercalate (fun _ => rfl) (fun _ => rfl) ?_ nextSeparates
  intro item membership next nextSeparates
  obtain ⟨⟨key, value⟩, propertyMembership, rfl⟩ := List.mem_map.mp membership
  refine leads_renderProperty ?_ key nextSeparates _
  intro source sourceMembership
  exact closed source (List.mem_flatMap.mpr ⟨(key, value), propertyMembership, sourceMembership⟩)

theorem ObjectLiteral.leads_render {object : ObjectLiteral}
    (closed : ∀ source ∈ object.fragments, Closed source) (next : Option Char)
    (stack : List Frame) : Leads next object.render stack stack :=
  Leads.append (Leads.append rfl (ObjectLiteral.leads_props closed rfl (.bracket '}' :: stack))) rfl

theorem MergeArgument.leads_render {argument : MergeArgument}
    (closed : ∀ source ∈ argument.fragments, Closed source)
    (nextSeparates : separates next = true) (stack : List Frame) :
    Leads next argument.render stack stack := by
  cases argument with
  | object object => exact ObjectLiteral.leads_render closed next stack
  | source source =>
      exact Leads.fragment (closed source (List.mem_singleton_self source)) nextSeparates stack

theorem Attributes.leads_render {attributes : Attributes}
    (closed : ∀ source ∈ attributes.fragments, Closed source) (next : Option Char)
    (stack : List Frame) : Leads next attributes.render stack stack := by
  cases attributes with
  | object object => exact ObjectLiteral.leads_render closed next stack
  | merge arguments =>
      have items : Leads (some ')') (", ".intercalate (arguments.map MergeArgument.render))
          (.bracket ')' :: stack) (.bracket ')' :: stack) := by
        refine Leads.intercalate (fun _ => rfl) (fun _ => rfl) ?_ rfl
        intro item membership next nextSeparates
        obtain ⟨argument, argumentMembership, rfl⟩ := List.mem_map.mp membership
        refine MergeArgument.leads_render ?_ nextSeparates _
        intro source sourceMembership
        exact closed source
          (List.mem_flatMap.mpr ⟨argument, argumentMembership, sourceMembership⟩)
      exact Leads.append (Leads.append rfl items) rfl

theorem leads_renderAttributes {attributes : Option Attributes}
    (closed : ∀ source ∈ Attributes.fragmentsOfOption attributes, Closed source)
    (next : Option Char) (stack : List Frame) :
    Leads next (renderAttributes attributes) stack stack := by
  cases attributes with
  | none => rfl
  | some attributes => exact Attributes.leads_render closed next stack

end Template
