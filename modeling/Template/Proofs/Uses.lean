import Template.Attribute.Compile
import Template.Proofs.Statements

/-!
# Uses of helpers

Which helpers a program calls is read off the program, in the order of its text.
The preamble is collected elsewhere, while attributes are compiled and nodes are
visited.  This module says what the preamble has to agree with, and shows the
agreement for attributes: compiling them notes the uses of the attributes that
come out, in order, and nothing else, and what comes out does not depend on the
helpers noted before.
-/

namespace Template

/-- A dynamic term calls the class helper. -/
def ClassTerm.uses : ClassTerm → List Helper
  | .static _ => []
  | .dynamic _ => [.join]

def PropertyValue.uses : PropertyValue → List Helper
  | .source _ => []
  | .classes terms => terms.flatMap ClassTerm.uses

def ObjectLiteral.uses (object : ObjectLiteral) : List Helper :=
  object.props.flatMap fun property => property.2.uses

def MergeArgument.uses : MergeArgument → List Helper
  | .object literal => literal.uses
  | .source _ => []

/-- The helpers called by attributes.  A merge calls its own helper, which calls
the class helper when the program runs. -/
def Attributes.uses : Attributes → List Helper
  | .object literal => literal.uses
  | .merge arguments => arguments.flatMap MergeArgument.uses ++ [.merge, .join]

def Attributes.usesOfOption : Option Attributes → List Helper
  | none => []
  | some attributes => attributes.uses

/-- The helpers that a statement calls itself, apart from the statements in it. -/
def Stmt.ownUses : Stmt → List Helper
  | .sentinel (.element _ attributes _) => Attributes.usesOfOption attributes
  | .each .. => [.iterate]
  | _ => []

def Stmt.usesIn (stmts : List Stmt) : List Helper :=
  stmts.flatMap Stmt.ownUses

@[simp] theorem Stmt.usesIn_nil : Stmt.usesIn [] = [] := rfl

@[simp] theorem Stmt.usesIn_cons (stmt : Stmt) (rest : List Stmt) :
    Stmt.usesIn (stmt :: rest) = stmt.ownUses ++ Stmt.usesIn rest := rfl

@[simp] theorem Stmt.usesIn_append (first second : List Stmt) :
    Stmt.usesIn (first ++ second) = Stmt.usesIn first ++ Stmt.usesIn second :=
  List.flatMap_append

/-- The helpers that a program calls, in the order of its text. -/
def Program.uses (program : Program) : List Helper :=
  Stmt.usesIn program.statements

namespace Preamble

variable {α β : Type}

def needAll (preamble : Preamble) (helpers : List Helper) : Preamble :=
  helpers.foldl need preamble

@[simp] theorem needAll_nil (preamble : Preamble) : preamble.needAll [] = preamble := rfl

@[simp] theorem needAll_append (preamble : Preamble) (first second : List Helper) :
    preamble.needAll (first ++ second) = (preamble.needAll first).needAll second :=
  List.foldl_append

/-- The computation that gives a result and notes helpers, whatever was noted
before. -/
def noting (helpers : List Helper) (result : α) : StateM Preamble α :=
  fun preamble => (result, preamble.needAll helpers)

theorem noting_bind (helpers : List Helper) (result : α) (next : α → StateM Preamble β)
    (helpersAfter : List Helper) (final : β) (after : next result = noting helpersAfter final) :
    noting helpers result >>= next = noting (helpers ++ helpersAfter) final := by
  funext preamble
  change next result (preamble.needAll helpers) = _
  rw [after]
  simp only [noting, needAll_append]

theorem noting_bind_pure (helpers : List Helper) (result : α) (next : α → StateM Preamble β)
    (final : β) (after : next result = pure final) :
    noting helpers result >>= next = noting helpers final := by
  rw [noting_bind helpers result next [] final after, List.append_nil]

end Preamble

open Preamble

namespace ClassTerm

/-- An element of a class list notes the class helper exactly if its term is
dynamic. -/
theorem ofElement_eq_noting (source : String) :
    ∃ terms, ofElement source = noting (terms.flatMap uses) terms := by
  unfold ofElement
  cases Literal.read? source with
  | none => exact ⟨[.dynamic (Text.trim source)], rfl⟩
  | some literal =>
      by_cases blank : literal.isBlank = true
      · exact ⟨[], by simp only [blank, ↓reduceIte]; rfl⟩
      · simp only [blank, Bool.false_eq_true, ↓reduceIte]
        split
        · exact ⟨[], rfl⟩
        · exact ⟨[.static (Json.joinClasses [literal.value])], rfl⟩

theorem ofElements_eq_noting (sources : List String) :
    ∃ terms, ofElements sources = noting (terms.flatMap uses) terms := by
  induction sources with
  | nil => exact ⟨[], rfl⟩
  | cons source rest inductionHypothesis =>
      obtain ⟨first, firstEq⟩ := ofElement_eq_noting source
      obtain ⟨others, othersEq⟩ := inductionHypothesis
      refine ⟨first ++ others, ?_⟩
      rw [ofElements, firstEq, othersEq, List.flatMap_append]
      apply noting_bind
      exact noting_bind_pure _ _ _ _ rfl

theorem ofSource_eq_noting (source : String) :
    ∃ terms, ofSource source = noting (terms.flatMap uses) terms := by
  unfold ofSource
  cases Fragment.arrayElements? source with
  | none => exact ofElement_eq_noting source
  | some elements => exact ofElements_eq_noting elements

end ClassTerm

namespace Attributes

/-- Only the class terms of attributes call helpers; the properties beside them
are sources. -/
theorem entries_eq_noting (attributes : List Attribute) :
    ∃ props terms,
      entries attributes = noting (terms.flatMap ClassTerm.uses) (props, terms) ∧
        props.flatMap (fun property => property.2.uses) = [] := by
  induction attributes with
  | nil => exact ⟨[], [], rfl, rfl⟩
  | cons first rest inductionHypothesis =>
      obtain ⟨props, terms, restEq, propsUses⟩ := inductionHypothesis
      rw [entries, restEq]
      cases AttributeKey.ofName first.name with
      | classes =>
          obtain ⟨front, frontEq⟩ := ClassTerm.ofSource_eq_noting first.value.text
          refine ⟨props, front ++ terms, ?_, propsUses⟩
          simp only [frontEq, List.flatMap_append]
          apply noting_bind
          exact noting_bind_pure _ _ _ _ rfl
      | data key =>
          by_cases isNull : isNullSource first.value.text = true
          · refine ⟨props, terms, ?_, propsUses⟩
            simp only [isNull, ↓reduceIte]
            exact noting_bind_pure _ _ _ _ rfl
          · refine ⟨(key, .source first.value.text) :: props, terms, ?_, propsUses⟩
            simp only [isNull, Bool.false_eq_true, ↓reduceIte]
            exact noting_bind_pure _ _ _ _ rfl
      | plain key =>
          refine ⟨(key, .source first.value.text) :: props, terms, ?_, propsUses⟩
          exact noting_bind_pure _ _ _ _ rfl

theorem objectOf_eq_noting (attributes : List Attribute) :
    ∃ object, objectOf attributes = noting object.uses object := by
  obtain ⟨props, terms, entriesEq, propsUses⟩ := entries_eq_noting attributes
  rw [objectOf, entriesEq]
  cases terms with
  | nil =>
      refine ⟨{ props }, ?_⟩
      rw [ObjectLiteral.uses, propsUses]
      exact noting_bind_pure _ _ _ _ rfl
  | cons term terms =>
      refine ⟨{ props := props ++ [(classProperty, .classes (term :: terms))] }, ?_⟩
      have uses : ObjectLiteral.uses
          { props := props ++ [(classProperty, .classes (term :: terms))] } =
            (term :: terms).flatMap ClassTerm.uses := by
        rw [ObjectLiteral.uses, List.flatMap_append, propsUses]
        simp only [List.nil_append, List.flatMap_singleton, PropertyValue.uses]
      rw [uses]
      exact noting_bind_pure _ _ _ _ rfl

theorem leadingObject_eq_noting (attributes : List Attribute) :
    ∃ arguments, leadingObject attributes =
      noting (arguments.flatMap MergeArgument.uses) arguments := by
  unfold leadingObject
  split
  · exact ⟨[], rfl⟩
  · obtain ⟨object, objectEq⟩ := objectOf_eq_noting attributes
    refine ⟨[.object object], ?_⟩
    rw [objectEq, List.flatMap_singleton]
    exact noting_bind_pure _ _ _ _ rfl

theorem flatMap_uses_sources (blocks : List AttributeBlock) :
    (blocks.map fun block => MergeArgument.source (Text.trim block.text)).flatMap
      MergeArgument.uses = [] := by
  simp [List.flatMap_map, MergeArgument.uses]

theorem exists_compile_eq_noting (attributes : List Attribute) (blocks : List AttributeBlock) :
    ∃ compiled, compile attributes blocks = noting (usesOfOption compiled) compiled := by
  unfold compile
  split
  · split
    · exact ⟨none, rfl⟩
    · obtain ⟨object, objectEq⟩ := objectOf_eq_noting attributes
      refine ⟨some (.object object), ?_⟩
      rw [objectEq]
      exact noting_bind_pure _ _ _ _ rfl
  · obtain ⟨objects, objectsEq⟩ := leadingObject_eq_noting attributes
    let sources := blocks.map fun block => MergeArgument.source (Text.trim block.text)
    refine ⟨some (.merge (objects ++ sources)), ?_⟩
    have uses : usesOfOption (some (.merge (objects ++ sources))) =
        objects.flatMap MergeArgument.uses ++ [.merge, .join] := by
      simp only [usesOfOption, Attributes.uses, List.flatMap_append, sources,
        flatMap_uses_sources, List.append_nil]
    rw [objectsEq, uses]
    exact noting_bind _ _ _ [.merge, .join] _ rfl

/-- The attributes of an element without the helpers they need. -/
def normalize (attributes : List Attribute) (blocks : List AttributeBlock) :
    Option Attributes :=
  ((compile attributes blocks).run {}).1

/-- Compiling attributes notes the uses of the attributes it gives, and gives the
same attributes whatever was noted before. -/
theorem compile_eq_noting (attributes : List Attribute) (blocks : List AttributeBlock) :
    compile attributes blocks =
      noting (usesOfOption (normalize attributes blocks)) (normalize attributes blocks) := by
  obtain ⟨compiled, compiledEq⟩ := exists_compile_eq_noting attributes blocks
  have normalized : normalize attributes blocks = compiled := by
    rw [normalize, compiledEq]
    rfl
  rw [normalized]
  exact compiledEq

end Attributes

end Template
