import Mathlib.Data.List.Forall2
import Template.Proofs.Node.Field

/-!
# Encodings of a node tree

A node is written as an object whose fields depend on its kind.  `Node.fields` lists
them for all kinds, `Node.Encodes` says which JSON values stand for a node.
-/

namespace Template

/-- A number of a line or a column, which is below `2 ^ 64`. -/
def Location.Position (number : Nat) (json : Json) : Prop :=
  json = .integer number ∧ number < 0x10000000000000000

/-- The fields of a location, which belong to the object of its node. -/
def Location.fields (location : Location) : List Field :=
  [.nullable ["line"] (location.line.map Position),
    .nullable ["column"] (location.column.map Position),
    .nullable ["filename"] (location.filename.map fun name json => json = .string name)]

/-- The value of an attribute, which is a string or a boolean. -/
def AttributeValue.json : AttributeValue → Json
  | .source code => .string code
  | .flag value => .boolean value

/-- The fields of an attribute that is written as an object. -/
def Attribute.fields : Attribute → List Field
  | ⟨name, value, mustEscape⟩ =>
      [.required ["name"] (· = .string name),
        .required ["val"] (· = value.json),
        .optional ["mustEscape"] (mustEscape = false) (· = .boolean mustEscape)]

/-- An attribute is an object, or an array of its name, its value and whether it is
escaped, where the last may be left out for the default. -/
inductive Attribute.Encodes : Attribute → Json → Prop where
  | object {entry : Attribute} {json : Json} (written : json.IsObject entry.fields) :
      Encodes entry json
  | pair {name : String} {value : AttributeValue} :
      Encodes ⟨name, value, false⟩ (.array [.string name, value.json])
  | triple {name : String} {value : AttributeValue} {mustEscape : Bool} :
      Encodes ⟨name, value, mustEscape⟩ (.array [.string name, value.json, .boolean mustEscape])

/-- An attribute block is a string or an object, according to its variant. -/
def AttributeBlock.Encodes : AttributeBlock → Json → Prop
  | .source code => (· = .string code)
  | .node code => Json.IsObject [.required ["val"] (· = .string code)]

/-- An array of the encodings of some values. -/
def Json.IsArray {α : Type} (encodes : α → Json → Prop) (values : List α) (json : Json) : Prop :=
  ∃ items, json = .array items ∧ List.Forall₂ encodes values items

/-- The field that holds the kind. -/
def NodeKind.field (kind : NodeKind) : Field :=
  .required ["type"] (· = .string kind.name)

mutual

/-- The fields of a node beside its kind. -/
def Node.fields : Node → List Field
  | .block block => block.fields
  | .tag tag => tag.fields
  | .text value location =>
      .optional ["val"] (value = "") (· = .string value) :: location.fields
  | .literal text location =>
      .optional ["str"] (text = "") (· = .string text) :: location.fields
  | .code code => code.fields
  | .conditional conditional => conditional.fields
  | .loop test block location =>
      .required ["test"] (· = .string test) ::
      .optional ["block"] (block = ⟨[], {}⟩) (Json.IsObject block.fields) ::
      location.fields
  | .each each => each.fields
  | .comment value visible location =>
      .optional ["val"] (value = "") (· = .string value) ::
      .optional ["buffer"] (visible = false) (· = .boolean visible) :: location.fields
  | .blockComment value visible block location =>
      .optional ["val"] (value = "") (· = .string value) ::
      .optional ["buffer"] (visible = false) (· = .boolean visible) ::
      .optional ["block"] (block = ⟨[], {}⟩) (Json.IsObject block.fields) ::
      location.fields
  | .mixinBlock location => location.fields
  | .rejected _ location => location.fields

/-- The fields of a block. -/
def Block.fields : Block → List Field
  | ⟨nodes, location⟩ =>
      .optional ["nodes"] (nodes = []) (fun json => ∃ items, json = .array items ∧
        Node.EncodesAll nodes items) :: location.fields

/-- The fields of a tag. -/
def Tag.fields : Tag → List Field
  | ⟨name, attributes, attributeBlocks, code, block, location⟩ =>
      .required ["name"] (· = .string name) ::
      .optional ["attrs"] (attributes = []) (Json.IsArray Attribute.Encodes attributes) ::
      .optional ["attributeBlocks"] (attributeBlocks = [])
        (Json.IsArray AttributeBlock.Encodes attributeBlocks) ::
      .nullable ["code"] (Code.present code) ::
      .optional ["block"] (block = ⟨[], {}⟩) (Json.IsObject block.fields) ::
      location.fields

/-- The fields of code. -/
def Code.fields : Code → List Field
  | ⟨source, buffered, mustEscape, block, location⟩ =>
      .required ["val"] (· = .string source) ::
      .optional ["buffer"] (buffered = false) (· = .boolean buffered) ::
      .optional ["mustEscape", "escape"] (mustEscape = false) (· = .boolean mustEscape) ::
      .nullable ["block"] (Block.present block) ::
      location.fields

/-- The fields of a condition. -/
def Conditional.fields : Conditional → List Field
  | ⟨test, consequent, alternate, location⟩ =>
      .required ["test"] (· = .string test) ::
      .optional ["consequent"] (consequent = ⟨[], {}⟩)
        (Json.IsObject consequent.fields) ::
      .nullable ["alternate"] (Alternate.present alternate) ::
      location.fields

/-- The fields of the other branch of a condition, its kind among them. -/
def Alternate.fields : Alternate → List Field
  | .conditional conditional => NodeKind.conditional.field :: conditional.fields
  | .block block => NodeKind.block.field :: block.fields

/-- The fields of an iteration. -/
def Each.fields : Each → List Field
  | ⟨object, value, key, block, alternate, location⟩ =>
      .required ["obj"] (· = .string object) ::
      .required ["val"] (· = .string value) ::
      .nullable ["key"] (key.map fun key json => json = .string key) ::
      .optional ["block"] (block = ⟨[], {}⟩) (Json.IsObject block.fields) ::
      .nullable ["alternate", "alternative"] (Block.present alternate) ::
      location.fields

/-- The objects that stand for a block, if there is one. -/
def Block.present : Option Block → Option (Json → Prop)
  | none => none
  | some block => some (Json.IsObject block.fields)

/-- The objects that stand for code, if there is any. -/
def Code.present : Option Code → Option (Json → Prop)
  | none => none
  | some code => some (Json.IsObject code.fields)

/-- The objects that stand for the other branch of a condition, if there is one. -/
def Alternate.present : Option Alternate → Option (Json → Prop)
  | none => none
  | some alternate => some (Json.IsObject alternate.fields)

/-- The encodings of nodes in order. -/
def Node.EncodesAll : List Node → List Json → Prop
  | [], items => items = []
  | node :: rest, items => ∃ first others, items = first :: others ∧
      first.IsObject (node.kind.field :: node.fields) ∧ Node.EncodesAll rest others

end

/-- The JSON values that stand for a node: objects with its kind and its other fields. -/
def Node.Encodes (node : Node) (json : Json) : Prop :=
  json.IsObject (node.kind.field :: node.fields)

theorem Block.present_eq_map (block : Option Block) :
    present block = block.map fun block => Json.IsObject block.fields := by
  cases block <;> rfl

theorem Code.present_eq_map (code : Option Code) :
    present code = code.map fun code => Json.IsObject code.fields := by
  cases code <;> rfl

theorem Alternate.present_eq_map (alternate : Option Alternate) :
    present alternate = alternate.map fun alternate => Json.IsObject alternate.fields := by
  cases alternate <;> rfl

/-! ## Names -/

/-- No name is used for two fields of a node. -/
theorem Node.distinct_fields (node : Node) :
    ((node.kind.field :: node.fields).flatMap Field.names).Nodup := by
  cases node with
  | block block =>
      cases block
      exact (by decide : ["type", "nodes", "line", "column", "filename"].Nodup)
  | tag tag =>
      cases tag
      exact (by decide : ["type", "name", "attrs", "attributeBlocks", "code", "block", "line",
        "column", "filename"].Nodup)
  | text => exact (by decide : ["type", "val", "line", "column", "filename"].Nodup)
  | literal => exact (by decide : ["type", "str", "line", "column", "filename"].Nodup)
  | code code =>
      cases code
      exact (by decide : ["type", "val", "buffer", "mustEscape", "escape", "block", "line",
        "column", "filename"].Nodup)
  | conditional conditional =>
      cases conditional
      exact (by decide : ["type", "test", "consequent", "alternate", "line", "column",
        "filename"].Nodup)
  | loop => exact (by decide : ["type", "test", "block", "line", "column", "filename"].Nodup)
  | each each =>
      cases each
      exact (by decide : ["type", "obj", "val", "key", "block", "alternate", "alternative", "line",
        "column", "filename"].Nodup)
  | comment => exact (by decide : ["type", "val", "buffer", "line", "column", "filename"].Nodup)
  | blockComment =>
      exact (by decide : ["type", "val", "buffer", "block", "line", "column", "filename"].Nodup)
  | mixinBlock => exact (by decide : ["type", "line", "column", "filename"].Nodup)
  | rejected => exact (by decide : ["type", "line", "column", "filename"].Nodup)

theorem Node.distinct_others (node : Node) : (node.fields.flatMap Field.names).Nodup :=
  (List.nodup_append.mp node.distinct_fields).2.1

end Template
