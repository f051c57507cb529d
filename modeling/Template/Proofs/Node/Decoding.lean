import Template.Proofs.Json.Reading
import Template.Proofs.Node.Encoding

/-!
# Decoding the encodings of a node tree

Every JSON value that encodes a node is read as that node.  The members of an object give
its fields, so each component of a record is read from the field that stands for it.  The
proof goes through the tree: what is said of an object's members holds of the objects
inside, which are less deep.
-/

namespace Template

namespace Members

variable {members : Members} {names : List String}

theorem required_string {value : String}
    (gives : members.Gives (.required names (· = .string value))) :
    members.required names Json.string? = some value :=
  required_of_gives gives fun _ _ same => by rw [same]; rfl

theorem optional_string {value : String}
    (gives : members.Gives (.optional names (value = "") (· = .string value))) :
    members.optional names "" Json.string? = some value :=
  optional_of_gives gives Eq.symm fun _ _ same => by rw [same]; rfl

theorem optional_boolean {value : Bool}
    (gives : members.Gives (.optional names (value = false) (· = .boolean value))) :
    members.optional names false Json.boolean? = some value :=
  optional_of_gives gives Eq.symm fun _ _ same => by rw [same]; rfl

theorem nullable_string {value : Option String}
    (gives : members.Gives (.nullable names (value.map fun name json => json = .string name))) :
    members.nullable names Json.string? = some value :=
  nullable_of_gives gives rfl fun _ _ _ _ same => by rw [same]; rfl

theorem nullable_position {value : Option Nat}
    (gives : members.Gives (.nullable names (value.map Location.Position))) :
    members.nullable names Node.Shape.position = some value := by
  refine nullable_of_gives gives rfl fun number _ member _ encoded => ?_
  obtain ⟨same, small⟩ := encoded
  have fits : number ≤ Text.nat64Max := Nat.le_pred_of_lt small
  rw [same]
  exact Option.filter_some_pos (decide_eq_true fits)

end Members

namespace Node.Shape

variable {members : Members} {depth : Nat}

theorem location_of_gives {location : Location}
    (gives : ∀ field ∈ location.fields, members.Gives field) :
    Shape.location members = some location := by
  simp only [Location.fields, List.forall_mem_cons] at gives
  obtain ⟨line, column, filename, -⟩ := gives
  rw [Shape.location, Members.nullable_position line, Members.nullable_position column,
    Members.nullable_string filename]
  rfl

/-! ## Attributes -/

theorem readAll_of_forall₂ {α : Type} {read : Json → Option α} {values : List α}
    {items : List Json}
    (each : List.Forall₂ (fun value json => read json = some value) values items) :
    readAll read items = some values := by
  induction each with
  | nil => rfl
  | cons first _ inductionHypothesis =>
      rw [readAll, first, inductionHypothesis]
      rfl

theorem list_of_isArray {α : Type} {read : Json → Option α} {encodes : α → Json → Prop}
    {values : List α} {json : Json} (array : json.IsArray encodes values)
    (reads : ∀ value json, encodes value json → read json = some value) :
    list read json = some values := by
  obtain ⟨items, rfl, encoded⟩ := array
  exact readAll_of_forall₂ (encoded.imp reads)

theorem attributeValue_json (value : AttributeValue) :
    attributeValue value.json = some value := by
  cases value <;> rfl

theorem attributeOf_of_encodes (entry : Attribute) (json : Json) (encoded : entry.Encodes json) :
    attributeOf json = some entry := by
  cases encoded with
  | object written =>
      obtain ⟨name, value, mustEscape⟩ := entry
      have distinct : ["name", "val", "mustEscape"].Nodup := by decide
      obtain ⟨members, rfl, gives⟩ := written.gives distinct
      simp only [Attribute.fields, List.forall_mem_cons] at gives
      obtain ⟨nameGiven, valueGiven, mustEscapeGiven, -⟩ := gives
      have valueRead : Members.required members ["val"] attributeValue = some value :=
        Members.required_of_gives valueGiven fun _ _ same => by
          rw [same, attributeValue_json]
      rw [attributeOf, Members.required_string nameGiven, valueRead,
        Members.optional_boolean mustEscapeGiven]
      rfl
  | pair => simp [attributeOf, attributeValue_json, Json.string?]
  | triple => simp [attributeOf, attributeValue_json, Json.string?, Json.boolean?]

theorem attributeBlock_of_encodes (block : AttributeBlock) (json : Json)
    (encoded : block.Encodes json) : attributeBlock json = some block := by
  cases block with
  | source code =>
      obtain rfl : json = .string code := encoded
      rfl
  | node code =>
      have distinct : ["val"].Nodup := by decide
      obtain ⟨members, rfl, gives⟩ := Json.IsObject.gives encoded distinct
      rw [attributeBlock, Members.required_string (gives _ List.mem_cons_self)]
      rfl

/-! ## Nodes -/

/-- A value is read from all members that give its fields, to the depth to which they are
nested. -/
def Reads {α : Type} (read : Nat → Members → Option α) (fields : List Field) (value : α) : Prop :=
  ∀ (depth : Nat) (members : Members), (∀ field ∈ fields, members.Gives field) →
    (∀ member ∈ members, member.2.depth ≤ depth) → read depth members = some value

section Reads

variable {α : Type} {read : Nat → Members → Option α} {fields : List Field} {value : α}

theorem Reads.of_isObject (reads : Reads read fields value) {json : Json}
    (object : json.IsObject fields) (distinct : (fields.flatMap Field.names).Nodup)
    (shallow : json.depth ≤ depth + 1) :
    ∃ members : Members, json = .object members ∧ read depth members = some value := by
  obtain ⟨members, rfl, gives⟩ := object.gives distinct
  exact ⟨members, rfl, reads depth members gives
    (Json.depthMembers_le_iff.mp (Nat.le_of_succ_le_succ shallow))⟩

/-- An object that holds its kind is read one level below. -/
theorem Reads.of_kind {kind : NodeKind} (reads : Reads read fields value) {json : Json}
    (object : json.IsObject (kind.field :: fields))
    (distinct : ((kind.field :: fields).flatMap Field.names).Nodup)
    (shallow : json.depth ≤ depth) :
    ∃ (below : Nat) (members : Members), depth = below + 1 ∧ json = .object members ∧
      members.Gives kind.field ∧ read below members = some value := by
  obtain ⟨members, rfl, gives⟩ := object.gives distinct
  obtain ⟨below, rfl⟩ := Nat.exists_eq_add_one_of_ne_zero (Nat.ne_zero_of_lt shallow)
  obtain ⟨kindGiven, othersGiven⟩ := List.forall_mem_cons.mp gives
  exact ⟨below, members, rfl, rfl, kindGiven, reads below members othersGiven
    (Json.depthMembers_le_iff.mp (Nat.le_of_succ_le_succ shallow))⟩

end Reads

theorem required_kind {kinds : List NodeKind} {kind : NodeKind}
    (gives : members.Gives kind.field) (listed : choice kinds (.string kind.name) = some kind) :
    members.required ["type"] (choice kinds) = some kind :=
  Members.required_of_gives gives fun _ _ same => by rw [same, listed]

/-- Every kind is chosen by its name. -/
theorem choice_name (kind : NodeKind) :
    choice NodeKind.all (.string kind.name) = some kind := by
  rcases kind with _ | _ | _ | _ | _ | _ | _ | _ | _ | _ | _ | rejected
  case rejected => cases rejected <;> rfl
  all_goals rfl

/-- The block is read from members that give its fields. -/
def ReadsBlock (block : Block) : Prop :=
  Reads (fun depth members => Shape.block (node depth) (.object members)) block.fields block

/-- The node is read from members that give its fields. -/
def ReadsNode (node : Node) : Prop :=
  Reads (fun depth => nodeOf (Shape.node depth) (alternate depth) node.kind) node.fields node

theorem ReadsBlock.of_object {block : Block} (reads : ReadsBlock block) {json : Json}
    (object : json.IsObject block.fields) (shallow : json.depth ≤ depth) :
    Shape.block (node depth) json = some block := by
  obtain ⟨members, rfl, read⟩ :=
    reads.of_isObject object (Node.distinct_others (.block block)) (Nat.le_succ_of_le shallow)
  exact read

theorem optional_block {block : Block} {names : List String} (reads : ReadsBlock block)
    (gives : members.Gives (.optional names (block = ⟨[], {}⟩) (Json.IsObject block.fields)))
    (shallow : ∀ member ∈ members, member.2.depth ≤ depth) :
    members.optional names emptyBlock (Shape.block (node depth)) = some block :=
  Members.optional_of_gives gives Eq.symm fun member membership object =>
    reads.of_object object (shallow member membership)

theorem nullable_block {block : Option Block} {names : List String}
    (reads : ∀ inner ∈ block, ReadsBlock inner)
    (gives : members.Gives (.nullable names (Block.present block)))
    (shallow : ∀ member ∈ members, member.2.depth ≤ depth) :
    members.nullable names (Shape.block (node depth)) = some block := by
  rw [Block.present_eq_map] at gives
  exact Members.nullable_of_gives gives rfl fun inner inside member membership object =>
    (reads inner inside).of_object object (shallow member membership)

theorem ReadsNode.of_encodes {node : Node} (reads : ReadsNode node) {json : Json}
    (encoded : node.Encodes json) (shallow : json.depth ≤ depth) :
    Shape.node depth json = some node := by
  obtain ⟨below, members, rfl, rfl, kindGiven, read⟩ :=
    reads.of_kind encoded node.distinct_fields shallow
  rw [Shape.node, required_kind kindGiven (choice_name node.kind)]
  exact read

-- The induction is on the tree, at all depths at once: the objects inside a node are read to
-- the depth of their own members.
mutual

theorem readsBlock : (block : Block) → ReadsBlock block
  | ⟨nodes, location⟩, depth, members, gives, shallow => by
      simp only [Block.fields, List.forall_mem_cons] at gives
      obtain ⟨nodesGiven, locationGiven⟩ := gives
      have nodesRead : Members.optional members ["nodes"] [] (list (node depth)) = some nodes :=
        Members.optional_of_gives nodesGiven Eq.symm fun member membership encoded => by
          obtain ⟨items, same, encodedItems⟩ := encoded
          have shallowArray := shallow member membership
          rw [same] at shallowArray ⊢
          exact readAll_of_encodes nodes items depth encodedItems
            (Json.depthItems_le_iff.mp (Nat.le_of_succ_le shallowArray))
      dsimp only
      rw [Shape.block, nodesRead, location_of_gives locationGiven]
      rfl

theorem readsBlocks : (block : Option Block) → ∀ inner ∈ block, ReadsBlock inner
  | some block, _, rfl => readsBlock block

theorem readAll_of_encodes : (nodes : List Node) → (items : List Json) → (depth : Nat) →
    Node.EncodesAll nodes items → (∀ item ∈ items, item.depth ≤ depth) →
    readAll (node depth) items = some nodes
  | [], items, _, encoded, _ => by
      obtain rfl : items = [] := encoded
      rfl
  | first :: rest, items, depth, encoded, shallow => by
      obtain ⟨item, others, rfl, object, encodedOthers⟩ := encoded
      rw [readAll, (readsNode first).of_encodes object (shallow item List.mem_cons_self),
        readAll_of_encodes rest others depth encodedOthers
          (fun _ membership => shallow _ (List.mem_cons_of_mem _ membership))]
      rfl

theorem readsCode : (code : Code) →
    Reads (fun depth => Shape.code (node depth)) code.fields code
  | ⟨source, buffered, mustEscape, block, location⟩, depth, members, gives, shallow => by
      simp only [Code.fields, List.forall_mem_cons] at gives
      obtain ⟨sourceGiven, bufferedGiven, mustEscapeGiven, blockGiven, locationGiven⟩ := gives
      dsimp only
      rw [Shape.code, Members.required_string sourceGiven, Members.optional_boolean bufferedGiven,
        Members.optional_boolean mustEscapeGiven,
        nullable_block (readsBlocks block) blockGiven shallow, location_of_gives locationGiven]
      rfl

theorem tagCode_of_isObject : (code : Option Code) → ∀ inner ∈ code, (json : Json) →
    (depth : Nat) → json.IsObject inner.fields → json.depth ≤ depth →
    tagCode (node depth) json = some inner
  | some code, _, rfl, json, depth, object, shallow => by
      obtain ⟨members, rfl, read⟩ := (readsCode code).of_isObject object
        (Node.distinct_others (.code code)) (Nat.le_succ_of_le shallow)
      exact read

theorem readsTag : (tag : Tag) → Reads (fun depth => Shape.tag (node depth)) tag.fields tag
  | ⟨name, attributes, attributeBlocks, code, block, location⟩, depth, members, gives, shallow => by
      simp only [Tag.fields, List.forall_mem_cons, Code.present_eq_map] at gives
      obtain ⟨nameGiven, attributesGiven, attributeBlocksGiven, codeGiven, blockGiven,
        locationGiven⟩ := gives
      have attributesRead : members.optional ["attrs"] [] (list attributeOf) = some attributes :=
        Members.optional_of_gives attributesGiven Eq.symm fun _ _ array =>
          list_of_isArray array attributeOf_of_encodes
      have attributeBlocksRead : members.optional ["attributeBlocks"] [] (list attributeBlock) =
          some attributeBlocks :=
        Members.optional_of_gives attributeBlocksGiven Eq.symm fun _ _ array =>
          list_of_isArray array attributeBlock_of_encodes
      have codeRead : members.nullable ["code"] (tagCode (node depth)) = some code :=
        Members.nullable_of_gives codeGiven rfl fun inner inside member membership object =>
          tagCode_of_isObject code inner inside member.2 depth object (shallow member membership)
      dsimp only
      rw [Shape.tag, Members.required_string nameGiven, attributesRead, attributeBlocksRead,
        codeRead, optional_block (readsBlock block) blockGiven shallow,
        location_of_gives locationGiven]
      rfl

theorem readsConditional : (conditional : Conditional) →
    Reads (fun depth => Shape.conditional (node depth) (alternate depth)) conditional.fields
      conditional
  | ⟨test, consequent, alternate, location⟩, depth, members, gives, shallow => by
      simp only [Conditional.fields, List.forall_mem_cons, Alternate.present_eq_map] at gives
      obtain ⟨testGiven, consequentGiven, alternateGiven, locationGiven⟩ := gives
      have alternateRead : members.nullable ["alternate"] (Shape.alternate depth) =
          some alternate :=
        Members.nullable_of_gives alternateGiven (by cases depth <;> rfl)
          fun inner inside member membership object =>
            alternate_of_isObject alternate inner inside member.2 depth object
              (shallow member membership)
      dsimp only
      rw [Shape.conditional, Members.required_string testGiven,
        optional_block (readsBlock consequent) consequentGiven shallow, alternateRead,
        location_of_gives locationGiven]
      rfl

theorem alternate_of_isObject : (alternate : Option Alternate) → ∀ inner ∈ alternate,
    (json : Json) → (depth : Nat) → json.IsObject inner.fields → json.depth ≤ depth →
    Shape.alternate depth json = some inner
  | some (.conditional conditional), _, rfl, json, depth, object, shallow => by
      obtain ⟨below, members, rfl, rfl, kindGiven, read⟩ := (readsConditional conditional).of_kind
        object (Node.distinct_fields (.conditional conditional)) shallow
      rw [Shape.alternate, required_kind kindGiven rfl]
      exact congrArg (Option.map Alternate.conditional) read
  | some (.block block), _, rfl, json, depth, object, shallow => by
      obtain ⟨below, members, rfl, rfl, kindGiven, read⟩ := (readsBlock block).of_kind object
        (Node.distinct_fields (.block block)) shallow
      rw [Shape.alternate, required_kind kindGiven rfl]
      exact congrArg (Option.map Alternate.block) read

theorem readsEach : (each : Each) →
    Reads (fun depth => Shape.each (node depth)) each.fields each
  | ⟨object, value, key, block, alternate, location⟩, depth, members, gives, shallow => by
      simp only [Each.fields, List.forall_mem_cons] at gives
      obtain ⟨objectGiven, valueGiven, keyGiven, blockGiven, alternateGiven, locationGiven⟩ := gives
      dsimp only
      rw [Shape.each, Members.required_string objectGiven, Members.required_string valueGiven,
        Members.nullable_string keyGiven, optional_block (readsBlock block) blockGiven shallow,
        nullable_block (readsBlocks alternate) alternateGiven shallow,
        location_of_gives locationGiven]
      rfl

theorem readsNode : (node : Node) → ReadsNode node
  | .block block, depth, members, gives, shallow =>
      congrArg (Option.map Node.block) (readsBlock block depth members gives shallow)
  | .tag tag, depth, members, gives, shallow =>
      congrArg (Option.map Node.tag) (readsTag tag depth members gives shallow)
  | .text value location, depth, members, gives, shallow => by
      obtain ⟨valueGiven, locationGiven⟩ := List.forall_mem_cons.mp gives
      dsimp only
      rw [Node.kind, nodeOf, Members.optional_string valueGiven, location_of_gives locationGiven]
      rfl
  | .literal content location, depth, members, gives, shallow => by
      obtain ⟨textGiven, locationGiven⟩ := List.forall_mem_cons.mp gives
      dsimp only
      rw [Node.kind, nodeOf, Members.optional_string textGiven, location_of_gives locationGiven]
      rfl
  | .code code, depth, members, gives, shallow =>
      congrArg (Option.map Node.code) (readsCode code depth members gives shallow)
  | .conditional conditional, depth, members, gives, shallow =>
      congrArg (Option.map Node.conditional)
        (readsConditional conditional depth members gives shallow)
  | .loop test block location, depth, members, gives, shallow => by
      simp only [Node.fields, List.forall_mem_cons] at gives
      obtain ⟨testGiven, blockGiven, locationGiven⟩ := gives
      dsimp only
      rw [Node.kind, nodeOf, Members.required_string testGiven,
        optional_block (readsBlock block) blockGiven shallow, location_of_gives locationGiven]
      rfl
  | .each each, depth, members, gives, shallow =>
      congrArg (Option.map Node.each) (readsEach each depth members gives shallow)
  | .comment value visible location, depth, members, gives, shallow => by
      simp only [Node.fields, List.forall_mem_cons] at gives
      obtain ⟨valueGiven, visibleGiven, locationGiven⟩ := gives
      dsimp only
      rw [Node.kind, nodeOf, Members.optional_string valueGiven,
        Members.optional_boolean visibleGiven, location_of_gives locationGiven]
      rfl
  | .blockComment value visible block location, depth, members, gives, shallow => by
      simp only [Node.fields, List.forall_mem_cons] at gives
      obtain ⟨valueGiven, visibleGiven, blockGiven, locationGiven⟩ := gives
      dsimp only
      rw [Node.kind, nodeOf, Members.optional_string valueGiven,
        Members.optional_boolean visibleGiven,
        optional_block (readsBlock block) blockGiven shallow, location_of_gives locationGiven]
      rfl
  | .mixinBlock location, depth, members, gives, shallow =>
      congrArg (Option.map Node.mixinBlock) (location_of_gives gives)
  | .rejected kind location, depth, members, gives, shallow =>
      congrArg (Option.map (Node.rejected kind)) (location_of_gives gives)

end

end Node.Shape

end Template
