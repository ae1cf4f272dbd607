import Nexus.Gitops.Schemas

/-!
# What the schemas accept

Every schema reads a document back from its JSON form, so nothing that the structures can hold is
lost or refused. A schema refuses every document of another `kind`, whatever the other fields are.
-/

set_option autoImplicit false

namespace Nexus

open ZodSchema

/-! ## The combinators read values back -/

namespace ZodSchema

variable {α : Type} {checks : List ((String → Bool) × ZodIssue)}

@[simp] theorem literal_self (value : String) : literal value (some (.str value)) = .ok () := by
  simp [literal]

@[simp] theorem string_passing (s : Passing checks) : string checks (some (.str s.val)) = .ok s := by
  rw [string, dif_pos s.property]
  rfl

@[simp] theorem boolean_bool (b : Bool) : boolean (some (.bool b)) = .ok b := rfl

@[simp] theorem record_obj (fields : OrderedMap String Json) :
    record (some (.obj fields)) = .ok fields := rfl

@[simp] theorem default_some (value : α) (schema : ZodSchema α) (v : Json) :
    default value schema (some v) = schema (some v) := rfl

@[simp] theorem optional_none (schema : ZodSchema α) : schema.optional none = .ok none := rfl

@[simp] theorem optional_passing (s : Passing checks) :
    (string checks).optional (some (.str s.val)) = .ok (some s) := by
  rw [ZodSchema.optional, string_passing]
  rfl

@[simp] theorem nullable_null (schema : ZodSchema α) : nullable schema (some .null) = .ok none := rfl

@[simp] theorem nullable_passing (s : Passing checks) :
    nullable (string checks) (some (.str s.val)) = .ok (some s) := by
  rw [nullable, string_passing]
  · rfl
  · rintro ⟨⟩

@[simp] theorem nullable_recordOrNull (fields : Option (OrderedMap String Json)) :
    nullable record (some (recordOrNull fields)) = .ok fields := by
  cases fields <;> rfl

theorem enum_read {values : List String} {read : String → Option α} {s : String} {a : α}
    (h : read s = some a) : enum values read (some (.str s)) = .ok a := by
  rw [enum, h]

theorem elements_map {schema : ZodSchema α} {toJson : α → Json}
    (h : ∀ a, schema (some (toJson a)) = .ok a) (xs : List α) :
    elements schema (xs.map toJson) = .ok xs := by
  induction xs with
  | nil => rfl
  | cons x xs ih =>
      rw [List.map_cons, elements, h, ih]
      rfl

theorem nonEmptyArray_map {schema : ZodSchema α} {toJson : α → Json}
    (h : ∀ a, schema (some (toJson a)) = .ok a) (xs : {xs : List α // xs ≠ []}) :
    nonEmptyArray schema (some (.arr (xs.val.map toJson))) = .ok xs := by
  obtain ⟨xs, hne⟩ := xs
  cases xs with
  | nil => exact absurd rfl hne
  | cons x xs =>
      rw [nonEmptyArray, array, elements_map h]

end ZodSchema

@[simp] theorem ScopeNodeType.ofText?_text (type : ScopeNodeType) :
    ScopeNodeType.ofText? type.text = some type := by
  cases type <;> decide +kernel

@[simp] theorem OverrideSource.ofText?_text (source : OverrideSource) :
    OverrideSource.ofText? source.text = some source := by
  cases source <;> decide +kernel

@[simp] theorem OverrideStrategy.ofText?_text (strategy : OverrideStrategy) :
    OverrideStrategy.ofText? strategy.text = some strategy := by
  cases strategy <;> decide +kernel

/-! ## The documents are read back -/

example : strict ["name"] (fun fields => Checked.andField (.ok id) fields "name" record)
    (some (.obj [("name", .obj [])])) = .ok [] := by
  simp [strict, OrderedMap.keys, Checked.andField, OrderedMap.get?]

section Accepts

theorem scopeNodeDocSchema_toJson {zod : Zod} (doc : ScopeNodeDoc zod) :
    scopeNodeDocSchema zod (some doc.toJson) = .ok doc := by
  rcases doc with ⟨_ | id, type, name, slug, metadata⟩ <;>
    simp [scopeNodeDocSchema, ScopeNodeDoc.toJson, optionalEntry, strict, OrderedMap.keys,
      Checked.andField, OrderedMap.get?, enum_read]

theorem roleDocSchema_toJson (doc : RoleDoc) : roleDocSchema (some doc.toJson) = .ok doc := by
  rcases doc with ⟨name, _ | description, _ | scope, permissions⟩ <;>
    simp [roleDocSchema, RoleDoc.toJson, optionalEntry, strict, OrderedMap.keys, Checked.andField,
      OrderedMap.get?, nonEmptyArray_map]

theorem assignmentSchema_toJson (assignment : Assignment) :
    assignmentSchema (some assignment.toJson) = .ok assignment := by
  simp [assignmentSchema, Assignment.toJson, strict, OrderedMap.keys, Checked.andField,
    OrderedMap.get?]

theorem assignmentDocSchema_list (assignments : List Assignment) :
    assignmentDocSchema (some (assignmentList assignments)) = .ok assignments := by
  simp [assignmentDocSchema, assignmentList, strict, OrderedMap.keys, Checked.andField,
    OrderedMap.get?, array, elements_map assignmentSchema_toJson]

theorem definitionSchema_toJson (kind : String) (doc : DefinitionDoc) :
    definitionSchema kind (some (doc.toJson kind)) = .ok doc := by
  simp [definitionSchema, DefinitionDoc.toJson, strict, OrderedMap.keys, Checked.andField,
    OrderedMap.get?, enum_read]

theorem overrideShapeSchema_toJson (kind : String) (doc : OverrideShape) :
    overrideShapeSchema kind (some (doc.toJson kind)) = .ok doc := by
  rcases doc with ⟨name, scope, source, locked, strategy, definition, overrides, _ | bodyRef⟩ <;>
    simp [overrideShapeSchema, OverrideShape.toJson, optionalEntry, strict, OrderedMap.keys,
      Checked.andField, OrderedMap.get?, enum_read]

theorem overrideSchema_toJson (kind : String) (doc : OverrideDoc) :
    overrideSchema kind (some (doc.val.toJson kind)) = .ok doc := by
  rw [overrideSchema, overrideShapeSchema_toJson]
  exact dif_pos doc.property

end Accepts

/-! ## Documents of another kind are refused -/

/-- The input has issues. -/
def Checked.Fails {α : Type} (x : Checked α) : Prop := ∃ issues, x = .error issues

/-- The field `kind` of a document. -/
def docKind : Json → Option Json
  | .obj fields => OrderedMap.get? fields "kind"
  | _ => none

section Refuses

variable {α β : Type} {f : Checked (α → β)} {fields : OrderedMap String Json} {key : String}
  {schema : ZodSchema α}

theorem Checked.Fails.andField (h : f.Fails) : (f.andField fields key schema).Fails := by
  obtain ⟨issues, hf⟩ := h
  exact Checked.field_error (.inl hf)

/-- A field that is refused. -/
theorem Checked.andField_fails (h : (schema (OrderedMap.get? fields key)).Fails) :
    (f.andField fields key schema).Fails := by
  obtain ⟨issues, hx⟩ := h
  exact Checked.field_error (.inr hx)

theorem literal_fails {value : String} {v : Option Json} (h : v ≠ some (.str value)) :
    (literal value v).Fails := by
  unfold literal
  split
  · rename_i s
    have hne : s ≠ value := by
      rintro rfl
      exact h rfl
    exact ⟨_, if_neg hne⟩
  · exact ⟨_, rfl⟩

/-- An object schema refuses what is not an object, and an object whose shape it refuses. -/
theorem strict_fails {keys : List String} {shape : OrderedMap String Json → Checked α} {v : Json}
    (h : ∀ fields, v = .obj fields → (shape fields).Fails) :
    (strict keys shape (some v)).Fails := by
  unfold strict
  split
  · rename_i fields hv
    obtain ⟨issues, hshape⟩ := h fields (Option.some.inj hv)
    dsimp only
    split
    · exact ⟨issues, hshape⟩
    · exact Checked.field_error (.inr rfl)
  · exact ⟨_, rfl⟩

theorem scopeNodeDocSchema_fails {zod : Zod} {v : Json}
    (h : docKind v ≠ some (.str "ScopeNode")) : (scopeNodeDocSchema zod (some v)).Fails := by
  apply strict_fails
  rintro fields rfl
  -- `kind` is the second field; the issues of the others are added to its issue
  iterate 5 apply Checked.Fails.andField
  exact Checked.andField_fails (literal_fails h)

theorem overrideSchema_fails {kind : String} {v : Json} (h : docKind v ≠ some (.str kind)) :
    (overrideSchema kind (some v)).Fails := by
  have hshape : (overrideShapeSchema kind (some v)).Fails := by
    apply strict_fails
    rintro fields rfl
    exact Checked.andField_fails (literal_fails h)
  obtain ⟨issues, hissues⟩ := hshape
  exact ⟨issues, by rw [overrideSchema, hissues]⟩

end Refuses

theorem docKind_role (doc : RoleDoc) : docKind doc.toJson = some (.str "Role") := rfl

theorem docKind_definition (kind : String) (doc : DefinitionDoc) :
    docKind (doc.toJson kind) = some (.str kind) := rfl

theorem docKind_override (kind : String) (doc : OverrideShape) :
    docKind (doc.toJson kind) = some (.str kind) := by
  rcases doc with ⟨name, scope, source, locked, strategy, definition, overrides, _ | bodyRef⟩ <;> rfl

end Nexus
