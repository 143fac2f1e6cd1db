import CGateway.Http.Registry

/-! # The JSON-Schema check, node by node

`validate_jsonschema_node` descends through `properties`, `items`, `additionalProperties` and the three composition
keywords with one depth that all of them share. Declaratively: which values are subschemas of a value, at which depth
they are reached, and what each keyword demands at one node.

* `NodeValid` — the constraints at one node;
* `Subschema`, `ReachedAt` — one step down, and the values reached at a depth;
* `validateJsonschemaNode_succ_iff` — one level of the check;
* `schema_hereditary` — a value is accepted just when every value reached from it is valid, none of them deeper than
  64. -/

namespace CGateway

open Bytes CString Json

/-! ### One node -/

/-- A member, where it is present, has this property. -/
def WherePresent (members : Members) (key : String) (P : Json → Prop) : Prop :=
  ∀ v, lookup members (ascii key) = some v → P v

/-- The value names a type. -/
def NamesType (v : Json) : Prop :=
  ∃ name ∈ ["object", "array", "string", "number", "integer", "boolean", "null"], v = .string (ascii name)

/-- The keywords under which a schema is composed of others. -/
def compositionKeys : List String := ["oneOf", "anyOf", "allOf"]

theorem forall_compositionKeys {P : String → Prop} :
    (∀ key ∈ compositionKeys, P key) ↔ P "oneOf" ∧ P "anyOf" ∧ P "allOf" := by
  simp only [compositionKeys, List.forall_mem_cons]
  constructor
  · rintro ⟨hone, hany, hall, -⟩
    exact ⟨hone, hany, hall⟩
  · rintro ⟨hone, hany, hall⟩
    exact ⟨hone, hany, hall, List.forall_mem_nil _⟩

/-- What the keywords of one node demand, each where it is present. -/
structure NodeValid (members : Members) : Prop where
  schema : WherePresent members "$schema" fun v => ∃ s, v = .string s ∧ contains (ascii "draft-07") s = true
  type : WherePresent members "type" fun v =>
    NamesType v ∨ ∃ items, v = .array items ∧ items ≠ [] ∧ ∀ item ∈ items, NamesType item
  required : WherePresent members "required" fun v =>
    ∃ items, v = .array items ∧ ∀ item ∈ items, ∃ s, item = .string s
  enum : WherePresent members "enum" fun v => ∃ items, v = .array items
  minimum : WherePresent members "minimum" fun v => (∃ n, v = .integer n) ∨ ∃ bits, v = .real bits
  maximum : WherePresent members "maximum" fun v => (∃ n, v = .integer n) ∨ ∃ bits, v = .real bits
  minLength : WherePresent members "minLength" fun v => ∃ n, v = .integer n
  maxLength : WherePresent members "maxLength" fun v => ∃ n, v = .integer n
  format : WherePresent members "format" fun v => ∃ s, v = .string s
  ref : WherePresent members "$ref" fun v => ∃ s, v = .string s
  definitions : WherePresent members "definitions" fun v => ∃ inner, v = .object inner
  defs : WherePresent members "$defs" fun v => ∃ inner, v = .object inner
  properties : WherePresent members "properties" fun v => ∃ props, v = .object props
  additionalProperties : WherePresent members "additionalProperties" fun v =>
    (∃ b, v = .bool b) ∨ ∃ inner, v = .object inner
  composition : ∀ key ∈ compositionKeys, WherePresent members key fun v => ∃ items, v = .array items ∧ items ≠ []

/-- The value is a subschema of an object: under `properties`, as `items`, as an `additionalProperties` that is an
object, or within a composition. -/
inductive Subschema : Json → Json → Prop
  | property {members props : Members} {name : List UInt8} {v : Json}
      (h : lookup members (ascii "properties") = some (.object props)) (hmem : (name, v) ∈ props) :
      Subschema (.object members) v
  | items {members : Members} {v : Json} (h : lookup members (ascii "items") = some v) :
      Subschema (.object members) v
  | additional {members inner : Members} (h : lookup members (ascii "additionalProperties") = some (.object inner)) :
      Subschema (.object members) (.object inner)
  | composed {members : Members} {key : String} {items : List Json} {v : Json} (hkey : key ∈ compositionKeys)
      (h : lookup members (ascii key) = some (.array items)) (hmem : v ∈ items) :
      Subschema (.object members) v

/-- The values reached from a value, each with its depth. -/
inductive ReachedAt : Json → ℕ → Json → Prop
  | here (v : Json) : ReachedAt v 0 v
  | down {v u node : Json} {depth : ℕ} (h : Subschema v u) (hreach : ReachedAt u depth node) :
      ReachedAt v (depth + 1) node

/-! ### The checks at one node -/

theorem checkMember_iff {members : Members} {key : String} {check : Json → Bool} {P : Json → Prop}
    (h : ∀ v, check v = true ↔ P v) : checkMember members key check = true ↔ WherePresent members key P := by
  rw [checkMember, WherePresent]
  cases lookup members (ascii key) with
  | none => simp
  | some v => simp [h]

theorem isString_iff (v : Json) : isString v = true ↔ ∃ s, v = .string s := by
  cases v <;> simp [isString]

theorem isObject_iff (v : Json) : isObject v = true ↔ ∃ members, v = .object members := by
  cases v <;> simp [isObject]

theorem isArray_iff (v : Json) : isArray v = true ↔ ∃ items, v = .array items := by
  cases v <;> simp [isArray]

theorem isInteger_iff (v : Json) : isInteger v = true ↔ ∃ n, v = .integer n := by
  cases v <;> simp [isInteger]

theorem isNumber_iff (v : Json) : isNumber v = true ↔ (∃ n, v = .integer n) ∨ ∃ bits, v = .real bits := by
  cases v <;> simp [isNumber]

theorem validateStringArray_iff (v : Json) :
    validateStringArray v = true ↔ ∃ items, v = .array items ∧ ∀ item ∈ items, ∃ s, item = .string s := by
  cases v <;> simp [validateStringArray, isString_iff]

theorem isValidTypeString_iff (s : List UInt8) : isValidTypeString s = true ↔ NamesType (.string s) := by
  rw [isValidTypeString, List.any_eq_true, NamesType]
  refine exists_congr fun name => and_congr_right fun _ => ?_
  rw [beq_iff_eq, Json.string.injEq]
  exact eq_comm

theorem isTypeName_iff (v : Json) : isTypeName v = true ↔ NamesType v := by
  cases v with
  | string s => exact isValidTypeString_iff s
  | _ => simp [isTypeName, NamesType]

theorem validateType_iff (v : Json) :
    validateType v = true ↔ NamesType v ∨ ∃ items, v = .array items ∧ items ≠ [] ∧ ∀ item ∈ items, NamesType item := by
  cases v with
  | string s => simp [validateType, isValidTypeString_iff]
  | array items => simp [validateType, isTypeName_iff, NamesType]
  | _ => simp [validateType, NamesType]

theorem checkSchema_iff (v : Json) :
    (match v with
      | .string s => contains (ascii "draft-07") s
      | _ => false) = true ↔ ∃ s, v = .string s ∧ contains (ascii "draft-07") s = true := by
  cases v <;> simp

/-! ### The checks that descend -/

section Descend

variable {node : Json → Bool}

theorem validateProperties_iff (v : Json) :
    validateProperties node v = true ↔
      (∃ props, v = .object props) ∧ ∀ props name u, v = .object props → (name, u) ∈ props → node u = true := by
  cases v with
  | object props =>
    simp only [validateProperties, List.all_eq_true, Prod.forall, Json.object.injEq, exists_eq', true_and]
    exact ⟨fun h props' name u heq hmem => h name u (heq ▸ hmem), fun h name u hmem => h props name u rfl hmem⟩
  | _ => simp [validateProperties]

theorem validateCompositionArray_iff (v : Json) :
    validateCompositionArray node v = true ↔
      (∃ items, v = .array items ∧ items ≠ []) ∧ ∀ items u, v = .array items → u ∈ items → node u = true := by
  cases v with
  | array items =>
    simp only [validateCompositionArray, Bool.and_eq_true, Bool.not_eq_true', List.isEmpty_eq_false_iff,
      List.all_eq_true, Json.array.injEq, exists_eq_left']
    exact and_congr_right fun _ => ⟨fun h items' u heq hmem => h u (heq ▸ hmem), fun h u hmem => h items u rfl hmem⟩
  | _ => simp [validateCompositionArray]

/-- Where nodes are objects, what is no boolean has to be one. -/
theorem validateAdditional_iff (hnode : ∀ v, node v = true → ∃ members, v = .object members) (v : Json) :
    validateAdditional node v = true ↔
      ((∃ b, v = .bool b) ∨ ∃ inner, v = .object inner) ∧ ∀ inner, v = .object inner → node v = true := by
  have hobject : node v = true → ∃ inner, v = .object inner := hnode v
  cases v with
  | bool b => simp [validateAdditional]
  | object members => simp [validateAdditional]
  -- Anything else is checked as a node too, and refused there.
  | _ => simpa [validateAdditional] using hobject

end Descend

/-! ### The levels of the check -/

/-- Only objects are accepted. -/
theorem object_of_validate {levels : ℕ} {v : Json} (h : validateJsonschemaNode levels v = true) :
    ∃ members, v = .object members := by
  cases levels with
  | zero => simp [validateJsonschemaNode] at h
  | succ levels =>
    cases v with
    | object members => exact ⟨members, rfl⟩
    | _ => simp [validateJsonschemaNode] at h

/-- **One level**: the node itself, and its subschemas with one level less. -/
theorem validateJsonschemaNode_succ_iff (levels : ℕ) (members : Members) :
    validateJsonschemaNode (levels + 1) (.object members) = true ↔
      NodeValid members ∧ ∀ u, Subschema (.object members) u → validateJsonschemaNode levels u = true := by
  have hnode : ∀ v, validateJsonschemaNode levels v = true → ∃ members, v = .object members :=
    fun v h => object_of_validate h
  simp only [validateJsonschemaNode, checkKeywords, Bool.and_eq_true, checkMember_iff validateType_iff,
    checkMember_iff validateStringArray_iff, checkMember_iff isArray_iff, checkMember_iff isNumber_iff,
    checkMember_iff isInteger_iff, checkMember_iff isString_iff, checkMember_iff isObject_iff,
    checkMember_iff validateProperties_iff, checkMember_iff validateCompositionArray_iff,
    checkMember_iff (validateAdditional_iff hnode),
    @checkMember_iff members "items" (validateJsonschemaNode levels) _ fun _ => Iff.rfl, and_assoc]
  constructor
  · rintro ⟨hschema, htype, hrequired, henum, hmin, hmax, hminl, hmaxl, hformat, href, hdefinitions, hdefs, hprops,
      hitems, hadditional, hone, hany, hall⟩
    have hcomposed : ∀ key ∈ compositionKeys, WherePresent members key fun v =>
        (∃ items, v = .array items ∧ items ≠ []) ∧
          ∀ items u, v = .array items → u ∈ items → validateJsonschemaNode levels u = true := by
      rw [forall_compositionKeys]
      exact ⟨hone, hany, hall⟩
    refine ⟨⟨(checkMember_iff checkSchema_iff).mp hschema, htype, hrequired, henum, hmin, hmax, hminl, hmaxl, hformat,
      href, hdefinitions, hdefs, fun v hv => (hprops v hv).1, fun v hv => (hadditional v hv).1,
      fun key hkey v hv => (hcomposed key hkey v hv).1⟩, ?_⟩
    -- one case for each way down
    intro u hu
    cases hu with
    | property h hmem => exact (hprops _ h).2 _ _ u rfl hmem
    | items h => exact hitems u h
    | additional h => exact (hadditional _ h).2 _ rfl
    | composed hkey h hmem => exact (hcomposed _ hkey _ h).2 _ u rfl hmem
  · rintro ⟨hvalid, hbelow⟩
    have hcomposed : ∀ key ∈ compositionKeys, WherePresent members key fun v =>
        (∃ items, v = .array items ∧ items ≠ []) ∧
          ∀ items u, v = .array items → u ∈ items → validateJsonschemaNode levels u = true := by
      intro key hkey v hv
      refine ⟨hvalid.composition key hkey v hv, ?_⟩
      rintro items u rfl hmem
      exact hbelow u (.composed hkey hv hmem)
    have hprops : WherePresent members "properties" fun v => (∃ props, v = .object props) ∧
        ∀ props name u, v = .object props → (name, u) ∈ props → validateJsonschemaNode levels u = true := by
      intro v hv
      refine ⟨hvalid.properties v hv, ?_⟩
      rintro props name u rfl hmem
      exact hbelow u (.property hv hmem)
    have hadditional : WherePresent members "additionalProperties" fun v =>
        ((∃ b, v = .bool b) ∨ ∃ inner, v = .object inner) ∧
          ∀ inner, v = .object inner → validateJsonschemaNode levels v = true := by
      intro v hv
      refine ⟨hvalid.additionalProperties v hv, ?_⟩
      rintro inner rfl
      exact hbelow _ (.additional hv)
    have hitems : WherePresent members "items" fun v => validateJsonschemaNode levels v = true :=
      fun v hv => hbelow v (.items hv)
    obtain ⟨hone, hany, hall⟩ := forall_compositionKeys.mp hcomposed
    exact ⟨(checkMember_iff checkSchema_iff).mpr hvalid.schema, hvalid.type, hvalid.required, hvalid.enum,
      hvalid.minimum, hvalid.maximum, hvalid.minLength, hvalid.maxLength, hvalid.format, hvalid.ref, hvalid.definitions,
      hvalid.defs, hprops, hitems, hadditional, hone, hany, hall⟩

/-- The check with some levels left, declaratively. -/
theorem validateJsonschemaNode_iff (levels : ℕ) (v : Json) :
    validateJsonschemaNode levels v = true ↔
      ∀ depth node, ReachedAt v depth node →
        depth < levels ∧ ∃ members, node = .object members ∧ NodeValid members := by
  -- Induction on the levels that are left: a step down takes one of them and one of the depth.
  induction levels generalizing v with
  | zero =>
    refine ⟨fun h => ?_, fun h => absurd (h 0 v (.here v)).1 (Nat.lt_irrefl 0)⟩
    simp [validateJsonschemaNode] at h
  | succ levels ih =>
    constructor
    · intro h depth node hreach
      obtain ⟨members, rfl⟩ := object_of_validate h
      obtain ⟨hvalid, hbelow⟩ := (validateJsonschemaNode_succ_iff levels members).mp h
      cases hreach with
      | here => exact ⟨Nat.succ_pos levels, members, rfl, hvalid⟩
      | down hsub hreach =>
        obtain ⟨hdepth, hnode⟩ := (ih _).mp (hbelow _ hsub) _ node hreach
        exact ⟨Nat.succ_lt_succ hdepth, hnode⟩
    · intro h
      obtain ⟨-, members, rfl, hvalid⟩ := h 0 v (.here v)
      refine (validateJsonschemaNode_succ_iff levels members).mpr ⟨hvalid, fun u hsub => (ih u).mpr ?_⟩
      intro depth node hreach
      obtain ⟨hdepth, hnode⟩ := h (depth + 1) node (.down hsub hreach)
      exact ⟨Nat.lt_of_succ_lt_succ hdepth, hnode⟩

/-- **The schema check is hereditary.** A value is accepted at depth 0 if and only if it is an object and every value
reached from it lies at depth 64 at most, is an object and keeps the constraints of its keywords. -/
theorem schema_hereditary (v : Json) :
    validateJsonschemaNode 65 v = true ↔
      (∃ members, v = .object members) ∧
        ∀ depth node, ReachedAt v depth node →
          depth ≤ 64 ∧ ∃ members, node = .object members ∧ NodeValid members := by
  rw [validateJsonschemaNode_iff]
  constructor
  · intro h
    obtain ⟨-, members, hmembers, -⟩ := h 0 v (.here v)
    refine ⟨⟨members, hmembers⟩, fun depth node hreach => ?_⟩
    obtain ⟨hdepth, hnode⟩ := h depth node hreach
    exact ⟨Nat.le_of_lt_succ hdepth, hnode⟩
  · rintro ⟨-, h⟩ depth node hreach
    obtain ⟨hdepth, hnode⟩ := h depth node hreach
    exact ⟨Nat.lt_succ_of_le hdepth, hnode⟩

end CGateway
