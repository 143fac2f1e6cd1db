import CGateway.Http.Gateway

/-! # The block registry

The in-memory registry of extension blocks, the JSON-Schema check its writes pass, and the two handlers
of the registry routes. -/

namespace CGateway

open Bytes CString Json

/-! ### The JSON-Schema check -/

/-- `is_valid_type_string`. -/
def isValidTypeString (s : List UInt8) : Bool :=
  ["object", "array", "string", "number", "integer", "boolean", "null"].any (ascii · == s)

/-- The value is a string. -/
def isString : Json → Bool
  | .string _ => true
  | _ => false

/-- The value is an object. -/
def isObject : Json → Bool
  | .object _ => true
  | _ => false

/-- The value is an array. -/
def isArray : Json → Bool
  | .array _ => true
  | _ => false

/-- The value is an integer. -/
def isInteger : Json → Bool
  | .integer _ => true
  | _ => false

/-- The value is a number. -/
def isNumber : Json → Bool
  | .integer _ => true
  | .real _ => true
  | _ => false

/-- `validate_string_array`. -/
def validateStringArray : Json → Bool
  | .array items => items.all isString
  | _ => false

/-- A type keyword names a type. -/
def isTypeName : Json → Bool
  | .string s => isValidTypeString s
  | _ => false

/-- `validate_type`: one name, or several in an array. -/
def validateType : Json → Bool
  | .string s => isValidTypeString s
  | .array items => !items.isEmpty && items.all isTypeName
  | _ => false

/-- An optional member, checked where it is present. -/
def checkMember (members : Members) (key : String) (check : Json → Bool) : Bool :=
  match lookup members (ascii key) with
  | none => true
  | some v => check v

/-- The keywords that `validate_jsonschema_node` checks without descending. -/
def checkKeywords (members : Members) : Bool :=
  checkMember members "$schema" (fun v =>
      match v with
      | .string s => contains (ascii "draft-07") s
      | _ => false) &&
    checkMember members "type" validateType &&
    checkMember members "required" validateStringArray &&
    checkMember members "enum" isArray &&
    checkMember members "minimum" isNumber &&
    checkMember members "maximum" isNumber &&
    checkMember members "minLength" isInteger &&
    checkMember members "maxLength" isInteger &&
    checkMember members "format" isString &&
    checkMember members "$ref" isString &&
    checkMember members "definitions" isObject &&
    checkMember members "$defs" isObject

/-- `validate_composition_array`, with the check of a subschema. -/
def validateCompositionArray (node : Json → Bool) : Json → Bool
  | .array items => !items.isEmpty && items.all node
  | _ => false

/-- `validate_properties`, with the check of a subschema. -/
def validateProperties (node : Json → Bool) : Json → Bool
  | .object props => props.all fun p => node p.2
  | _ => false

/-- `additionalProperties`: a boolean or a subschema. -/
def validateAdditional (node : Json → Bool) : Json → Bool
  | .bool _ => true
  | v => node v

/-- `validate_jsonschema_node` with so many levels left: a node at depth 65 is refused. -/
def validateJsonschemaNode : ℕ → Json → Bool
  | 0, _ => false
  | levels + 1, .object members =>
      checkKeywords members &&
        checkMember members "properties" (validateProperties (validateJsonschemaNode levels)) &&
        checkMember members "items" (validateJsonschemaNode levels) &&
        checkMember members "additionalProperties"
          (validateAdditional (validateJsonschemaNode levels)) &&
        checkMember members "oneOf" (validateCompositionArray (validateJsonschemaNode levels)) &&
        checkMember members "anyOf" (validateCompositionArray (validateJsonschemaNode levels)) &&
        checkMember members "allOf" (validateCompositionArray (validateJsonschemaNode levels))
  | _, _ => false

/-- `validate_jsonschemas_strict`. -/
def validateJsonschemasStrict (schemaInput schemaOutput : Option Json) : Bool :=
  match schemaInput, schemaOutput with
  | some input, some output => validateJsonschemaNode 65 input && validateJsonschemaNode 65 output
  | _, _ => false

/-! ### The table -/

/-- `REGISTRY_CAP`. -/
def registryCap : ℕ := 64

/-- `registry_find`. -/
def registryFind (type version : List UInt8) (entries : List BlockEntry) : Option ℕ :=
  entries.findIdx? fun e => e.type == type && e.version == version

/-- `registry_upsert`: whether the block is new, nothing when the table is full. -/
def registryUpsert (type version manifestJson : List UInt8) (entries : List BlockEntry) :
    Option (Bool × List BlockEntry) :=
  match registryFind type version entries with
  | some idx => some (false, entries.modify idx fun e => { e with manifestJson := manifestJson })
  | none =>
      if registryCap ≤ entries.length then none
      else some (true, entries ++ [⟨copyField 128 type, copyField 64 version, manifestJson⟩])

/-- `registry_delete`: the last entry takes the place of the deleted one. -/
def registryDelete (type version : List UInt8) (entries : List BlockEntry) :
    Option (List BlockEntry) :=
  match registryFind type version entries with
  | none => none
  | some idx =>
      match entries.getLast? with
      | none => none
      | some last => some (entries.set idx last).dropLast

/-- Replace the table. -/
def setRegistry (entries : List BlockEntry) (g : Gateway) : Gateway := { g with registry := entries }

/-! ### The handlers -/

/-- What `handle_registry_write_common` finds wrong with a manifest, in the order of its checks: the
status, the code and the message. -/
def manifestError (members : Members) (type version : List UInt8) :
    Option (StatusLine × String × String) :=
  let schema := lookup members (ascii "schema")
  if asString (lookup members (ascii "type")) ≠ some type ∨
      asString (lookup members (ascii "version")) ≠ some version then
    some (.conflict, "conflict", "type/version mismatch with path")
  else if !checkMember members "capabilities" isArray then
    some (.badRequest, "invalid_request", "capabilities must be array")
  else if !checkMember members "capabilities" validateStringArray then
    some (.badRequest, "invalid_request", "capabilities items must be strings")
  else if !checkMember members "metadata" isObject then
    some (.badRequest, "invalid_request", "metadata must be object")
  else if !validateJsonschemasStrict (schema.bind (·.get? (ascii "input")))
      (schema.bind (·.get? (ascii "output"))) then
    some (.badRequest, "invalid_schema", "schema validation failed")
  else none

/-- The answer to a registry write, cut at 255 bytes. -/
def registryWriteBody (type version : List UInt8) (created : Bool) (now : ℤ) : List UInt8 :=
  (ascii "\x7b\"type\":\"" ++ type ++ ascii "\",\"version\":\"" ++ version ++
    ascii "\",\"status\":\"" ++ ascii (if created then "created" else "updated") ++
    ascii "\",\"ts\":" ++ decimal now ++ ascii "\x7d").take 255

/-- `handle_registry_write_common`; the errors are sent without a context. -/
def handleRegistryWriteCommon (h : Host) (x : Exchange) (type version body : List UInt8) (w : World) : World :=
  match asObject (h.jsonLoads body) with
  | none => sendErrorResponse .badRequest "invalid_request" "invalid JSON" {} w
  | some members =>
      match manifestError members type version with
      | some (status, code, message) => sendErrorResponse status code message {} w
      | none =>
          match h.jsonDumps (.object members) with
          | none =>
              sendErrorResponse .internalServerError "internal" "failed to serialize manifest" {} w
          | some manifest =>
              match registryUpsert type version (cstr manifest) w.gateway.registry with
              | none =>
                  sendErrorResponse .internalServerError "internal" "registry capacity reached" {} w
              | some (created, registry) =>
                  sendResponse (if created then .created else .ok)
                    (registryWriteBody type version created x.clock.answer)
                    (w.update (setRegistry registry))

/-- The answer to a deletion, cut at 255 bytes. -/
def registryDeleteBody (type version : List UInt8) (now : ℤ) : List UInt8 :=
  (ascii "\x7b\"status\":\"unregistered\",\"type\":\"" ++ type ++ ascii "\",\"version\":\"" ++ version ++
    ascii "\",\"ts\":" ++ decimal now ++ ascii "\x7d").take 255

/-- `handle_registry_delete`. -/
def handleRegistryDelete (x : Exchange) (type version : List UInt8) (w : World) : World :=
  match registryDelete type version w.gateway.registry with
  | none => sendErrorResponse .notFound "not_found" "block not found" {} w
  | some registry =>
      sendResponse .ok (registryDeleteBody type version x.clock.answer)
        (w.update (setRegistry registry))

end CGateway
