import CGateway.Lib.CString
import CGateway.Lib.JsonTree

/-! # The PII filter of the JSON log

`filter_pii_json` and `filter_pii_json_array` of `http_server.c` copy a JSON value for the log and leave out
what stands under a sensitive key. They build the copy member by member; on the values of the JSON library, whose
objects have distinct keys, that comes to masking the sensitive members (`filterPiiJson_eq_mask`).

* `isSensitiveField` — the keys, in any letter case;
* `filterPiiJson` — the filter, with the object it fills;
* `pii_filter` — it redacts at every depth, changes nothing else, and tells nothing of what it redacts. -/

namespace CGateway

open Bytes CString Json

/-- The field names of `is_sensitive_field`. -/
def sensitiveFields : List (List UInt8) :=
  ["password", "api_key", "secret", "token", "access_token", "refresh_token", "authorization", "credit_card",
    "ssn", "email", "phone", "bearer", "x-api-key", "x-auth-token", "x-authorization"].map ascii

/-- `is_sensitive_field`. -/
def isSensitiveField (fieldName : List UInt8) : Bool := sensitiveFields.any (equalsIgnoreCase fieldName)

/-- The string that stands for a sensitive value. -/
def redacted : Json := .string (ascii "[REDACTED]")

/-- `json_object_set_new`, which refuses a key that is not UTF-8. -/
def jsonObjectSet (key : List UInt8) (value : Json) (members : Members) : Members :=
  if Utf8.valid key then setMember key value members else members

mutual

/-- `filter_pii_json`; the allocations are taken to succeed. -/
def filterPiiJson : Json → Json
  | .object members => .object (filterPiiMembers members [])
  | .array items => .array (filterPiiJsonArray items)
  | v => v

/-- `filter_pii_json_array`, on the items of the array. The three cases of the loop (object, array, other) are
those of `filter_pii_json`. -/
def filterPiiJsonArray : List Json → List Json
  | [] => []
  | value :: items => filterPiiJson value :: filterPiiJsonArray items

/-- The loop of `filter_pii_json` over the members, with the object filled so far. -/
def filterPiiMembers : List (List UInt8 × Json) → Members → Members
  | [], filtered => filtered
  | (key, value) :: members, filtered =>
      filterPiiMembers members
        (jsonObjectSet key (if isSensitiveField key then redacted else filterPiiJson value) filtered)

end

/-- A key is sensitive in any letter case. -/
theorem isSensitiveField_iff (key : List UInt8) : isSensitiveField key = true ↔ key.map toLower ∈ sensitiveFields := by
  have hlower : sensitiveFields.map (·.map toLower) = sensitiveFields := by decide
  rw [isSensitiveField, List.any_eq_true]
  constructor
  · rintro ⟨name, hname, hkey⟩
    rw [equalsIgnoreCase, beq_iff_eq] at hkey
    rw [hkey, ← hlower]
    exact List.mem_map_of_mem hname
  · intro hkey
    rw [← hlower] at hkey
    obtain ⟨name, hname, heq⟩ := List.mem_map.mp hkey
    exact ⟨name, hname, by rw [equalsIgnoreCase, heq, beq_self_eq_true]⟩

/-! ### The copy -/

/-- The items of an array are filtered one by one. -/
theorem filterPiiJsonArray_eq_map {items : List Json}
    (h : ∀ v ∈ items, filterPiiJson v = mask isSensitiveField redacted v) :
    filterPiiJsonArray items = items.map (mask isSensitiveField redacted) := by
  induction items with
  | nil => rfl
  | cons v items ih =>
    rw [List.forall_mem_cons] at h
    rw [filterPiiJsonArray, List.map_cons, h.1, ih h.2]

/-- The loop over the members. Those that were copied have other keys than those to come, so each one goes to the
end. -/
theorem filterPiiMembers_eq_append {members : Members}
    (h : ∀ m ∈ members, isKey m.1 = true ∧ filterPiiJson m.2 = mask isSensitiveField redacted m.2)
    (filtered : Members) (hnodup : (filtered.map (·.1) ++ members.map (·.1)).Nodup) :
    filterPiiMembers members filtered = filtered ++ members.map (maskMember isSensitiveField redacted) := by
  induction members generalizing filtered with
  | nil => rw [filterPiiMembers, List.map_nil, List.append_nil]
  | cons m members ih =>
    obtain ⟨key, value⟩ := m
    obtain ⟨⟨hkey, hvalue⟩, hmembers⟩ := List.forall_mem_cons.mp h
    have hvalid : Utf8.valid key = true := ((Bool.and_eq_true _ _).mp hkey).1
    have hnew : key ∉ filtered.map (·.1) := by
      intro hmem
      exact (List.nodup_append.mp hnodup).2.2 key hmem key List.mem_cons_self rfl
    rw [filterPiiMembers, jsonObjectSet, if_pos hvalid, setMember_of_notMem hnew, hvalue, ih hmembers _ ?_,
      List.append_assoc, List.map_cons, List.singleton_append, maskMember]
    rw [List.map_append, List.append_assoc]
    exact hnodup

/-- The filter masks the sensitive members of a value with distinct keys. -/
theorem filterPiiJson_eq_mask {v : Json} (h : isProper v = true) :
    filterPiiJson v = mask isSensitiveField redacted v := by
  induction v using Json.induction with
  | scalar v hv =>
    rw [mask_of_scalar hv]
    cases v with
    | array items => cases hv
    | object members => cases hv
    | _ => rfl
  | array items ih =>
    rw [isProper_array_iff] at h
    rw [filterPiiJson, mask_array, filterPiiJsonArray_eq_map fun v hv => ih v hv (h v hv)]
  | object members ih =>
    obtain ⟨hkeys, hmembers⟩ := isProper_object_iff.mp h
    have hloop := filterPiiMembers_eq_append
      (fun m hm => ⟨(hmembers m hm).1, ih m hm (hmembers m hm).2⟩) [] (by simpa using hkeys)
    rw [filterPiiJson, mask_object, hloop, List.nil_append]

/-- **The PII filter.** A value of the JSON library is copied with `[REDACTED]` under every sensitive key (in any
letter case, at every depth) and is the same otherwise; the copy is a fixed point of the filter; and values that
differ under sensitive keys only have the same copy. -/
theorem pii_filter {v : Json} (h : isProper v = true) :
    (∀ key, isSensitiveField key = true ↔ key.map toLower ∈ sensitiveFields) ∧
      Agree isSensitiveField (fun _ w => w = redacted) v (filterPiiJson v) ∧
      filterPiiJson (filterPiiJson v) = filterPiiJson v ∧
      ∀ w, isProper w = true → Agree isSensitiveField (fun _ _ => True) v w →
        filterPiiJson v = filterPiiJson w := by
  have hmask := filterPiiJson_eq_mask h
  have hproper : isProper (mask isSensitiveField redacted v) = true := isProper_mask rfl h
  refine ⟨isSensitiveField_iff, ?_, ?_, ?_⟩
  · rw [hmask]
    exact agree_mask v
  · rw [hmask, filterPiiJson_eq_mask hproper, mask_mask]
  · intro w hw hagree
    rw [hmask, filterPiiJson_eq_mask hw]
    exact mask_eq_of_agree hagree

/-- A social security number within an array within an object. -/
def loggedRequest (ssn : Json) : Json :=
  .object [(ascii "id", .integer 7), (ascii "to", .array [.object [(ascii "SSN", ssn), (ascii "age", .null)]])]

/-- Two requests that differ there have the same copy, which has neither of the two values. -/
theorem pii_filter_request :
    filterPiiJson (loggedRequest (.string (ascii "a"))) = filterPiiJson (loggedRequest (.array [.null])) ∧
      filterPiiJson (loggedRequest (.string (ascii "a"))) = loggedRequest redacted := by
  have hproper : isProper (loggedRequest (.string (ascii "a"))) = true ∧
      isProper (loggedRequest (.array [.null])) = true := by decide +kernel
  constructor
  · refine (pii_filter hproper.1).2.2.2 _ hproper.2 ?_
    have hssn : isSensitiveField (ascii "SSN") = true := by decide
    simp [loggedRequest, Agree, AgreeItems, AgreeMembers, hssn]
  · rfl

end CGateway
