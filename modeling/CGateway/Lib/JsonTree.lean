import Mathlib.Data.List.Forall2
import CGateway.Lib.Json

/-! # JSON values as trees

What holds of a JSON value at every depth, and values that differ in some members only.

* `Json.induction` — induction over a value, the parts of a container given by membership;
* `isProper` — the values a C library can hold: the keys of an object are distinct C strings in UTF-8;
* `setMember_of_notMem` — a member with a new key goes to the end of an object;
* `Agree` — two values have the same shape and the same content but under secret keys, where a relation of
  their own holds;
* `mask` — a value with the members under secret keys replaced, with `agree_mask`, `mask_mask` and
  `mask_eq_of_agree`. -/

namespace Json

/-- The value has parts. -/
def isContainer : Json → Bool
  | .array _ => true
  | .object _ => true
  | _ => false

section Induction

variable {P : Json → Prop} (scalar : ∀ v, isContainer v = false → P v)
  (array : ∀ items, (∀ v ∈ items, P v) → P (.array items))
  (object : ∀ members, (∀ m ∈ members, P m.2) → P (.object members))
include scalar array object

-- The linter looks at each member of the block alone, and the lists use these through the values.
set_option linter.unusedSectionVars false in
mutual

private theorem all_of_parts : ∀ v, P v
  | .array items => array items (all_items items)
  | .object members => object members (all_members members)
  | .null => scalar _ rfl
  | .bool _ => scalar _ rfl
  | .integer _ => scalar _ rfl
  | .real _ => scalar _ rfl
  | .string _ => scalar _ rfl

private theorem all_items : ∀ items : List Json, ∀ v ∈ items, P v
  | [] => fun _ hv => absurd hv List.not_mem_nil
  | v :: items => List.forall_mem_cons.mpr ⟨all_of_parts v, all_items items⟩

private theorem all_members : ∀ members : Members, ∀ m ∈ members, P m.2
  | [] => fun _ hm => absurd hm List.not_mem_nil
  | (_, v) :: members => List.forall_mem_cons.mpr ⟨all_of_parts v, all_members members⟩

end

/-- Induction over a value: what holds of the parts holds of the whole. -/
@[elab_as_elim]
theorem induction (v : Json) : P v := all_of_parts scalar array object v

end Induction

/-! ### Proper values -/

/-- A key: a C string in UTF-8. -/
def isKey (key : List UInt8) : Bool := Utf8.valid key && !key.contains 0

mutual

/-- Objects have distinct keys, at every depth. -/
def isProper : Json → Bool
  | .array items => isProperItems items
  | .object members => decide (members.map (·.1)).Nodup && isProperMembers members
  | _ => true

/-- `isProper` for the items of an array. -/
def isProperItems : List Json → Bool
  | [] => true
  | v :: items => isProper v && isProperItems items

/-- `isProper` for the members of an object, with their keys. -/
def isProperMembers : List (List UInt8 × Json) → Bool
  | [] => true
  | (key, v) :: members => isKey key && isProper v && isProperMembers members

end

theorem isProper_array_iff {items : List Json} : isProper (.array items) = true ↔ ∀ v ∈ items, isProper v = true := by
  rw [isProper]
  induction items with
  | nil => simp [isProperItems]
  | cons v items ih => rw [isProperItems, Bool.and_eq_true, ih, List.forall_mem_cons]

theorem isProperMembers_iff {members : Members} :
    isProperMembers members = true ↔ ∀ m ∈ members, isKey m.1 = true ∧ isProper m.2 = true := by
  induction members with
  | nil => simp [isProperMembers]
  | cons m members ih =>
    obtain ⟨key, v⟩ := m
    rw [isProperMembers, Bool.and_eq_true, Bool.and_eq_true, ih, List.forall_mem_cons]

theorem isProper_object_iff {members : Members} :
    isProper (.object members) = true ↔
      (members.map (·.1)).Nodup ∧ ∀ m ∈ members, isKey m.1 = true ∧ isProper m.2 = true := by
  rw [isProper, Bool.and_eq_true, decide_eq_true_eq, isProperMembers_iff]

/-! ### Building an object -/

/-- A new member goes to the end. -/
theorem setMember_of_notMem {key : List UInt8} {members : Members} (h : key ∉ members.map (·.1)) (value : Json) :
    setMember key value members = members ++ [(key, value)] := by
  induction members with
  | nil => rfl
  | cons m members ih =>
    rw [List.map_cons, List.mem_cons, not_or] at h
    rw [setMember, if_neg (by simpa using Ne.symm h.1), ih h.2, List.cons_append]

/-! ### Values that agree outside secret members -/

section Agree

variable (secret : List UInt8 → Bool) (R : Json → Json → Prop)

mutual

/-- The values have the same shape and content, but under secret keys, where they are related by `R`. -/
def Agree : Json → Json → Prop
  | .array items, .array others => AgreeItems items others
  | .object members, .object others => AgreeMembers members others
  | v, w => v = w

/-- `Agree` for the items of an array. -/
def AgreeItems : List Json → List Json → Prop
  | [], [] => True
  | v :: items, w :: others => Agree v w ∧ AgreeItems items others
  | _, _ => False

/-- `Agree` for the members of an object: the keys are the same and in the same order. -/
def AgreeMembers : List (List UInt8 × Json) → List (List UInt8 × Json) → Prop
  | [], [] => True
  | (key, v) :: members, (key', w) :: others =>
      key = key' ∧ (if secret key then R v w else Agree v w) ∧ AgreeMembers members others
  | _, _ => False

end

/-- `Agree` for one member. -/
def AgreeMember (m m' : List UInt8 × Json) : Prop :=
  m.1 = m'.1 ∧ if secret m.1 then R m.2 m'.2 else Agree secret R m.2 m'.2

variable {secret R}

/-- A scalar agrees with itself only. -/
theorem agree_of_scalar {v w : Json} (h : isContainer v = false) : Agree secret R v w ↔ v = w := by
  cases v with
  | array items => cases h
  | object members => cases h
  | _ => cases w <;> exact Iff.rfl

theorem agree_array_iff {items : List Json} {w : Json} :
    Agree secret R (.array items) w ↔ ∃ others, w = .array others ∧ List.Forall₂ (Agree secret R) items others := by
  have hitems : ∀ items others : List Json,
      AgreeItems secret R items others ↔ List.Forall₂ (Agree secret R) items others := by
    intro items
    induction items with
    | nil =>
      intro others
      cases others with
      | nil => simp [AgreeItems]
      | cons w others => simp [AgreeItems]
    | cons v items ih =>
      intro others
      cases others with
      | nil => simp [AgreeItems]
      | cons w others => rw [AgreeItems, List.forall₂_cons, ih]
  cases w with
  | array others =>
    rw [Agree, hitems]
    exact ⟨fun h => ⟨others, rfl, h⟩, fun ⟨_, heq, h⟩ => by cases heq; exact h⟩
  | _ => simp [Agree]

theorem agree_object_iff {members : Members} {w : Json} :
    Agree secret R (.object members) w ↔
      ∃ others, w = .object others ∧ List.Forall₂ (AgreeMember secret R) members others := by
  have hmembers : ∀ members others : Members,
      AgreeMembers secret R members others ↔ List.Forall₂ (AgreeMember secret R) members others := by
    intro members
    induction members with
    | nil =>
      intro others
      cases others with
      | nil => simp [AgreeMembers]
      | cons w others => simp [AgreeMembers]
    | cons m members ih =>
      intro others
      cases others with
      | nil => simp [AgreeMembers]
      | cons m' others =>
        rw [AgreeMembers, List.forall₂_cons, ih, AgreeMember, and_assoc]
  cases w with
  | object others =>
    rw [Agree, hmembers]
    exact ⟨fun h => ⟨others, rfl, h⟩, fun ⟨_, heq, h⟩ => by cases heq; exact h⟩
  | _ => simp [Agree]

end Agree

/-! ### Masking -/

section Mask

variable (secret : List UInt8 → Bool) (cover : Json)

mutual

/-- The value with what is under secret keys replaced, at every depth. -/
def mask : Json → Json
  | .array items => .array (maskItems items)
  | .object members => .object (maskMembers members)
  | v => v

/-- `mask` for the items of an array. -/
def maskItems : List Json → List Json
  | [] => []
  | v :: items => mask v :: maskItems items

/-- `mask` for the members of an object. -/
def maskMembers : List (List UInt8 × Json) → List (List UInt8 × Json)
  | [] => []
  | (key, v) :: members => (key, if secret key then cover else mask v) :: maskMembers members

end

/-- `mask` for one member. -/
def maskMember (m : List UInt8 × Json) : List UInt8 × Json :=
  (m.1, if secret m.1 then cover else mask secret cover m.2)

variable {secret cover}

theorem mask_of_scalar {v : Json} (h : isContainer v = false) : mask secret cover v = v := by
  cases v with
  | array items => cases h
  | object members => cases h
  | _ => rfl

theorem mask_array (items : List Json) : mask secret cover (.array items) = .array (items.map (mask secret cover)) := by
  rw [mask]
  congr 1
  induction items with
  | nil => rfl
  | cons v items ih => rw [maskItems, ih, List.map_cons]

theorem mask_object (members : Members) :
    mask secret cover (.object members) = .object (members.map (maskMember secret cover)) := by
  rw [mask]
  congr 1
  induction members with
  | nil => rfl
  | cons m members ih => rw [maskMembers, ih, List.map_cons, maskMember]

/-- Masking keeps the keys. -/
theorem map_fst_maskMember (members : Members) :
    (members.map (maskMember secret cover)).map (·.1) = members.map (·.1) := by
  rw [List.map_map]
  rfl

/-- **Masking replaces what is secret and nothing else.** -/
theorem agree_mask (v : Json) : Agree secret (fun _ w => w = cover) v (mask secret cover v) := by
  induction v using Json.induction with
  | scalar v h => exact (agree_of_scalar h).mpr (mask_of_scalar h).symm
  | array items ih =>
    rw [mask_array, agree_array_iff]
    exact ⟨_, rfl, List.forall₂_map_right_iff.mpr (List.forall₂_same.mpr ih)⟩
  | object members ih =>
    rw [mask_object, agree_object_iff]
    refine ⟨_, rfl, List.forall₂_map_right_iff.mpr (List.forall₂_same.mpr fun m hm => ⟨rfl, ?_⟩)⟩
    unfold maskMember
    split
    · rfl
    · exact ih m hm

/-- **Masking twice is masking once.** -/
theorem mask_mask (v : Json) : mask secret cover (mask secret cover v) = mask secret cover v := by
  induction v using Json.induction with
  | scalar v h => rw [mask_of_scalar h, mask_of_scalar h]
  | array items ih =>
    rw [mask_array, mask_array, List.map_map]
    exact congrArg Json.array (List.map_congr_left ih)
  | object members ih =>
    rw [mask_object, mask_object, List.map_map]
    refine congrArg Json.object (List.map_congr_left fun m hm => ?_)
    rw [Function.comp_apply, maskMember, maskMember]
    by_cases hsecret : secret m.1 = true
    · simp only [hsecret, if_true]
    · simp only [hsecret, if_false, Bool.false_eq_true, ih m hm]

/-- **What is secret has no influence** on the masked value. -/
theorem mask_eq_of_agree {v w : Json} (h : Agree secret (fun _ _ => True) v w) :
    mask secret cover v = mask secret cover w := by
  induction v using Json.induction generalizing w with
  | scalar v hv => rw [(agree_of_scalar hv).mp h]
  | array items ih =>
    obtain ⟨others, rfl, hitems⟩ := agree_array_iff.mp h
    rw [mask_array, mask_array]
    congr 1
    induction hitems with
    | nil => rfl
    | cons hhead htail ihtail =>
      rw [List.map_cons, List.map_cons, ih _ List.mem_cons_self hhead,
        ihtail (fun v hv => ih v (List.mem_cons_of_mem _ hv))
          (agree_array_iff.mpr ⟨_, rfl, htail⟩)]
  | object members ih =>
    obtain ⟨others, rfl, hmembers⟩ := agree_object_iff.mp h
    rw [mask_object, mask_object]
    congr 1
    induction hmembers with
    | nil => rfl
    | @cons m m' rest rest' hhead htail ihtail =>
      have hmember : maskMember secret cover m = maskMember secret cover m' := by
        obtain ⟨hkey, hvalue⟩ := hhead
        rw [maskMember, maskMember, ← hkey]
        by_cases hsecret : secret m.1 = true
        · simp only [hsecret, if_true]
        · simp only [hsecret, if_false, Bool.false_eq_true] at hvalue ⊢
          rw [ih m List.mem_cons_self hvalue]
      rw [List.map_cons, List.map_cons, hmember, ihtail (fun v hv => ih v (List.mem_cons_of_mem _ hv))
          (agree_object_iff.mpr ⟨_, rfl, htail⟩)]

/-- A masked value is proper. -/
theorem isProper_mask (hcover : isProper cover = true) {v : Json} (h : isProper v = true) :
    isProper (mask secret cover v) = true := by
  induction v using Json.induction with
  | scalar v hv => rw [mask_of_scalar hv, h]
  | array items ih =>
    rw [mask_array, isProper_array_iff]
    intro w hw
    obtain ⟨v, hv, rfl⟩ := List.mem_map.mp hw
    exact ih v hv (isProper_array_iff.mp h v hv)
  | object members ih =>
    obtain ⟨hkeys, hmembers⟩ := isProper_object_iff.mp h
    rw [mask_object, isProper_object_iff, map_fst_maskMember]
    refine ⟨hkeys, fun m' hm' => ?_⟩
    obtain ⟨m, hm, rfl⟩ := List.mem_map.mp hm'
    refine ⟨(hmembers m hm).1, ?_⟩
    unfold maskMember
    split
    · exact hcover
    · exact ih m hm (hmembers m hm).2

end Mask

end Json
