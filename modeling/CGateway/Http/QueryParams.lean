import CGateway.Http.Subscriptions

/-! # The parameters of a query

`query_get_param` walks over a query with two searches at each step, one for the next equals sign and one for the
next ampersand, so the equals sign may belong to a later parameter. It is compared here with a reading that takes
the query apart first.

* `queryParameters` — the parameters of a path: split at ampersands, each piece at its first equals sign;
* `nameAndValue_of_name_eq`, `name_of_nameAndValue` — the text up to the next equals sign is a key without
  ampersands just when the next piece is a parameter of that name;
* `query_get_param_lookup` — `query_get_param` finds the first parameter with its name. -/

namespace CGateway

open Bytes CString

/-! ### The reference reading -/

/-- A piece of a query as a parameter: name and value around the first equals sign. -/
def nameAndValue (piece : List UInt8) : Option (List UInt8 × List UInt8) :=
  if 61 ∈ piece then some (piece.takeWhile (· != 61), (piece.dropWhile (· != 61)).drop 1) else none

/-- The parameters of a query, pieces without an equals sign left out. -/
def parametersOf (q : List UInt8) : List (List UInt8 × List UInt8) := (q.splitOn 38).filterMap nameAndValue

/-- The parameters behind the first question mark of a path. -/
def queryParameters (path : List UInt8) : List (List UInt8 × List UInt8) :=
  parametersOf ((path.dropWhile (· != 63)).drop 1)

section Pieces

variable {q key : List UInt8}

/-- A name, an equals sign and a value. -/
theorem nameAndValue_append {name value : List UInt8} (hname : (61 : UInt8) ∉ name) :
    nameAndValue (name ++ 61 :: value) = some (name, value) := by
  rw [nameAndValue, if_pos (by simp), takeWhile_append_sep hname, drop_dropWhile_append_sep hname]

/-- The parameters of a query, one piece at a time. -/
theorem parametersOf_eq (q : List UInt8) : parametersOf q =
    (nameAndValue (q.takeWhile (· != 38))).toList ++ parametersOf ((q.dropWhile (· != 38)).drop 1) := by
  have hcons : ∀ (piece : List UInt8) (pieces : List (List UInt8)),
      (piece :: pieces).filterMap nameAndValue = (nameAndValue piece).toList ++ pieces.filterMap nameAndValue := by
    intro piece pieces
    rw [List.filterMap_cons]
    cases nameAndValue piece <;> rfl
  by_cases hamp : (38 : UInt8) ∈ q
  · have hsplit : q.splitOn 38 = q.takeWhile (· != 38) :: ((q.dropWhile (· != 38)).drop 1).splitOn 38 := by
      conv_lhs => rw [eq_append_sep hamp]
      refine List.splitOnP_append_cons_of_forall_mem ?_ _ (by decide) _
      intro b hb
      simpa using List.mem_takeWhile_imp hb
    rw [parametersOf, hsplit, hcons]
    rfl
  · -- the last piece: what is left is empty, and an empty query has no parameter
    have hfree : ∀ b ∈ q, (b != 38) = true := bne_of_sep_notMem hamp
    rw [parametersOf, List.splitOn_eq_singleton hamp, hcons, List.takeWhile_eq_self_iff.mpr hfree,
      List.dropWhile_eq_nil_iff.mpr hfree]
    rfl

/-- What is left behind a piece is shorter. -/
theorem length_behind_piece_lt (hsome : q ≠ []) : ((q.dropWhile (· != 38)).drop 1).length < q.length := by
  have hdrop : (q.dropWhile (· != 38)).length ≤ q.length := (List.dropWhile_sublist _).length_le
  have hpos : 0 < q.length := List.length_pos_iff.mpr hsome
  rw [List.length_drop]
  omega

/-- Without an equals sign there is no parameter. -/
theorem parametersOf_eq_nil (heq : (61 : UInt8) ∉ q) : parametersOf q = [] := by
  induction hlength : q.length using Nat.strong_induction_on generalizing q with
  | _ n ih =>
    subst hlength
    rcases eq_or_ne q [] with rfl | hsome
    · rfl
    · have hpiece : nameAndValue (q.takeWhile (· != 38)) = none :=
        if_neg fun hmem => heq ((List.takeWhile_sublist _).mem hmem)
      have hbehind : (61 : UInt8) ∉ (q.dropWhile (· != 38)).drop 1 :=
        fun hmem => heq (((List.drop_sublist _ _).trans (List.dropWhile_sublist _)).mem hmem)
      rw [parametersOf_eq, hpiece, ih _ (length_behind_piece_lt hsome) hbehind rfl]
      rfl

/-- Where the text up to the next equals sign is a key without ampersands, the next piece is a parameter of that
name. -/
theorem nameAndValue_of_name_eq (hamp : (38 : UInt8) ∉ key) (heq : (61 : UInt8) ∈ q)
    (hname : q.takeWhile (· != 61) = key) :
    nameAndValue (q.takeWhile (· != 38)) = some (key, ((q.dropWhile (· != 61)).drop 1).takeWhile (· != 38)) := by
  have hfree : (61 : UInt8) ∉ key := hname ▸ sep_notMem_takeWhile 61 q
  conv_lhs => rw [eq_append_sep heq, hname]
  rw [List.takeWhile_append_of_pos (bne_of_sep_notMem hamp), List.takeWhile_cons_of_pos (by decide),
    nameAndValue_append hfree]

/-- The name of the next piece is the text up to the next equals sign. -/
theorem name_of_nameAndValue {name value : List UInt8}
    (h : nameAndValue (q.takeWhile (· != 38)) = some (name, value)) : q.takeWhile (· != 61) = name := by
  rw [nameAndValue] at h
  split at h
  · next hmem =>
      obtain ⟨rfl, -⟩ := Prod.mk.inj (Option.some.inj h)
      have hfree := sep_notMem_takeWhile 61 (q.takeWhile (· != 38))
      conv_lhs => rw [← @List.takeWhile_append_dropWhile _ (· != 38) q, eq_append_sep hmem, List.append_assoc]
      exact takeWhile_append_sep hfree
  · cases h

/-! ### The walk over the query -/

/-- **One step of `query_get_param`.** The next piece is the parameter, or is passed over. -/
theorem queryParam_succ (hamp : (38 : UInt8) ∉ key) (n fuel : ℕ) (q : List UInt8) :
    queryParam key (n + 1) (fuel + 1) q =
      if 61 ∉ q then none
      else if q.takeWhile (· != 61) = key then
        some ((((q.dropWhile (· != 61)).drop 1).takeWhile (· != 38)).take n)
      else queryParam key (n + 1) fuel ((q.dropWhile (· != 38)).drop 1) := by
  have hend : (q = [] ∨ 61 ∉ q) ↔ 61 ∉ q := by
    refine or_iff_right_of_imp ?_
    rintro rfl
    exact List.not_mem_nil
  rw [queryParam]
  simp only [hend]
  split
  · rfl
  · next heq =>
      rw [not_not] at heq
      split
      · next hname =>
          have hlt := length_name_lt_piece hamp heq hname
          have hpiece : (q.takeWhile (· != 38)).length =
              key.length + (((q.dropWhile (· != 61)).drop 1).takeWhile (· != 38)).length + 1 := by
            conv_lhs => rw [eq_append_sep heq, hname]
            rw [List.takeWhile_append_of_pos (bne_of_sep_notMem hamp), List.takeWhile_cons_of_pos (by decide),
              List.length_append, List.length_cons]
            omega
          generalize (q.dropWhile (· != 61)).drop 1 = value at hpiece ⊢
          rw [hname, if_pos hlt, Nat.add_sub_cancel]
          have hvalue : value.take (value.takeWhile (· != 38)).length = value.takeWhile (· != 38) :=
            List.prefix_iff_eq_take.mp (List.takeWhile_prefix _) |>.symm
          rw [Nat.min_comm, ← List.take_take,
            show (q.takeWhile (· != 38)).length - key.length - 1 = (value.takeWhile (· != 38)).length by omega, hvalue]
      · rfl

/-- The walk finds the first parameter with the name of the key. -/
theorem queryParam_eq_lookup (hamp : (38 : UInt8) ∉ key) (n fuel : ℕ) (q : List UInt8) (hfuel : q.length < fuel) :
    queryParam key (n + 1) fuel q = ((parametersOf q).lookup key).map (·.take n) := by
  -- by induction on the steps left: a piece that is passed over is no parameter of that name
  induction fuel generalizing q with
  | zero => exact absurd hfuel (Nat.not_lt_zero _)
  | succ fuel ih =>
    rw [queryParam_succ hamp]
    split
    · next hnone => rw [parametersOf_eq_nil hnone, List.lookup_nil, Option.map_none]
    · next heq =>
        rw [not_not] at heq
        split
        · next hname =>
            rw [parametersOf_eq, nameAndValue_of_name_eq hamp heq hname, Option.toList_some, List.singleton_append,
              List.lookup_cons, beq_self_eq_true, Option.map_some]
        · next hname =>
            have hshort := length_behind_piece_lt (List.ne_nil_of_mem heq)
            rw [ih _ (by omega), parametersOf_eq q]
            cases hpiece : nameAndValue (q.takeWhile (· != 38)) with
            | none => rw [Option.toList_none, List.nil_append]
            | some param =>
              have hother : (key == param.1) = false := by
                rw [beq_eq_false_iff_ne]
                rintro rfl
                exact hname (name_of_nameAndValue hpiece)
              rw [Option.toList_some, List.singleton_append, List.lookup_cons, hother]

end Pieces

/-- **Query parameters.** For a key without ampersands `query_get_param` returns the value of the first parameter
with that name, cut to what the buffer holds beside the terminator, and nothing if there is none. -/
theorem query_get_param_lookup (path key : List UInt8) (hamp : (38 : UInt8) ∉ key) (n : ℕ) :
    queryGetParam path key (n + 1) = ((queryParameters path).lookup key).map (·.take n) := by
  rw [queryGetParam, queryParameters]
  split
  · next hnone =>
      rw [hnone]
      rfl
  · next b q hq =>
      rw [hq, List.drop_one, List.tail_cons]
      exact queryParam_eq_lookup hamp n _ q (Nat.lt_succ_self _)

/-- A piece without an equals sign and an empty piece in front of the parameter, which is cut to two bytes. -/
theorem query_get_param_lookup_cut :
    queryGetParam (ascii "/p?a&&k=vwx&k=z") (ascii "k") 3 = some (ascii "vw") := by
  rw [query_get_param_lookup _ _ (by decide) 2]
  decide +kernel

end CGateway
