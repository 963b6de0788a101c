import Mathlib.Data.List.Nodup

/-!
Lists with keys, and lists in ascending order of a key.

Where no two keys are equal, a key finds the one that has it (`find?_key_eq_some_iff`). The places
of some members of a list ascend with the list (`places_pairwise_lt`). A list sorted by a key
ascends (`pairwise_sortBy`), strictly so if no two keys are equal, and lists that ascend strictly
are equal as soon as they have the same members (`eq_of_ascending`).
-/

namespace ShardFleet

section Find

variable {α κ : Type} [DecidableEq κ] {key : α → κ} {xs : List α} {k : κ} {x : α}

/-- Among things with distinct keys a key finds the thing that has it. -/
theorem find?_key_eq_some_iff (distinct : (xs.map key).Nodup) :
    xs.find? (key · = k) = some x ↔ x ∈ xs ∧ key x = k := by
  constructor
  · intro found
    exact ⟨List.mem_of_find?_eq_some found, by simpa using List.find?_some found⟩
  · rintro ⟨mem, rfl⟩
    cases found : xs.find? (key · = key x) with
    | none => simpa using List.find?_eq_none.mp found x mem
    | some y =>
        have named : key y = key x := by simpa using List.find?_some found
        exact congrArg some
          (List.inj_on_of_nodup_map distinct (List.mem_of_find?_eq_some found) mem named)

theorem isNone_find?_key : (xs.find? (key · = k)).isNone ↔ k ∉ xs.map key := by
  rw [Option.isNone_iff_eq_none, List.find?_eq_none, List.mem_map]
  simp

end Find

/-- The places of the members that are kept come in ascending order. -/
theorem places_pairwise_lt {α : Type} (xs : List α) (keep : α × Nat → Bool) :
    ((xs.zipIdx.filter keep).map Prod.snd).Pairwise (· < ·) := by
  have places : (xs.zipIdx.map Prod.snd).Pairwise (· < ·) := by
    rw [List.zipIdx_map_snd]
    exact List.pairwise_lt_range'
  exact places.sublist (List.filter_sublist.map Prod.snd)

variable {α κ : Type} [Ord κ]

theorem isLE_total [Std.TransOrd κ] (a b : κ) :
    ((compare a b).isLE || (compare b a).isLE) = true := by
  have swapped : compare b a = (compare a b).swap := Std.OrientedCmp.eq_swap
  rw [swapped]
  cases compare a b <;> rfl

theorem pairwise_sortBy [Std.TransOrd κ] (key : α → κ) (xs : List α) :
    (xs.mergeSort fun a b => (compare (key a) (key b)).isLE).Pairwise
      fun a b => (compare (key a) (key b)).isLE = true :=
  List.pairwise_mergeSort (fun _ _ _ => Std.TransCmp.isLE_trans)
    (fun a b => isLE_total (key a) (key b)) xs

/-- Of distinct things in ascending order each is before the next. -/
theorem pairwise_lt_of_nodup [Std.LawfulEqOrd κ] {xs : List κ}
    (ascending : xs.Pairwise fun a b => (compare a b).isLE = true) (nodup : xs.Nodup) :
    xs.Pairwise fun a b => compare a b = .lt := by
  refine (ascending.and nodup).imp ?_
  rintro a b ⟨below, different⟩
  cases order : compare a b with
  | lt => rfl
  | eq => exact absurd (Std.LawfulEqCmp.eq_of_compare order) different
  | gt => simp [order] at below

theorem nodup_of_ascending [Std.TransOrd κ] (key : α → κ) {xs : List α}
    (ascending : xs.Pairwise fun a b => compare (key a) (key b) = .lt) :
    (xs.map key).Nodup := by
  refine List.pairwise_map.mpr (ascending.imp ?_)
  intro a b below same
  rw [same, Std.ReflOrd.compare_self] at below
  cases below

/-- Two strictly ascending lists with the same members are one list. -/
theorem eq_of_ascending [Std.TransOrd κ] (key : α → κ) {xs ys : List α}
    (first : xs.Pairwise fun a b => compare (key a) (key b) = .lt)
    (second : ys.Pairwise fun a b => compare (key a) (key b) = .lt)
    (same : ∀ x, x ∈ xs ↔ x ∈ ys) : xs = ys := by
  have perm : xs.Perm ys :=
    (List.perm_ext_iff_of_nodup (nodup_of_ascending key first).of_map
      (nodup_of_ascending key second).of_map).mpr same
  refine List.Perm.eq_of_pairwise ?_ first second perm
  intro a b _ _ below above
  have back := Std.OrientedCmp.gt_of_lt above
  rw [below] at back
  cases back

/-- Sorted lists are equal if and only if one is a rearrangement of the other. -/
theorem sort_eq_sort_iff [Std.TransOrd κ] [Std.LawfulEqOrd κ] {xs ys : List κ} :
    (xs.mergeSort fun a b => (compare a b).isLE) = (ys.mergeSort fun a b => (compare a b).isLE) ↔
      xs.Perm ys := by
  constructor
  · intro same
    have sorted := List.mergeSort_perm ys fun a b => (compare a b).isLE
    exact (List.mergeSort_perm xs _).symm.trans (same ▸ sorted)
  · intro perm
    refine List.Perm.eq_of_pairwise ?_ (pairwise_sortBy id xs) (pairwise_sortBy id ys)
      ((List.mergeSort_perm xs _).trans (perm.trans (List.mergeSort_perm ys _).symm))
    intro a b _ _ below above
    exact Std.LawfulEqCmp.eq_of_compare (Std.OrientedCmp.isLE_antisymm below above)

end ShardFleet
