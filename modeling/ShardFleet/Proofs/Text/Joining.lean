/-!
Pieces with a joint between them.

What is done to pieces that are joined is done to each of them: joining in two steps
(`intercalate_append`), taking members out (`filter_intercalate`) and counting them
(`count_intercalate`).
-/

namespace ShardFleet

variable {α : Type} (joint : List α)

/-- Two rows of pieces that are joined one after the other have the joint between them. -/
theorem intercalate_append {pieces more : List (List α)} (some : pieces ≠ []) (others : more ≠ []) :
    joint.intercalate (pieces ++ more) =
      joint.intercalate pieces ++ joint ++ joint.intercalate more := by
  induction pieces with
  | nil => exact absurd rfl some
  | cons piece rest ih =>
      cases rest with
      | nil =>
          rw [List.singleton_append, List.intercalate_cons_of_ne_nil others,
            List.intercalate_singleton]
      | cons next later =>
          rw [List.cons_append, List.cons_append, List.intercalate_cons_cons,
            ← List.cons_append, ih (List.cons_ne_nil _ _), List.intercalate_cons_cons]
          simp only [List.append_assoc]

theorem filter_intercalate (pieces : List (List α)) (keep : α → Bool) :
    (joint.intercalate pieces).filter keep =
      (joint.filter keep).intercalate (pieces.map (List.filter keep)) := by
  induction pieces with
  | nil => rfl
  | cons piece rest ih =>
      cases rest with
      | nil => simp only [List.intercalate_singleton, List.map_cons, List.map_nil]
      | cons next later =>
          rw [List.intercalate_cons_cons, List.filter_append, List.filter_append, ih]
          exact List.intercalate_cons_cons.symm

/-- Where the joint has something not at all and every piece has it equally often, the pieces have
it so often each. -/
theorem count_intercalate [BEq α] [LawfulBEq α] {x : α} (absent : x ∉ joint)
    {pieces : List (List α)} {times : Nat} (each : ∀ piece ∈ pieces, piece.count x = times) :
    (joint.intercalate pieces).count x = times * pieces.length := by
  induction pieces with
  | nil => rfl
  | cons piece rest ih =>
      obtain ⟨first, others⟩ := List.forall_mem_cons.mp each
      cases rest with
      | nil => rw [List.intercalate_singleton, first, List.length_singleton, Nat.mul_one]
      | cons next later =>
          calc (joint.intercalate (piece :: next :: later)).count x
              = piece.count x + (joint.intercalate (next :: later)).count x := by
                rw [List.intercalate_cons_cons, List.count_append, List.count_append,
                  List.count_eq_zero.mpr absent, Nat.add_zero]
            _ = times + times * (next :: later).length := by rw [first, ih others]
            _ = times * (piece :: next :: later).length := Nat.add_comm _ _

end ShardFleet
