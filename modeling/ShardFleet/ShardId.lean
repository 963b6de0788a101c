/-! Names of shards, ordered as text. -/

namespace ShardFleet

/-- The name of a shard. -/
structure ShardId where
  name : String
  deriving DecidableEq, Repr, Inhabited

namespace ShardId

instance : Ord ShardId := ⟨fun a b => compare a.name b.name⟩

instance : ToString ShardId := ⟨ShardId.name⟩

/-- A shard without a name is in no topology. -/
def isEmpty (id : ShardId) : Bool := id.name.isEmpty

theorem compare_def (a b : ShardId) : compare a b = compare a.name b.name := rfl

instance : Std.TransOrd ShardId where
  eq_swap := by
    intro a b
    rw [compare_def, compare_def]
    exact Std.OrientedCmp.eq_swap
  isLE_trans := by
    intro a b c
    rw [compare_def, compare_def, compare_def]
    exact Std.TransCmp.isLE_trans

instance : Std.LawfulEqOrd ShardId where
  eq_of_compare := by
    intro a b h
    rw [compare_def] at h
    cases a
    cases b
    exact congrArg ShardId.mk (Std.LawfulEqCmp.compare_eq_iff_eq.mp h)

/-- Puts names in ascending order; equal names keep their places. -/
def sort (ids : List ShardId) : List ShardId := ids.mergeSort fun a b => (compare a b).isLE

end ShardId

end ShardFleet
