/-!
Two that go on side by side and take turns at going first.
-/

namespace ShardFleet

/-- Which of two goes first. -/
inductive Side where
  | left
  | right
  deriving DecidableEq, Repr, Inhabited

/-- Who goes first the next time. -/
def Side.other : Side → Side
  | .left => .right
  | .right => .left

end ShardFleet
