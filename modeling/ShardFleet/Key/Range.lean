import ShardFleet.Key.Order
import ShardFleet.ShardId

/-! Half-open ranges of keys, each owned by one shard. -/

namespace ShardFleet

/-- The keys from `start` on, up to but not including `stop`. -/
structure KeyRange where
  start : ShardKey
  /-- Without a stop the range has no upper end. -/
  stop : Option ShardKey
  shard : ShardId
  deriving DecidableEq, Repr, Inhabited

namespace KeyRange

/-- Whether the range holds `key`. -/
def contains (range : KeyRange) (key : ShardKey) : Bool :=
  (compare range.start key).isLE && range.stop.all fun stop => compare key stop = .lt

/-- Whether no key can be in the range. -/
def isEmpty (range : KeyRange) : Bool :=
  range.stop.any fun stop => (compare stop range.start).isLE

/-- Whether a range reaches past the start of the one after it. -/
def reaches (range next : KeyRange) : Bool :=
  range.stop.all fun stop => compare stop next.start = .gt

/-- Ranges by their start; of ranges with one start the order given stays. -/
def sort (ranges : List KeyRange) : List KeyRange :=
  ranges.mergeSort fun a b => (compare a.start b.start).isLE

end KeyRange

end ShardFleet
