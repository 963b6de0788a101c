import ShardFleet.Proofs.Ring.Ownership
import ShardFleet.Proofs.Scatter.Scripts
import ShardFleet.Proofs.Topology
import ShardFleet.Router

/-!
What a shard that leaves takes with it.

A router by ring over a topology and one over the same topology without one of its shards place
every key alike, but for the keys of that shard. On the ring itself a member that comes takes
positions from others and leaves the rest where they were, and a member that goes loses what it
had and nothing else changes (`Router.byRing_moves_least`).
-/

namespace ShardFleet

namespace HashRing

/-- On the ring of some members every position has one of them for its owner. -/
theorem exists_ownerAt_ofMembers {members : List ShardId} (distinct : members.Nodup)
    (some : members ≠ []) (virtualNodes : Nat) (seed : UInt64) (position : UInt64) :
    ∃ owner ∈ members, (ofMembers members virtualNodes seed).ownerAt position = .some owner := by
  cases owned : (ofMembers members virtualNodes seed).ownerAt position with
  | none =>
      obtain ⟨member, mem⟩ := List.exists_mem_of_ne_nil _ some
      have bare := ownerAt_eq_none_iff.mp owned ((empty virtualNodes seed).point member 0)
      rw [get?_ofMembers distinct, List.find?_eq_none] at bare
      refine absurd ?_ (bare member (List.mem_reverse.mpr mem))
      exact decide_eq_true (first_mem_pointsOf virtualNodes seed member)
  | some owner =>
      obtain ⟨point, meets⟩ := ownerAt_eq_some_iff.mp owned
      have placed := meets.placed
      rw [get?_ofMembers distinct] at placed
      exact ⟨owner, List.mem_reverse.mp (List.mem_of_find?_eq_some placed), rfl⟩

end HashRing

namespace Router

/-- The router by ring over a topology, without pinned keys. -/
def onRing (topology : Topology) (virtualNodes : Nat) (seed : UInt64) : Router :=
  ⟨topology, .ring (HashRing.ofMembers topology.ids virtualNodes seed) ⟨[]⟩⟩

theorem byRing_nil (topology : Topology) (virtualNodes : Nat) (seed : UInt64) :
    byRing topology virtualNodes seed [] = .ok (onRing topology virtualNodes seed) := rfl

/-- A router by ring over a topology with shards finds the shard that owns the key's position. -/
theorem resolve_onRing {topology : Topology} {virtualNodes : Nat} {seed : UInt64} {key : ShardKey}
    {shard : Shard} (mem : shard ∈ topology.shards)
    (owned : (HashRing.ofMembers topology.ids virtualNodes seed).ownerAt
      (Digest.xxh64 seed key.toBytes) = some shard.id) :
    (onRing topology virtualNodes seed).resolve key = .ok shard := by
  have inhabited : topology.isEmpty = false := by
    simpa [Topology.isEmpty] using List.ne_nil_of_mem mem
  have owner : (onRing topology virtualNodes seed).owner key = .ok shard.id := by
    simp [onRing, Router.owner, Assignments.find?, HashRing.ownerOf, HashRing.position, owned]
  rw [resolve, owner]
  simp only [onRing, inhabited]
  exact Topology.get_of_mem mem

/-- When a shard leaves a topology, the router by ring places the keys of the other shards as
before, and every key has a shard as long as there is one. On a ring that came about by any edits,
a new member takes over positions and none changes hands otherwise; of a member that is removed no
position remains, and those of others stay where they were. -/
theorem byRing_moves_least (virtualNodes : Nat) (seed : UInt64) {topology reduced : Topology}
    {gone : Shard} (leaves : gone ∈ topology.shards)
    (others : reduced.shards = topology.shards.filter (·.id ≠ gone.id)) :
    (∃ whole rest, byRing topology virtualNodes seed [] = .ok whole ∧
      byRing reduced virtualNodes seed [] = .ok rest ∧
      ∀ key, (∃ shard ∈ topology.shards, whole.resolve key = .ok shard) ∧
        (whole.resolve key ≠ .ok gone → rest.resolve key = whole.resolve key)) ∧
    (∀ (edits : List HashRing.Edit) (member : ShardId) (position : UInt64),
      let ring := (HashRing.empty virtualNodes seed).editAll edits
      ((ring.add member).ownerAt position = ring.ownerAt position ∨
        (ring.add member).ownerAt position = some member) ∧
      (ring.ownerAt position ≠ some member →
        (ring.remove member).ownerAt position = ring.ownerAt position) ∧
      (ring.remove member).ownerAt position ≠ some member) := by
  constructor
  · refine ⟨_, _, byRing_nil topology virtualNodes seed, byRing_nil reduced virtualNodes seed,
      fun key => ?_⟩
    have inhabited : topology.ids ≠ [] := List.ne_nil_of_mem (List.mem_map_of_mem leaves)
    obtain ⟨owner, known, owned⟩ := HashRing.exists_ownerAt_ofMembers topology.distinct inhabited
      virtualNodes seed (Digest.xxh64 seed key.toBytes)
    obtain ⟨shard, mem, rfl⟩ := Topology.mem_ids.mp known
    have resolved := resolve_onRing mem owned
    refine ⟨⟨shard, mem, resolved⟩, fun stranger => ?_⟩
    have different : shard.id ≠ gone.id := by
      intro same
      refine stranger (resolved.trans (congrArg _ ?_))
      exact List.inj_on_of_nodup_map topology.distinct mem leaves same
    have remaining : reduced.ids = topology.ids.filter (· ≠ gone.id) := by
      simp only [Topology.ids, others, List.filter_map, Function.comp_def]
    have without := HashRing.without_ofMembers topology.distinct virtualNodes seed gone.id
    rw [resolved]
    refine resolve_onRing (others ▸ List.mem_filter.mpr ⟨mem, by simpa using different⟩) ?_
    rw [remaining]
    exact (without.ownerAt_eq (by simpa [owned] using different)).trans owned
  · intro edits member position ring
    have closed : ring.Closed := (HashRing.closed_empty virtualNodes seed).editAll edits
    refine ⟨?_, ?_, ?_⟩
    · by_cases taken : (ring.add member).ownerAt position = some member
      · exact .inr taken
      · exact .inl ((HashRing.without_add ring member).ownerAt_eq taken).symm
    · exact (HashRing.without_remove ring member).ownerAt_eq
    · intro owned
      have present := (closed.remove member).owner_mem owned
      exact (HashRing.mem_members_remove.mp present).2 rfl

/-- Of two shards on a ring without virtual nodes of their own the second leaves. -/
theorem byRing_moves_least_pair :
    let reduced : Topology := ⟨[.first], by decide, by decide⟩
    Shard.second ∈ Topology.pair.shards ∧
      reduced.shards = Topology.pair.shards.filter (·.id ≠ Shard.second.id) ∧
      ∃ whole rest, byRing .pair 0 defaultSeed [] = .ok whole ∧
        byRing reduced 0 defaultSeed [] = .ok rest ∧
        ∀ key, whole.resolve key ≠ .ok .second → rest.resolve key = whole.resolve key := by
  intro reduced
  have leaves : Shard.second ∈ Topology.pair.shards := by decide
  have others : reduced.shards = Topology.pair.shards.filter (·.id ≠ Shard.second.id) := by decide
  obtain ⟨⟨whole, rest, built, rebuilt, moves⟩, -⟩ :=
    byRing_moves_least 0 defaultSeed leaves others
  exact ⟨leaves, others, whole, rest, built, rebuilt, fun key => (moves key).2⟩

end Router

end ShardFleet
