import ShardFleet.Proofs.Scatter.Scripts
import ShardFleet.Proofs.Topology
import ShardFleet.Router

/-!
Pinned keys and the rule beneath them.

The last pin of a key counts (`PinnedTo`). A router by digest, by ring or by directory asks its
pins before its rule, so it is the router without pins with the pins laid over it
(`Router.LaidOver`, `Router.build_laidOver`). A router by ranges has no pins: it is the same
router whatever is pinned. Main statement: `Router.build_pins`; a key that is pinned and routed
by its range all the same is `Router.build_range_unpinned`.
-/

namespace ShardFleet

/-- The last pin of the key in the list names the shard. -/
def PinnedTo (pins : List (ShardKey × ShardId)) (key : ShardKey) (shard : ShardId) : Prop :=
  ∃ earlier later, pins = earlier ++ (key, shard) :: later ∧ ∀ pin ∈ later, pin.1 ≠ key

/-- A key that occurs in a list of pins has a last pin. -/
theorem exists_pinnedTo {pins : List (ShardKey × ShardId)} {key : ShardKey}
    (pinned : key ∈ pins.map Prod.fst) : ∃ shard, PinnedTo pins key shard := by
  induction pins with
  | nil => cases pinned
  | cons pin rest ih =>
      by_cases later : key ∈ rest.map Prod.fst
      · obtain ⟨shard, earlier, after, split, last⟩ := ih later
        exact ⟨shard, pin :: earlier, after, by rw [split]; rfl, last⟩
      · have same : pin.1 = key := by
          simpa [later, eq_comm] using pinned
        refine ⟨pin.2, [], rest, by rw [← same]; rfl, fun other mem named => later ?_⟩
        exact named ▸ List.mem_map_of_mem mem

namespace Assignments

theorem find?_eq_some_iff {pins : List (ShardKey × ShardId)} {key : ShardKey} {shard : ShardId} :
    (mk pins.reverse).find? key = some shard ↔ PinnedTo pins key shard := by
  rw [find?, Option.map_eq_some_iff]
  constructor
  · rintro ⟨⟨other, _⟩, found, rfl⟩
    obtain ⟨named, later, earlier, split, none⟩ := List.find?_eq_some_iff_append.mp found
    obtain rfl : other = key := by simpa using named
    refine ⟨earlier.reverse, later.reverse, ?_, fun pin mem => ?_⟩
    · simpa using congrArg List.reverse split
    · simpa using none pin (List.mem_reverse.mp mem)
  · rintro ⟨earlier, later, rfl, last⟩
    refine ⟨(key, shard), List.find?_eq_some_iff_append.mpr
      ⟨by simp, later.reverse, earlier.reverse, by simp, fun pin mem => ?_⟩, rfl⟩
    simpa using last pin (List.mem_reverse.mp mem)

theorem find?_eq_none_iff {pins : List (ShardKey × ShardId)} {key : ShardKey} :
    (mk pins.reverse).find? key = none ↔ key ∉ pins.map Prod.fst := by
  simp only [find?, Option.map_eq_none_iff, List.find?_eq_none, List.mem_reverse,
    decide_eq_true_eq, List.mem_map, not_exists, not_and]

/-- Every entry of the list names a shard of the topology. -/
def Known (topology : Topology) (entries : List (ShardKey × ShardId)) : Prop :=
  ∀ entry ∈ entries, topology.contains entry.2 = true

/-- What is made of the assignments of a list is made of the list read from its end, once all of
its shards are known. -/
theorem ofList_bind_eq_ok_iff {α : Type} {topology : Topology}
    {entries : List (ShardKey × ShardId)} {make : Assignments → Except Error α} {made : α} :
    ofList topology entries >>= make = .ok made ↔
      Known topology entries ∧ make ⟨entries.reverse⟩ = .ok made := by
  unfold ofList
  split
  · next key shard stray =>
      constructor
      · intro ok
        cases ok
      · rintro ⟨known, -⟩
        have unknown := List.find?_some stray
        simp [known _ (List.mem_of_find?_eq_some stray)] at unknown
  · next none =>
      have known : Known topology entries := fun entry mem => by
        simpa using List.find?_eq_none.mp none entry mem
      exact ⟨fun ok => ⟨known, ok⟩, And.right⟩

end Assignments

namespace Router

open Assignments (Known)

/-! ### What is built -/

theorem byModulo_eq_ok_iff {topology : Topology} {seed : UInt64}
    {pins : List (ShardKey × ShardId)} {router : Router} :
    byModulo topology seed pins = .ok router ↔
      Known topology pins ∧ router = ⟨topology, .modulo seed ⟨pins.reverse⟩⟩ := by
  rw [byModulo, Assignments.ofList_bind_eq_ok_iff]
  exact and_congr_right fun _ => ⟨fun ok => (Except.ok.inj ok).symm, fun same => same ▸ rfl⟩

theorem byRing_eq_ok_iff {topology : Topology} {virtualNodes : Nat} {seed : UInt64}
    {pins : List (ShardKey × ShardId)} {router : Router} :
    byRing topology virtualNodes seed pins = .ok router ↔
      Known topology pins ∧ router =
        ⟨topology, .ring (HashRing.ofMembers topology.ids virtualNodes seed) ⟨pins.reverse⟩⟩ := by
  rw [byRing, Assignments.ofList_bind_eq_ok_iff]
  exact and_congr_right fun _ => ⟨fun ok => (Except.ok.inj ok).symm, fun same => same ▸ rfl⟩

theorem byDirectory_eq_ok_iff {topology : Topology} {entries : List (ShardKey × ShardId)}
    {fallback : Option ShardId} {router : Router} :
    byDirectory topology entries fallback = .ok router ↔
      Known topology entries ∧ (∀ shard, fallback = some shard → topology.contains shard = true) ∧
        router = ⟨topology, .directory ⟨entries.reverse⟩ fallback⟩ := by
  rw [byDirectory, Assignments.ofList_bind_eq_ok_iff]
  refine and_congr_right fun _ => ?_
  cases fallback with
  | none =>
      exact ⟨fun ok => ⟨nofun, (Except.ok.inj ok).symm⟩, fun made => made.2 ▸ rfl⟩
  | some shard =>
      cases present : topology.contains shard with
      | false =>
          constructor
          · intro ok
            simp only [present] at ok
            cases ok
          · rintro ⟨known, -⟩
            simp [known shard rfl] at present
      | true =>
          simp only [present]
          have known : ∀ other, some shard = some other → topology.contains other = true :=
            fun other same => Option.some.inj same ▸ present
          exact ⟨fun ok => ⟨known, (Except.ok.inj ok).symm⟩, fun made => made.2 ▸ rfl⟩

/-! ### Pins over a rule -/

/-- The router asks the pins first and then the other router, which has the same topology. -/
structure LaidOver (router bare : Router) (pins : List (ShardKey × ShardId)) : Prop where
  topology : router.topology = bare.topology
  known : Known bare.topology pins
  owner : ∀ key, router.owner key =
    (((Assignments.mk pins.reverse).find? key).map .ok).getD (bare.owner key)

theorem LaidOver.resolve_unpinned {router bare : Router} {pins : List (ShardKey × ShardId)}
    (laid : router.LaidOver bare pins) {key : ShardKey} (unpinned : key ∉ pins.map Prod.fst) :
    router.resolve key = bare.resolve key := by
  have owner := laid.owner key
  rw [Assignments.find?_eq_none_iff.mpr unpinned] at owner
  rw [resolve, resolve, owner, laid.topology]
  rfl

theorem LaidOver.resolve_pinned {router bare : Router} {pins : List (ShardKey × ShardId)}
    (laid : router.LaidOver bare pins) {key : ShardKey} {shard : ShardId}
    (pinned : PinnedTo pins key shard) :
    ∃ target, router.resolve key = .ok target ∧ target.id = shard := by
  have owner := laid.owner key
  rw [Assignments.find?_eq_some_iff.mpr pinned] at owner
  obtain ⟨earlier, later, rfl, -⟩ := pinned
  have known := laid.known (key, shard) (by simp)
  obtain ⟨target, mem, named⟩ := Topology.mem_ids.mp (Topology.contains_iff.mp known)
  have inhabited : bare.topology.isEmpty = false := by
    simpa [Topology.isEmpty] using List.ne_nil_of_mem mem
  refine ⟨target, ?_, named⟩
  rw [resolve, owner, laid.topology, inhabited]
  exact Topology.get_eq_ok_iff.mpr ⟨mem, named⟩

/-- A rule other than by ranges makes the router without pins with the pins laid over it. -/
theorem build_laidOver {rule : RoutingRule} {topology : Topology} {seed : UInt64}
    {pins : List (ShardKey × ShardId)} {router : Router}
    (built : build rule topology seed pins = .ok router)
    (pinnable : ∀ ranges, rule ≠ .range ranges) :
    ∃ bare, build rule topology seed [] = .ok bare ∧ router.LaidOver bare pins := by
  have nothing : Known topology [] := fun _ absent => by cases absent
  cases rule with
  | range ranges => exact absurd rfl (pinnable ranges)
  | hash =>
      obtain ⟨known, rfl⟩ := byModulo_eq_ok_iff.mp built
      refine ⟨_, byModulo_eq_ok_iff.mpr ⟨nothing, rfl⟩, rfl, known, fun key => ?_⟩
      simp only [owner]
      cases pinned : (Assignments.mk pins.reverse).find? key <;> rfl
  | consistentHash virtualNodes =>
      obtain ⟨known, rfl⟩ := byRing_eq_ok_iff.mp built
      refine ⟨_, byRing_eq_ok_iff.mpr ⟨nothing, rfl⟩, rfl, known, fun key => ?_⟩
      simp only [owner]
      cases pinned : (Assignments.mk pins.reverse).find? key <;> rfl
  | directory entries fallback =>
      obtain ⟨known, default, rfl⟩ := byDirectory_eq_ok_iff.mp built
      have own : Known topology entries := fun entry mem => known entry (List.mem_append_left _ mem)
      refine ⟨⟨topology, .directory ⟨entries.reverse⟩ fallback⟩, ?_, rfl,
        fun pin mem => known pin (List.mem_append_right _ mem), fun key => ?_⟩
      · rw [build, List.append_nil]
        exact byDirectory_eq_ok_iff.mpr ⟨own, default, rfl⟩
      · have both : (Assignments.mk (entries ++ pins).reverse).find? key =
            ((Assignments.mk pins.reverse).find? key).or
              ((Assignments.mk entries.reverse).find? key) := by
          simp [Assignments.find?, List.find?_append, Option.map_or]
        simp only [owner, both]
        cases pinned : (Assignments.mk pins.reverse).find? key <;> simp

/-- Where a router is built, so is the one without pins, and the two resolve every key alike that
is not pinned. A pinned key goes to the shard of its last pin, unless the rule is by ranges: then
all pins count for nothing. -/
theorem build_pins {rule : RoutingRule} {topology : Topology} {seed : UInt64}
    {pins : List (ShardKey × ShardId)} {router : Router}
    (built : build rule topology seed pins = .ok router) :
    ∃ bare, build rule topology seed [] = .ok bare ∧
      (∀ key ∉ pins.map Prod.fst, router.resolve key = bare.resolve key) ∧
      ((∀ ranges, rule ≠ .range ranges) → ∀ key ∈ pins.map Prod.fst, ∃ target,
        PinnedTo pins key target.id ∧ router.resolve key = .ok target) ∧
      (∀ ranges, rule = .range ranges → router = bare) := by
  by_cases ranged : ∃ ranges, rule = .range ranges
  · obtain ⟨ranges, rfl⟩ := ranged
    exact ⟨router, built, fun _ _ => rfl, fun other => absurd rfl (other ranges), fun _ _ => rfl⟩
  · have pinnable : ∀ ranges, rule ≠ .range ranges := fun ranges same => ranged ⟨ranges, same⟩
    obtain ⟨bare, without, laid⟩ := build_laidOver built pinnable
    refine ⟨bare, without, fun key => laid.resolve_unpinned, fun _ key mem => ?_,
      fun ranges same => absurd same (pinnable ranges)⟩
    obtain ⟨shard, pinned⟩ := exists_pinnedTo mem
    obtain ⟨target, resolved, rfl⟩ := laid.resolve_pinned pinned
    exact ⟨target, pinned, resolved⟩

/-- A key in a directory is pinned to its shard once more, and then to another. -/
theorem build_pins_repinned :
    let key := ShardKey.text "tenant-vip"
    let rule := RoutingRule.directory [(key, Shard.first.id)] none
    let pins := [(key, Shard.first.id), (key, Shard.second.id)]
    ∃ router bare, build rule .pair defaultSeed pins = .ok router ∧
      build rule .pair defaultSeed [] = .ok bare ∧
      (∀ other ≠ key, router.resolve other = bare.resolve other) ∧
      ∃ target, target.id = Shard.second.id ∧ router.resolve key = .ok target := by
  intro key rule pins
  have built : build rule .pair defaultSeed pins =
      .ok ⟨.pair, .directory ⟨pins.reverse ++ [(key, Shard.first.id)]⟩ none⟩ := rfl
  obtain ⟨bare, without, unpinned, pinned, -⟩ := build_pins built
  obtain ⟨target, last, resolved⟩ := pinned nofun key List.mem_cons_self
  have same := Assignments.find?_eq_some_iff.mpr last
  have second : (Assignments.mk pins.reverse).find? key = some Shard.second.id := rfl
  refine ⟨_, bare, built, without, fun other different => unpinned other ?_, target,
    Option.some.inj (same.symm.trans second), resolved⟩
  simpa [pins] using different

/-- A key is pinned to one shard and in the range of another: the range decides. -/
theorem build_range_unpinned :
    let key := ShardKey.int 5
    let pins := [(key, Shard.second.id)]
    ∃ router, build (.range [⟨.int 0, none, Shard.first.id⟩]) .pair defaultSeed pins = .ok router ∧
      PinnedTo pins key Shard.second.id ∧ router.resolve key = .ok .first := by
  intro key pins
  refine ⟨⟨.pair, .ranges [⟨.int 0, none, Shard.first.id⟩]⟩, ?_, ⟨[], [], rfl, nofun⟩, ?_⟩
  · rw [build, byRanges, KeyRange.sort, List.mergeSort_singleton]
    rfl
  · rfl

end Router

end ShardFleet
