import ShardFleet.Configuration
import ShardFleet.Proofs.Attempts
import ShardFleet.Proofs.Routing.Departure
import ShardFleet.Proofs.Routing.Pins
import ShardFleet.Proofs.Routing.Ranges

/-!
Routers that find a shard.

Whatever a router resolves a key to is a shard of its topology as the topology has it, and the only
error it knows is that there is no such shard (`Router.resolve_cases`). A router by digest and one
by ring find a shard for every key as long as there is any, and a directory finds one for a key with
an entry, or for every key if it has a default (`Router.build_total`). For the first two a checked
configuration is all that is needed: shards and pins that pass its check pass those of the topology
and of the router.
-/

namespace ShardFleet

namespace Topology

theorem isEmpty_eq_false {topology : Topology} {shard : Shard} (mem : shard ∈ topology.shards) :
    topology.isEmpty = false := by
  simpa [isEmpty] using List.ne_nil_of_mem mem

theorem exists_mem {topology : Topology} (inhabited : topology.isEmpty = false) :
    ∃ shard, shard ∈ topology.shards :=
  List.exists_mem_of_ne_nil _ (by simpa [isEmpty] using inhabited)

end Topology

namespace Router

open Assignments (Known)

/-! ### What resolving comes to -/

/-- Whatever the placement, the last resort is an error of one kind. -/
theorem owner_error {router : Router} {key : ShardKey} {error : Error}
    (fails : router.owner key = .error error) : ∃ what, error = .unknownShard what := by
  obtain ⟨topology, placement⟩ := router
  cases placement with
  | modulo seed pins =>
      simp only [owner] at fails
      split at fails
      · cases fails
      · split at fails
        · cases fails
        · exact ⟨_, (Except.error.inj fails).symm⟩
  | ring ring pins =>
      simp only [owner] at fails
      split at fails
      · cases fails
      · exact ⟨_, (Except.error.inj fails).symm⟩
  | ranges ranges =>
      simp only [owner] at fails
      split at fails
      · cases fails
      · exact ⟨_, (Except.error.inj fails).symm⟩
  | directory entries fallback =>
      simp only [owner] at fails
      split at fails
      · cases fails
      · exact ⟨_, (Except.error.inj fails).symm⟩

/-- A key is resolved to the shard of a name in the topology, or to none. -/
theorem resolve_cases (router : Router) (key : ShardKey) :
    (∃ shard ∈ router.topology.shards, router.topology.get shard.id = .ok shard ∧
      router.resolve key = .ok shard) ∨
    ∃ what, router.resolve key = .error (.unknownShard what) := by
  rw [resolve]
  cases router.topology.isEmpty with
  | true => exact .inr ⟨_, rfl⟩
  | false =>
      cases owned : router.owner key with
      | error error =>
          obtain ⟨what, rfl⟩ := owner_error owned
          exact .inr ⟨what, rfl⟩
      | ok id =>
          cases found : router.topology.get id with
          | error error =>
              obtain rfl := Topology.get_error found
              exact .inr ⟨id.name, found⟩
          | ok shard =>
              obtain ⟨mem, rfl⟩ := Topology.get_eq_ok_iff.mp found
              exact .inl ⟨shard, mem, found, found⟩

/-- Some shard is found for the key. -/
def Finds (router : Router) (key : ShardKey) : Prop := ∃ shard, router.resolve key = .ok shard

theorem resolve_of_isEmpty {router : Router} (none : router.topology.isEmpty = true)
    (key : ShardKey) : router.resolve key = .error (noShards key) :=
  if_pos none

/-- The router finds the shard that its placement names, if the topology has it. -/
theorem resolve_of_owner {router : Router} {key : ShardKey} {shard : Shard}
    (mem : shard ∈ router.topology.shards) (owned : router.owner key = .ok shard.id) :
    router.resolve key = .ok shard := by
  rw [resolve, Topology.isEmpty_eq_false mem, owned]
  exact Topology.get_of_mem mem

/-! ### Rules without exceptions -/

/-- Any number has a remainder among the places of the shards. -/
theorem finds_modulo {topology : Topology} (inhabited : topology.isEmpty = false) (seed : UInt64)
    (key : ShardKey) : Finds ⟨topology, .modulo seed ⟨[]⟩⟩ key := by
  obtain ⟨other, there⟩ := Topology.exists_mem inhabited
  have within : (keyHash seed key).toNat % topology.size < topology.shards.length :=
    Nat.mod_lt _ (List.length_pos_of_mem there)
  have found : topology.at? ((keyHash seed key).toNat % topology.size) =
      some (topology.shards[(keyHash seed key).toNat % topology.size]) :=
    List.getElem?_eq_getElem within
  refine ⟨_, resolve_of_owner (List.getElem_mem within) ?_⟩
  simp only [owner, Assignments.find?, List.find?_nil, Option.map_none, found]

/-- Every position of a ring with members has an owner, and it is one of them. -/
theorem finds_onRing {topology : Topology} (inhabited : topology.isEmpty = false)
    (virtualNodes : Nat) (seed : UInt64) (key : ShardKey) :
    (onRing topology virtualNodes seed).Finds key := by
  obtain ⟨other, there⟩ := Topology.exists_mem inhabited
  have some : topology.ids ≠ [] := List.ne_nil_of_mem (List.mem_map_of_mem there)
  obtain ⟨id, known, owned⟩ := HashRing.exists_ownerAt_ofMembers topology.distinct some
    virtualNodes seed (Digest.xxh64 seed key.toBytes)
  obtain ⟨shard, mem, rfl⟩ := Topology.mem_ids.mp known
  exact ⟨shard, resolve_onRing mem owned⟩

/-- Pins laid over a rule that finds a shard for every key leave nothing unfound. -/
theorem LaidOver.finds {router bare : Router} {pins : List (ShardKey × ShardId)}
    (laid : router.LaidOver bare pins) {key : ShardKey} (found : bare.Finds key) :
    router.Finds key := by
  by_cases pinned : key ∈ pins.map Prod.fst
  · obtain ⟨shard, last⟩ := exists_pinnedTo pinned
    obtain ⟨target, resolved, -⟩ := laid.resolve_pinned last
    exact ⟨target, resolved⟩
  · rw [Finds, laid.resolve_unpinned pinned]
    exact found

/-! ### What is built -/

theorem topology_of_build {rule : RoutingRule} {topology : Topology} {seed : UInt64}
    {pins : List (ShardKey × ShardId)} {router : Router}
    (built : build rule topology seed pins = .ok router) : router.topology = topology := by
  cases rule with
  | hash => exact (byModulo_eq_ok_iff.mp built).2 ▸ rfl
  | consistentHash virtualNodes => exact (byRing_eq_ok_iff.mp built).2 ▸ rfl
  | range ranges => exact (byRanges_eq_ok_iff.mp built).2 ▸ rfl
  | directory entries fallback => exact (byDirectory_eq_ok_iff.mp built).2.2 ▸ rfl

end Router

/-- Keys are spread over all shards by their digests. -/
def RoutingRule.ByDigest : RoutingRule → Prop
  | .hash | .consistentHash _ => True
  | .range _ | .directory _ _ => False

namespace Router

open Assignments (Known)

/-- A rule by digest needs nothing but pins to known shards. -/
theorem exists_build {rule : RoutingRule} (spread : rule.ByDigest) {topology : Topology}
    {pins : List (ShardKey × ShardId)} (known : Known topology pins) (seed : UInt64) :
    ∃ router, build rule topology seed pins = .ok router := by
  cases rule with
  | hash => exact ⟨_, byModulo_eq_ok_iff.mpr ⟨known, rfl⟩⟩
  | consistentHash virtualNodes => exact ⟨_, byRing_eq_ok_iff.mpr ⟨known, rfl⟩⟩
  | range ranges => cases spread
  | directory entries fallback => cases spread

/-- A rule by digest finds a shard for every key as long as there is any. -/
theorem finds_of_build {rule : RoutingRule} (spread : rule.ByDigest) {topology : Topology}
    {seed : UInt64} {pins : List (ShardKey × ShardId)} {router : Router}
    (built : build rule topology seed pins = .ok router) (inhabited : topology.isEmpty = false)
    (key : ShardKey) : router.Finds key := by
  have pinnable : ∀ ranges, rule ≠ .range ranges := by
    rintro ranges rfl
    cases spread
  obtain ⟨bare, without, laid⟩ := build_laidOver built pinnable
  refine laid.finds ?_
  cases rule with
  | hash =>
      obtain ⟨-, rfl⟩ := byModulo_eq_ok_iff.mp without
      exact finds_modulo inhabited seed key
  | consistentHash virtualNodes =>
      obtain ⟨-, rfl⟩ := byRing_eq_ok_iff.mp without
      exact finds_onRing inhabited virtualNodes seed key
  | range ranges => cases spread
  | directory entries fallback => cases spread

section Directory

variable {topology : Topology} {entries : List (ShardKey × ShardId)} {fallback : Option ShardId}
  {router : Router} {key : ShardKey} {id : ShardId}

/-- A directory resolves a key to a shard that it names for it. -/
theorem resolve_directory_of_named (built : byDirectory topology entries fallback = .ok router)
    (named : ((Assignments.mk entries.reverse).find? key).or fallback = some id)
    (known : topology.contains id = true) :
    ∃ shard, shard.id = id ∧ router.resolve key = .ok shard := by
  obtain ⟨-, -, rfl⟩ := byDirectory_eq_ok_iff.mp built
  obtain ⟨shard, mem, rfl⟩ := Topology.mem_ids.mp (Topology.contains_iff.mp known)
  refine ⟨shard, rfl, resolve_of_owner mem ?_⟩
  simp only [owner, named]

theorem resolve_directory_of_pinned (built : byDirectory topology entries fallback = .ok router)
    (last : PinnedTo entries key id) :
    ∃ shard, shard.id = id ∧ router.resolve key = .ok shard := by
  have known := (byDirectory_eq_ok_iff.mp built).1
  refine resolve_directory_of_named built ?_ ?_
  · rw [Assignments.find?_eq_some_iff.mpr last, Option.some_or]
  · obtain ⟨earlier, later, rfl, -⟩ := last
    exact known (key, id) (by simp)

theorem resolve_directory_of_fallback
    (built : byDirectory topology entries fallback = .ok router)
    (unlisted : key ∉ entries.map Prod.fst) (default : fallback = some id) :
    ∃ shard, shard.id = id ∧ router.resolve key = .ok shard := by
  refine resolve_directory_of_named built ?_ ((byDirectory_eq_ok_iff.mp built).2.1 id default)
  rw [Assignments.find?_eq_none_iff.mpr unlisted, Option.none_or, default]

theorem resolve_directory_of_absent (built : byDirectory topology entries fallback = .ok router)
    (unlisted : key ∉ entries.map Prod.fst) (none : fallback = none) :
    ∃ error, router.resolve key = .error error := by
  obtain ⟨-, -, rfl⟩ := byDirectory_eq_ok_iff.mp built
  have unnamed : ((Assignments.mk entries.reverse).find? key).or fallback = Option.none := by
    rw [Assignments.find?_eq_none_iff.mpr unlisted, Option.none_or, none]
  rw [resolve]
  cases topology.isEmpty with
  | true => exact ⟨_, rfl⟩
  | false =>
      simp only [owner, unnamed]
      exact ⟨_, rfl⟩

end Directory

end Router

/-! ### Checked configurations -/

namespace Configuration

/-- The pins of a checked configuration go to shards of its topology. -/
theorem known_of_topology {config : Configuration} {topology : Topology}
    (made : config.topology = .ok topology) : Assignments.Known topology config.pins := by
  obtain ⟨_, checked, listed⟩ := bind_eq_ok_iff.mp made
  obtain ⟨_, -, rest⟩ := bind_eq_ok_iff.mp checked
  obtain ⟨_, pinned, -⟩ := bind_eq_ok_iff.mp rest
  have shards := Topology.shards_of_ofList listed
  intro pin mem
  rw [Topology.contains_iff, Topology.ids, shards]
  unfold checkPins at pinned
  split at pinned
  · cases pinned
  · next none => simpa using List.find?_eq_none.mp none pin mem

end Configuration

namespace Router

/-- Routers that were built, under any rule, seed and pins. A key is resolved to a shard of the
topology, as the topology has it under its name, or it has no known shard; there is no other error.
By digest or by ring it is found unless the topology has no shards. By directory, with the pins for
further entries, it is found unless it has no entry and there is no default: it goes to the shard of
its last entry, or else to the default. A configuration that was checked and routes by digest or by
ring makes a router. -/
theorem build_total :
    (∀ rule topology seed pins router, build rule topology seed pins = .ok router → ∀ key,
      ((∃ shard ∈ topology.shards, topology.get shard.id = .ok shard ∧
          router.resolve key = .ok shard) ∨
        ∃ what, router.resolve key = .error (.unknownShard what)) ∧
      (rule.ByDigest →
        ((∃ error, router.resolve key = .error error) ↔ topology.isEmpty = true)) ∧
      (∀ entries fallback, rule = .directory entries fallback →
        ((∃ error, router.resolve key = .error error) ↔
          key ∉ (entries ++ pins).map Prod.fst ∧ fallback = none) ∧
        (∀ id, PinnedTo (entries ++ pins) key id →
          ∃ shard, shard.id = id ∧ router.resolve key = .ok shard) ∧
        (∀ id, key ∉ (entries ++ pins).map Prod.fst → fallback = some id →
          ∃ shard, shard.id = id ∧ router.resolve key = .ok shard))) ∧
    (∀ (config : Configuration) topology, config.topology = .ok topology →
      config.routing.ByDigest → ∃ router, config.router topology = .ok router) := by
  constructor
  · intro rule topology seed pins router built key
    obtain rfl := topology_of_build built
    refine ⟨router.resolve_cases key, fun spread => ?_, fun entries fallback directory => ?_⟩
    · constructor
      · rintro ⟨error, fails⟩
        by_contra inhabited
        obtain ⟨shard, found⟩ := finds_of_build spread built (by simpa using inhabited) key
        cases found.symm.trans fails
      · exact fun none => ⟨_, resolve_of_isEmpty none key⟩
    · subst directory
      refine ⟨⟨?_, ?_⟩, fun id => resolve_directory_of_pinned built,
        fun id => resolve_directory_of_fallback built⟩
      · rintro ⟨error, fails⟩
        have unlisted : key ∉ (entries ++ pins).map Prod.fst := by
          intro listed
          obtain ⟨id, last⟩ := exists_pinnedTo listed
          obtain ⟨shard, -, found⟩ := resolve_directory_of_pinned built last
          cases found.symm.trans fails
        refine ⟨unlisted, Option.eq_none_iff_forall_ne_some.mpr fun id default => ?_⟩
        obtain ⟨shard, -, found⟩ := resolve_directory_of_fallback built unlisted default
        cases found.symm.trans fails
      · rintro ⟨unlisted, none⟩
        exact resolve_directory_of_absent built unlisted none
  · intro config topology made spread
    exact exists_build spread (Configuration.known_of_topology made) config.seed

/-- Two keys in a directory of two shards, one with an entry and a pin and one with neither; and a
checked configuration that routes by ring. -/
theorem build_total_pair :
    let key := ShardKey.text "tenant-vip"
    let rule := RoutingRule.directory [(key, Shard.first.id)] none
    let pins := [(key, Shard.second.id)]
    let config : Configuration := {
      shards := [.first, .second], routing := .consistentHash 3, pins }
    (∃ router, build rule .pair defaultSeed pins = .ok router ∧
      (∃ shard, shard.id = Shard.second.id ∧ router.resolve key = .ok shard) ∧
      ∃ error, router.resolve (.int 5) = .error error) ∧
    ∃ topology router, config.topology = .ok topology ∧ config.router topology = .ok router := by
  intro key rule pins config
  obtain ⟨directory, configured⟩ := build_total
  constructor
  · have built : build rule .pair defaultSeed pins =
        .ok ⟨.pair, .directory ⟨pins.reverse ++ [(key, Shard.first.id)]⟩ none⟩ := rfl
    obtain ⟨-, -, listed⟩ := directory _ _ _ _ _ built key
    obtain ⟨-, -, unlisted⟩ := directory _ _ _ _ _ built (.int 5)
    refine ⟨_, built, (listed _ _ rfl).2.1 _ ⟨_, [], rfl, nofun⟩, ?_⟩
    exact (unlisted _ _ rfl).1.mpr ⟨by decide, rfl⟩
  · have made : config.topology = .ok .pair := rfl
    obtain ⟨router, built⟩ := configured config .pair made trivial
    exact ⟨.pair, router, made, built⟩

end Router

end ShardFleet
