import ShardFleet.Proofs.Ascending
import ShardFleet.Topology

/-!
Finding the shards of a topology by name.

No two shards have one name, so what is found is the shard of that name, and all ways to look it up
agree (`Topology.finds`).
-/

namespace ShardFleet.Topology

theorem find?_eq_some_iff {topology : Topology} {id : ShardId} {shard : Shard} :
    topology.find? id = some shard ↔ shard ∈ topology.shards ∧ shard.id = id :=
  find?_key_eq_some_iff topology.distinct

theorem get_eq_ok_iff {topology : Topology} {id : ShardId} {shard : Shard} :
    topology.get id = .ok shard ↔ shard ∈ topology.shards ∧ shard.id = id := by
  rw [← find?_eq_some_iff, get]
  cases topology.find? id <;> simp

theorem get_of_mem {topology : Topology} {shard : Shard} (mem : shard ∈ topology.shards) :
    topology.get shard.id = .ok shard :=
  get_eq_ok_iff.mpr ⟨mem, rfl⟩

theorem mem_ids {topology : Topology} {id : ShardId} :
    id ∈ topology.ids ↔ ∃ shard ∈ topology.shards, shard.id = id :=
  List.mem_map

theorem contains_iff {topology : Topology} {id : ShardId} :
    topology.contains id = true ↔ id ∈ topology.ids := by
  simp only [contains, Option.isSome_iff_exists, find?_eq_some_iff, mem_ids]

/-- A name has the one place at which its shard stands. -/
theorem position?_eq_some_iff {topology : Topology} {id : ShardId} {position : Nat} :
    topology.position? id = some position ↔
      ∃ shard, topology.at? position = some shard ∧ shard.id = id := by
  rw [position?, List.findIdx?_eq_some_iff_getElem]
  constructor
  · rintro ⟨inside, named, -⟩
    exact ⟨topology.shards[position], List.getElem?_eq_getElem inside, by simpa using named⟩
  · rintro ⟨shard, there, rfl⟩
    obtain ⟨inside, rfl⟩ := List.getElem?_eq_some_iff.mp there
    refine ⟨inside, by simp, fun earlier below named => ?_⟩
    have early : earlier < topology.shards.length := by omega
    have same : (topology.shards.map Shard.id)[earlier]? =
        (topology.shards.map Shard.id)[position]? := by
      simpa [List.getElem?_eq_getElem, early, inside] using named
    have one : earlier = position :=
      (List.getElem?_inj (by simpa using early) topology.distinct).mp same
    omega

theorem get_error {topology : Topology} {id : ShardId} {error : Error}
    (fails : topology.get id = .error error) : error = .unknownShard id.name := by
  unfold get at fails
  split at fails
  · cases fails
  · exact (Except.error.inj fails).symm

theorem get_eq_error_iff {topology : Topology} {id : ShardId} {error : Error} :
    topology.get id = .error error ↔
      error = .unknownShard id.name ∧ ∀ shard ∈ topology.shards, shard.id ≠ id := by
  constructor
  · intro fails
    refine ⟨get_error fails, ?_⟩
    rintro shard mem rfl
    rw [get_of_mem mem] at fails
    cases fails
  · rintro ⟨rfl, absent⟩
    cases found : topology.get id with
    | ok shard =>
        obtain ⟨mem, named⟩ := get_eq_ok_iff.mp found
        exact absurd named (absent shard mem)
    | error error => rw [get_error found]

theorem position?_bind_at? (topology : Topology) (id : ShardId) :
    (topology.position? id).bind topology.at? = (topology.get id).toOption := by
  ext shard
  have got : (topology.get id).toOption = some shard ↔ topology.get id = .ok shard := by
    cases topology.get id <;> simp [Except.toOption]
  rw [Option.bind_eq_some_iff, got, get_eq_ok_iff, List.mem_iff_getElem?]
  constructor
  · rintro ⟨position, placed, there⟩
    obtain ⟨other, again, named⟩ := position?_eq_some_iff.mp placed
    obtain rfl := Option.some.inj (there.symm.trans again)
    exact ⟨⟨position, there⟩, named⟩
  · rintro ⟨⟨position, there⟩, named⟩
    exact ⟨position, position?_eq_some_iff.mpr ⟨shard, there, named⟩, there⟩

/-- A list is accepted as it is. -/
theorem shards_of_ofList {shards : List Shard} {topology : Topology}
    (made : ofList shards = .ok topology) : topology.shards = shards := by
  unfold ofList at made
  split at made
  · cases made
  · exact (Except.ok.inj made) ▸ rfl

/-- What a topology finds under a name, in all ways to look it up. -/
structure Finds (topology : Topology) (id : ShardId) : Prop where
  found : ∀ shard, topology.get id = .ok shard ↔ shard ∈ topology.shards ∧ shard.id = id
  unknown : ∀ error, topology.get id = .error error ↔
    error = .unknownShard id.name ∧ ∀ shard ∈ topology.shards, shard.id ≠ id
  contained : topology.contains id = true ↔ ∃ shard ∈ topology.shards, shard.id = id
  placed : ∀ position, topology.position? id = some position ↔
    ∃ shard, topology.at? position = some shard ∧ shard.id = id
  there : (topology.position? id).bind topology.at? = (topology.get id).toOption

theorem finds (topology : Topology) (id : ShardId) : topology.Finds id where
  found _ := get_eq_ok_iff
  unknown _ := get_eq_error_iff
  contained := contains_iff.trans mem_ids
  placed _ := position?_eq_some_iff
  there := topology.position?_bind_at? id

end ShardFleet.Topology
