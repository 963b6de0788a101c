import Mathlib.Data.List.Induction
import ShardFleet.Proofs.Routing.Totality
import ShardFleet.Proofs.Scatter.Conservation

/-!
Keys grouped by their shards.

Grouping goes through the keys in their order and ends at the first one that is not resolved. What
it has put together on the way is known at every key: under each shard the places of the keys seen
so far that are resolved to it (`Grouped`, `groupByShard_cases`). At the end of the keys that is a
division of all places (`Grouped.divides`), and the shards under which there are any are the targets
of a call for these keys (`Grouped.owners`).
-/

namespace ShardFleet

namespace Router

variable {router : Router} {keys : List ShardKey} {key : ShardKey} {id : ShardId} {index : Nat}
  {groups : OrderedMap ShardId (List Nat)}

/-- The name of the shard that a key is resolved to. -/
def home? (router : Router) (key : ShardKey) : Option ShardId :=
  (router.resolve key).toOption.map Shard.id

/-- The places of the keys that are resolved to the shard. -/
def places (router : Router) (keys : List ShardKey) (id : ShardId) : List Nat :=
  (keys.zipIdx.filter fun entry => router.home? entry.1 = some id).map Prod.snd

theorem home?_eq_some_iff :
    router.home? key = some id ↔ ∃ shard, router.resolve key = .ok shard ∧ shard.id = id := by
  constructor
  · exact exists_eq_ok
  · rintro ⟨shard, resolved, rfl⟩
    rw [home?, resolved]
    rfl

theorem mem_places :
    index ∈ router.places keys id ↔
      ∃ key, keys[index]? = some key ∧ router.home? key = some id := by
  simp [places, List.mem_zipIdx_iff_getElem?]

theorem places_ascending (router : Router) (keys : List ShardKey) (id : ShardId) :
    (router.places keys id).Pairwise (· < ·) :=
  places_pairwise_lt _ _

/-- A place is one of a single shard. -/
theorem places_disjoint {other : ShardId} (apart : id ≠ other) :
    (router.places keys id).Disjoint (router.places keys other) := by
  intro index here there
  obtain ⟨key, at?, home⟩ := mem_places.mp here
  obtain ⟨same, again, elsewhere⟩ := mem_places.mp there
  obtain rfl := Option.some.inj (at?.symm.trans again)
  exact apart (Option.some.inj (home.symm.trans elsewhere))

theorem places_concat (router : Router) (keys : List ShardKey) (key : ShardKey) (id : ShardId) :
    router.places (keys ++ [key]) id =
      router.places keys id ++ if router.home? key = some id then [keys.length] else [] := by
  have last : ([(key, keys.length)].filter fun entry => router.home? entry.1 = some id).map
      Prod.snd = if router.home? key = some id then [keys.length] else [] := by
    by_cases home : router.home? key = some id <;> simp [home]
  simp only [places, List.zipIdx_append, List.filter_append, List.map_append,
    List.zipIdx_singleton, Nat.zero_add, last]

/-- Under every shard stand the places of its keys, and nothing stands under the others. -/
def Grouped (router : Router) (keys : List ShardKey)
    (groups : OrderedMap ShardId (List Nat)) : Prop :=
  ∀ id, groups.get? id =
    if router.places keys id = [] then none else some (router.places keys id)

theorem Grouped.getD (grouped : router.Grouped keys groups) (id : ShardId) :
    groups.getD id [] = router.places keys id := by
  rw [OrderedMap.getD, grouped id]
  split
  · next none => rw [none]; rfl
  · rfl

theorem Grouped.alter (grouped : router.Grouped keys groups) {shard : Shard}
    (resolved : router.resolve key = .ok shard) :
    router.Grouped (keys ++ [key]) (groups.alter shard.id [] (· ++ [keys.length])) := by
  have home : router.home? key = some shard.id := home?_eq_some_iff.mpr ⟨shard, resolved, rfl⟩
  intro id
  rw [OrderedMap.alter, OrderedMap.get?_insert, grouped.getD, places_concat, home]
  by_cases here : id = shard.id
  · subst here
    simp
  · have elsewhere : ¬some shard.id = some id := fun same => here (Option.some.inj same).symm
    rw [if_neg here, if_neg elsewhere, List.append_nil]
    exact grouped id

theorem groupByShard_concat (router : Router) (keys : List ShardKey) (key : ShardKey) :
    router.groupByShard (keys ++ [key]) = do
      let groups ← router.groupByShard keys
      let shard ← router.resolve key
      return groups.alter shard.id [] (· ++ [keys.length]) := by
  simp only [groupByShard, List.zipIdx_append, List.zipIdx_singleton, List.foldlM_append,
    List.foldlM_cons, List.foldlM_nil, Nat.zero_add, bind_pure]

/-- The error of the first key that is not resolved. -/
def FirstError (router : Router) (keys : List ShardKey) (error : Error) : Prop :=
  ∃ before key after, keys = before ++ key :: after ∧
    (∀ other ∈ before, router.Finds other) ∧ router.resolve key = .error error

theorem groupByShard_cases (router : Router) (keys : List ShardKey) :
    (∃ groups, router.groupByShard keys = .ok groups ∧ (∀ key ∈ keys, router.Finds key) ∧
      router.Grouped keys groups) ∨
    ∃ error, router.groupByShard keys = .error error ∧ router.FirstError keys error := by
  induction keys using List.reverseRecOn with
  | nil => exact .inl ⟨_, rfl, by simp, fun _ => rfl⟩
  | append_singleton keys key ih =>
      rw [groupByShard_concat]
      rcases ih with ⟨groups, done, found, grouped⟩ |
        ⟨error, failed, before, first, after, rfl, found, unresolved⟩
      · rw [done]
        cases resolved : router.resolve key with
        | error error => exact .inr ⟨error, rfl, keys, key, [], rfl, found, resolved⟩
        | ok shard =>
            refine .inl ⟨_, rfl, ?_, grouped.alter resolved⟩
            rw [List.forall_mem_append, List.forall_mem_singleton]
            exact ⟨found, shard, resolved⟩
      · rw [failed]
        exact .inr ⟨error, rfl, before, first, after ++ [key], by simp, found, unresolved⟩

/-! ### The division of all places -/

/-- A division of the places of some keys among the shards: the shards ascend, every shard has some
places, in ascending order, no place is of two shards, all places are of some, and a place is of the
shard that its key is resolved to. -/
structure Divides (router : Router) (keys : List ShardKey)
    (groups : OrderedMap ShardId (List Nat)) : Prop where
  ascending : groups.keys.Pairwise fun a b => compare a b = .lt
  filled : ∀ indices ∈ groups.values, indices ≠ []
  increasing : ∀ indices ∈ groups.values, indices.Pairwise (· < ·)
  apart : groups.values.Pairwise List.Disjoint
  whole : groups.values.flatten.Perm (List.range keys.length)
  owned : ∀ id index, (∃ indices, groups.get? id = some indices ∧ index ∈ indices) ↔
    ∃ key shard, keys[index]? = some key ∧ router.resolve key = .ok shard ∧ shard.id = id

theorem Grouped.mem_entries_iff (grouped : router.Grouped keys groups) {indices : List Nat} :
    (id, indices) ∈ groups.entries ↔
      indices = router.places keys id ∧ router.places keys id ≠ [] := by
  rw [OrderedMap.mem_entries, grouped id]
  by_cases none : router.places keys id = []
  · simp [none]
  · simp [none, eq_comm]

theorem Grouped.mem_values (grouped : router.Grouped keys groups) {indices : List Nat} :
    indices ∈ groups.values ↔
      ∃ id, indices = router.places keys id ∧ router.places keys id ≠ [] := by
  rw [OrderedMap.values, List.mem_map]
  constructor
  · rintro ⟨⟨id, _⟩, mem, rfl⟩
    exact ⟨id, grouped.mem_entries_iff.mp mem⟩
  · rintro ⟨id, listed⟩
    exact ⟨(id, indices), grouped.mem_entries_iff.mpr listed, rfl⟩

theorem Grouped.mem_keys (grouped : router.Grouped keys groups) :
    id ∈ groups.keys ↔ ∃ key ∈ keys, router.home? key = some id := by
  rw [OrderedMap.keys, List.mem_map]
  constructor
  · rintro ⟨⟨_, indices⟩, mem, rfl⟩
    obtain ⟨-, some⟩ := grouped.mem_entries_iff.mp mem
    obtain ⟨index, place⟩ := List.exists_mem_of_ne_nil _ some
    obtain ⟨key, there, home⟩ := mem_places.mp place
    exact ⟨key, List.mem_of_getElem? there, home⟩
  · rintro ⟨key, mem, home⟩
    obtain ⟨index, there⟩ := List.mem_iff_getElem?.mp mem
    have some : router.places keys id ≠ [] :=
      List.ne_nil_of_mem (mem_places.mpr ⟨key, there, home⟩)
    exact ⟨(id, router.places keys id), grouped.mem_entries_iff.mpr ⟨rfl, some⟩, rfl⟩

/-- The groups of two shards have no place in common. -/
theorem Grouped.values_disjoint (grouped : router.Grouped keys groups) :
    groups.values.Pairwise List.Disjoint := by
  refine List.pairwise_map.mpr (groups.ascending.imp_of_mem ?_)
  rintro ⟨id, indices⟩ ⟨other, others⟩ here there below
  obtain ⟨rfl, -⟩ := grouped.mem_entries_iff.mp here
  obtain ⟨rfl, -⟩ := grouped.mem_entries_iff.mp there
  apply places_disjoint
  intro same
  subst same
  rw [Std.ReflOrd.compare_self] at below
  cases below

/-- Where all keys are resolved, their places are divided. -/
theorem Grouped.divides (grouped : router.Grouped keys groups)
    (found : ∀ key ∈ keys, router.Finds key) : router.Divides keys groups := by
  have increasing : ∀ indices ∈ groups.values, indices.Pairwise (· < ·) := by
    intro indices mem
    obtain ⟨id, rfl, -⟩ := grouped.mem_values.mp mem
    exact router.places_ascending keys id
  have once : groups.values.flatten.Nodup := by
    refine List.nodup_flatten.mpr ⟨fun indices mem => ?_, grouped.values_disjoint⟩
    exact (increasing indices mem).imp Nat.ne_of_lt
  refine { ascending := groups.keys_ascending, filled := ?filled, increasing := increasing,
           apart := grouped.values_disjoint, whole := ?whole, owned := ?owned }
  case filled =>
    intro indices mem
    obtain ⟨id, rfl, some⟩ := grouped.mem_values.mp mem
    exact some
  case whole =>
    refine (List.perm_ext_iff_of_nodup once List.nodup_range).mpr fun index => ?_
    rw [List.mem_flatten, List.mem_range]
    constructor
    · rintro ⟨indices, mem, place⟩
      obtain ⟨id, rfl, -⟩ := grouped.mem_values.mp mem
      obtain ⟨key, there, -⟩ := mem_places.mp place
      exact (List.getElem?_eq_some_iff.mp there).1
    · intro inside
      obtain ⟨shard, resolved⟩ := found _ (List.getElem_mem inside)
      have place : index ∈ router.places keys shard.id :=
        mem_places.mpr ⟨_, List.getElem?_eq_getElem inside,
          home?_eq_some_iff.mpr ⟨shard, resolved, rfl⟩⟩
      exact ⟨_, grouped.mem_values.mpr ⟨shard.id, rfl, List.ne_nil_of_mem place⟩, place⟩
  case owned =>
    intro id index
    constructor
    · rintro ⟨indices, listed, mem⟩
      obtain ⟨rfl, -⟩ := grouped.mem_entries_iff.mp (OrderedMap.mem_entries.mpr listed)
      obtain ⟨key, there, home⟩ := mem_places.mp mem
      obtain ⟨shard, resolved, named⟩ := home?_eq_some_iff.mp home
      exact ⟨key, shard, there, resolved, named⟩
    · rintro ⟨key, shard, there, resolved, rfl⟩
      have place : index ∈ router.places keys shard.id :=
        mem_places.mpr ⟨key, there, home?_eq_some_iff.mpr ⟨shard, resolved, rfl⟩⟩
      have listed := grouped.mem_entries_iff.mpr ⟨rfl, List.ne_nil_of_mem place⟩
      exact ⟨_, OrderedMap.mem_entries.mp listed, place⟩

/-! ### The targets of a call for some keys -/

/-- The targets of a call for some keys are the shards that own them, each once and in ascending
order. All of them are in the topology of the router, and a call on them accounts for each of them
once and for no other shard. -/
structure Targeted (router : Router) (keys : List ShardKey) (targets : Targets)
    (owners : List ShardId) : Prop where
  named : targets = .some owners
  ascending : owners.Pairwise fun a b => compare a b = .lt
  mem_iff : ∀ id, id ∈ owners ↔
    ∃ key ∈ keys, ∃ shard, router.resolve key = .ok shard ∧ shard.id = id
  known : targets.strays router.topology = [] ∧
    (targets.known router.topology).map Shard.id = owners
  roll : ∀ {σ α : Type} (executor : Executor) (options : ScatterOptions)
    (operation : Shard → Operation σ α) (moment : Moment σ),
    (executor.scatterWith options targets operation moment).1.roll.Perm owners

theorem Grouped.targeted (grouped : router.Grouped keys groups) :
    router.Targeted keys (.some groups.keys) groups.keys := by
  have ascending := groups.keys_ascending
  have owners (id : ShardId) : id ∈ groups.keys ↔
      ∃ key ∈ keys, ∃ shard, router.resolve key = .ok shard ∧ shard.id = id := by
    simp only [grouped.mem_keys, home?_eq_some_iff]
  have once : groups.keys.Nodup := nodup_of_ascending Prod.fst groups.ascending
  have targets (topology : Topology) : (Targets.some groups.keys).ids topology = groups.keys :=
    distinct_of_nodup once
  have within : ∀ id ∈ groups.keys, id ∈ router.topology.ids := by
    intro id mem
    obtain ⟨key, -, shard, resolved, rfl⟩ := (owners id).mp mem
    rcases router.resolve_cases key with ⟨other, known, -, same⟩ | ⟨what, unresolved⟩
    · obtain rfl := Except.ok.inj (resolved.symm.trans same)
      exact List.mem_map_of_mem known
    · rw [resolved] at unresolved
      cases unresolved
  refine { named := rfl, ascending, mem_iff := owners, known := ⟨?strays, ?known⟩, roll := ?roll }
  case strays => exact Targets.strays_eq_nil within
  case known =>
    rw [Targets.known, Targets.known_ids, targets]
    exact List.filter_eq_self.mpr fun id mem => Topology.contains_iff.mpr (within id mem)
  case roll =>
    intro σ α executor options operation moment
    have roll := executor.scatterWith_roll options (.some groups.keys) operation moment
    rwa [targets] at roll

/-- Grouping divides the places of the keys among the shards they are resolved to, and fails only
with the error of the first key that is not resolved. The targets of a call for the keys are these
shards. -/
theorem keys_grouped (router : Router) (keys : List ShardKey) :
    (match router.groupByShard keys with
      | .ok groups => (∀ key ∈ keys, router.Finds key) ∧ router.Divides keys groups
      | .error error => router.FirstError keys error) ∧
    match Targets.ofKeys router keys with
      | .ok targets =>
          (∀ key ∈ keys, router.Finds key) ∧ ∃ owners, router.Targeted keys targets owners
      | .error error => router.FirstError keys error := by
  unfold Targets.ofKeys
  rcases router.groupByShard_cases keys with ⟨groups, done, found, grouped⟩ | ⟨error, failed, first⟩
  · rw [done]
    exact ⟨⟨found, grouped.divides found⟩, found, groups.keys, grouped.targeted⟩
  · rw [failed]
    exact ⟨first, first⟩

end Router

end ShardFleet
