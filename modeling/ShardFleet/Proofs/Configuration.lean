import ShardFleet.Configuration
import ShardFleet.Proofs.Attempts
import ShardFleet.Proofs.OrderedMap
import ShardFleet.Proofs.Topology

/-!
Topologies, from lists of shards and from configurations.

A list of shards makes a topology exactly if every shard has a name of its own; otherwise the error
names the first shard that has none (`ofList_cases`). A table of the places by name, built one shard
at a time, is refused for the same shard and tells the same places (`accepted_or_refused`). All
lookups of a topology agree with its list (`Topology.finds`). The check of a configuration asks for
no less, so a configuration that passes it has a topology.
-/

namespace ShardFleet

theorem ShardId.isEmpty_iff {id : ShardId} : id.isEmpty = true ↔ id.name = "" := by
  simp [isEmpty]

namespace Topology

variable {shards before rest : List Shard} {shard : Shard} {seen : List ShardId} {position : Nat}
  {index : OrderedMap ShardId Nat} {error : Error}

/-! ### Lists that make a topology -/

/-- Every shard has a name, and no two have one name. -/
structure Admissible (shards : List Shard) : Prop where
  named : ∀ shard ∈ shards, shard.id.name ≠ ""
  distinct : (shards.map Shard.id).Nodup

/-- The error for a shard that comes after `position` others with the names `seen`: it has no name,
or the name of one of them. -/
def Refused (position : Nat) (seen : List ShardId) (shard : Shard) (error : Error) : Prop :=
  (shard.id.name = "" ∧
      error = .config ("shard at position " ++ toString position ++ " has an empty id")) ∨
    (shard.id.name ≠ "" ∧ shard.id ∈ seen ∧
      error = .config ("duplicate shard id: " ++ shard.id.name))

/-- The error names the first shard without a name of its own. -/
def FirstRefused (shards : List Shard) (error : Error) : Prop :=
  ∃ before shard after, shards = before ++ shard :: after ∧ Admissible before ∧
    Refused before.length (before.map Shard.id) shard error

theorem Admissible.concat (admissible : Admissible before) (named : shard.id.name ≠ "")
    (fresh : shard.id ∉ before.map Shard.id) : Admissible (before ++ [shard]) where
  named := by
    rw [List.forall_mem_append, List.forall_mem_singleton]
    exact ⟨admissible.named, named⟩
  distinct := by
    rw [List.map_append, List.map_singleton, ← List.concat_eq_append]
    exact admissible.distinct.concat fresh

theorem FirstRefused.not_admissible (refused : FirstRefused shards error) :
    ¬Admissible shards := by
  rintro ⟨named, distinct⟩
  obtain ⟨before, shard, after, rfl, -, fault⟩ := refused
  rcases fault with ⟨unnamed, -⟩ | ⟨-, taken, -⟩
  · exact named shard (by simp) unnamed
  · rw [List.map_append, List.map_cons] at distinct
    exact (List.nodup_append.mp distinct).2.2 _ taken _ List.mem_cons_self rfl

/-! ### The first fault, shard by shard -/

theorem firstFault_cons :
    firstFault position seen (shard :: rest) =
      (firstFault position seen [shard]).or
        (firstFault (position + 1) (shard.id :: seen) rest) := by
  simp only [firstFault]
  split
  · rfl
  · split <;> rfl

/-- Which names were seen counts, not in which order. -/
theorem firstFault_congr {other : List ShardId} (same : ∀ id, id ∈ seen ↔ id ∈ other) :
    firstFault position seen shards = firstFault position other shards := by
  induction shards generalizing position seen other with
  | nil => rfl
  | cons shard rest ih =>
      have onward : ∀ id, id ∈ shard.id :: seen ↔ id ∈ shard.id :: other := fun id => by
        simp only [List.mem_cons, same]
      simp only [firstFault, same, ih onward]

theorem firstFault_singleton_eq_none :
    firstFault position seen [shard] = none ↔ shard.id.name ≠ "" ∧ shard.id ∉ seen := by
  simp only [firstFault, ShardId.isEmpty_iff]
  split
  · simp_all
  · split <;> simp_all

theorem refused_of_firstFault (fault : firstFault position seen [shard] = some error) :
    Refused position seen shard error := by
  simp only [firstFault, ShardId.isEmpty_iff] at fault
  split at fault
  · next unnamed => exact .inl ⟨unnamed, (Option.some.inj fault).symm⟩
  · next named =>
      split at fault
      · next taken => exact .inr ⟨named, taken, (Option.some.inj fault).symm⟩
      · cases fault

/-! ### The table of places -/

/-- A table tells the places of some shards by name. -/
def Tells (index : OrderedMap ShardId Nat) (shards : List Shard) : Prop :=
  ∀ id, index.get? id = shards.findIdx? fun shard => shard.id = id

theorem Tells.mem_keys (tells : Tells index shards) (id : ShardId) :
    id ∈ index.keys ↔ id ∈ shards.map Shard.id := by
  rw [OrderedMap.mem_keys, ← Option.isSome_iff_exists, tells id, List.findIdx?_isSome]
  simp

theorem Tells.insert (tells : Tells index before) (fresh : shard.id ∉ before.map Shard.id) :
    Tells (index.insert shard.id before.length) (before ++ [shard]) := by
  intro id
  rw [OrderedMap.get?_insert, tells id, List.findIdx?_append]
  by_cases here : id = shard.id
  · subst here
    have absent : (before.findIdx? fun other => other.id = shard.id) = none := by
      simpa [List.findIdx?_eq_none_iff] using fresh
    simp [absent]
  · simp [here, Ne.symm here]

/-- Read after admissible shards and their table, further shards are all accepted into the table,
or the first fault among them ends the reading. -/
theorem accepted_or_refused (admissible : Admissible before) (tells : Tells index before)
    (rest : List Shard) :
    (firstFault before.length (before.map Shard.id) rest = none ∧ Admissible (before ++ rest) ∧
      ∃ whole, indexFrom before.length index rest = .ok whole ∧ Tells whole (before ++ rest)) ∨
    ∃ error, firstFault before.length (before.map Shard.id) rest = some error ∧
      indexFrom before.length index rest = .error error ∧ FirstRefused (before ++ rest) error := by
  induction rest generalizing before index with
  | nil => exact .inl ⟨rfl, by simpa using admissible, index, rfl, by simpa using tells⟩
  | cons shard rest ih =>
      -- The table is asked for its keys where the list is asked for its names; they are the same.
      have alike : firstFault before.length index.keys [shard] =
          firstFault before.length (before.map Shard.id) [shard] := firstFault_congr tells.mem_keys
      rw [firstFault_cons, indexFrom, alike]
      cases alone : firstFault before.length (before.map Shard.id) [shard] with
      | some error =>
          have refused := refused_of_firstFault alone
          exact .inr ⟨error, rfl, rfl, before, shard, rest, rfl, admissible, refused⟩
      | none =>
          obtain ⟨named, fresh⟩ := firstFault_singleton_eq_none.mp alone
          have onward := ih (admissible.concat named fresh) (tells.insert fresh)
          have seen :
              firstFault (before ++ [shard]).length ((before ++ [shard]).map Shard.id) rest =
                firstFault (before.length + 1) (shard.id :: before.map Shard.id) rest := by
            rw [List.length_append, List.length_singleton]
            exact firstFault_congr fun id => by simp [or_comm]
          rw [seen, List.length_append, List.length_singleton, List.append_assoc,
            List.singleton_append] at onward
          exact onward

/-! ### Topologies of lists -/

theorem exists_ofList (sound : firstFault 0 [] shards = none) :
    ∃ topology, ofList shards = .ok topology := by
  unfold ofList
  split
  · next fault => exact nomatch sound.symm.trans fault
  · exact ⟨_, rfl⟩

theorem ofList_eq_error (fault : firstFault 0 [] shards = some error) :
    ofList shards = .error error := by
  unfold ofList
  split
  · next other found => exact congrArg _ (Option.some.inj (found.symm.trans fault))
  · next sound => exact nomatch fault.symm.trans sound

/-- A list makes a topology, which has the list and the table of its places, or is refused with its
first fault. -/
theorem ofList_cases (shards : List Shard) :
    (∃ topology, ofList shards = .ok topology ∧ Admissible shards ∧
      ∃ index, indexed shards = .ok index ∧ ∀ id, index.get? id = topology.position? id) ∨
    ∃ error, ofList shards = .error error ∧ indexed shards = .error error ∧
      FirstRefused shards error := by
  have begun : Tells (.empty : OrderedMap ShardId Nat) [] := fun id => rfl
  rcases accepted_or_refused ⟨by simp, by simp⟩ begun shards with
    ⟨sound, admissible, index, accepted, tells⟩ | ⟨error, fault, refused, first⟩
  · obtain ⟨topology, made⟩ := exists_ofList sound
    refine .inl ⟨topology, made, admissible, index, accepted, fun id => ?_⟩
    rw [tells id, position?, shards_of_ofList made]
    rfl
  · exact .inr ⟨error, ofList_eq_error fault, refused, first⟩

end Topology

namespace Configuration

open ShardFleet.Topology (Admissible)

variable {before rest : List Shard} {shard : Shard} {seen : List ShardId}

theorem checkShards_cons_eq_ok_iff :
    checkShards seen (shard :: rest) = .ok () ↔
      (shard.id.name ≠ "" ∧ shard.endpoint.isEmpty = false ∧ shard.id ∉ seen) ∧
        checkShards (shard.id :: seen) rest = .ok () := by
  simp only [checkShards, ShardId.isEmpty_iff]
  split
  · simp_all
  · split
    · simp_all
    · split <;> simp_all

/-- Checked after admissible shards with names seen before, further shards are admissible with
them. -/
theorem admissible_of_checkShards (admissible : Admissible before)
    (known : ∀ id ∈ before.map Shard.id, id ∈ seen) (passed : checkShards seen rest = .ok ()) :
    Admissible (before ++ rest) := by
  induction rest generalizing before seen with
  | nil => simpa using admissible
  | cons shard rest ih =>
      obtain ⟨⟨named, -, fresh⟩, onward⟩ := checkShards_cons_eq_ok_iff.mp passed
      have longer := admissible.concat named fun mem => fresh (known _ mem)
      have whole := ih longer (fun id mem => ?_) onward
      · rwa [List.append_assoc, List.singleton_append] at whole
      · rw [List.map_append, List.map_singleton, List.mem_append, List.mem_singleton] at mem
        exact List.mem_cons.mpr (mem.symm.imp_right (known id))

/-- The shards of a configuration that passes its check make a topology. -/
theorem exists_topology {config : Configuration} (passed : config.check = .ok ()) :
    ∃ topology, Topology.ofList config.shards = .ok topology := by
  obtain ⟨⟨⟩, checked, -⟩ := bind_eq_ok_iff.mp passed
  rcases Topology.ofList_cases config.shards with ⟨topology, made, -⟩ | ⟨error, -, -, first⟩
  · exact ⟨topology, made⟩
  · have none : Admissible [] := ⟨by simp, by simp⟩
    have admissible : Admissible config.shards := admissible_of_checkShards none (by simp) checked
    exact absurd admissible first.not_admissible

end Configuration

open ShardFleet.Topology (ofList indexed Admissible FirstRefused)

/-- A list of shards makes a topology exactly if every shard has a name of its own. The topology has
the list as it is, all its lookups agree with it, and so does the table of its places. A
configuration that passes its check has a topology, and one that does not fails with what the check
says. -/
theorem topologies_agree_with_lists :
    (∀ shards : List Shard, match ofList shards with
      | .ok topology => Admissible shards ∧ topology.shards = shards ∧
          (∀ id, topology.Finds id) ∧
          ∃ index, indexed shards = .ok index ∧ ∀ id, index.get? id = topology.position? id
      | .error error => ¬Admissible shards ∧ FirstRefused shards error ∧
          indexed shards = .error error) ∧
    ∀ config : Configuration, match config.check with
      | .ok () => ∃ topology, ofList config.shards = .ok topology ∧ config.topology = .ok topology
      | .error error => config.topology = .error error := by
  constructor
  · intro shards
    rcases Topology.ofList_cases shards with ⟨topology, made, admissible, index, accepted, tells⟩ |
      ⟨error, made, refused, first⟩
    · rw [made]
      exact ⟨admissible, Topology.shards_of_ofList made, topology.finds, index, accepted, tells⟩
    · rw [made]
      exact ⟨first.not_admissible, first, refused⟩
  · intro config
    cases passed : config.check with
    | ok =>
        obtain ⟨topology, made⟩ := Configuration.exists_topology passed
        refine ⟨topology, made, ?_⟩
        rw [Configuration.topology, passed]
        exact made
    | error error =>
        rw [Configuration.topology, passed]
        rfl

end ShardFleet
