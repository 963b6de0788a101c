import ShardFleet.Error
import ShardFleet.OrderedMap

/-!
The shards of a deployment, in a fixed order.

A topology has no unnamed shard and no two shards of one name: both are part of the type, so
every lookup by name has at most one answer. `Topology.ofList` accepts exactly the lists with
these properties and names the first shard that breaks them.
-/

namespace ShardFleet

/-- A shard: its name, the address of its primary and the addresses of its read replicas. -/
structure Shard where
  id : ShardId
  endpoint : String
  replicas : List String
  deriving DecidableEq, Repr, Inhabited

/-- The shards of a deployment, in enumeration order. -/
structure Topology where
  shards : List Shard
  named : ∀ shard ∈ shards, shard.id.isEmpty = false
  distinct : (shards.map Shard.id).Nodup

namespace Topology

/-- The topology without shards. -/
def empty : Topology := ⟨[], by simp, by simp⟩

instance : Inhabited Topology := ⟨empty⟩

/-- The first fault of a shard list, reading from `position` after shards named `seen`. -/
def firstFault (position : Nat) (seen : List ShardId) : List Shard → Option Error
  | [] => none
  | shard :: rest =>
      if shard.id.isEmpty then
        some (.config ("shard at position " ++ toString position ++ " has an empty id"))
      else if shard.id ∈ seen then some (.config ("duplicate shard id: " ++ shard.id.name))
      else firstFault (position + 1) (shard.id :: seen) rest

theorem firstFault_eq_none {position : Nat} {seen : List ShardId} {shards : List Shard}
    (sound : firstFault position seen shards = none) :
    (∀ shard ∈ shards, shard.id.isEmpty = false ∧ shard.id ∉ seen) ∧
      (shards.map Shard.id).Nodup := by
  induction shards generalizing position seen with
  | nil => simp
  | cons shard rest ih =>
      simp only [firstFault] at sound
      split at sound
      · simp at sound
      · next named =>
          split at sound
          · simp at sound
          · next fresh =>
              obtain ⟨apart, nodup⟩ := ih sound
              refine ⟨fun other mem => ?_, ?_⟩
              · rcases List.mem_cons.mp mem with rfl | h
                · exact ⟨by simpa using named, fresh⟩
                · exact ⟨(apart other h).1, fun seenOther =>
                    (apart other h).2 (List.mem_cons_of_mem _ seenOther)⟩
              · refine List.nodup_cons.mpr ⟨fun mem => ?_, nodup⟩
                obtain ⟨other, h, same⟩ := List.mem_map.mp mem
                exact (apart other h).2 (same ▸ List.mem_cons_self)

/-- The topology of a list of shards. -/
def ofList (shards : List Shard) : Except Error Topology :=
  match h : firstFault 0 [] shards with
  | some error => .error error
  | none =>
      .ok ⟨shards, fun shard mem => ((firstFault_eq_none h).1 shard mem).1,
        (firstFault_eq_none h).2⟩

/-- The shard of a name. -/
def find? (topology : Topology) (id : ShardId) : Option Shard :=
  topology.shards.find? fun shard => shard.id = id

/-- The shard of a name, or that there is none. -/
def get (topology : Topology) (id : ShardId) : Except Error Shard :=
  match topology.find? id with
  | some shard => .ok shard
  | none => .error (.unknownShard id.name)

def contains (topology : Topology) (id : ShardId) : Bool := (topology.find? id).isSome

/-- The place of a shard in enumeration order. -/
def position? (topology : Topology) (id : ShardId) : Option Nat :=
  topology.shards.findIdx? fun shard => shard.id = id

/-- The shard at a place in enumeration order. -/
def at? (topology : Topology) (position : Nat) : Option Shard := topology.shards[position]?

/-- The names of all shards in enumeration order. -/
def ids (topology : Topology) : List ShardId := topology.shards.map Shard.id

/-- Adds shards to an index of their places by name, one after the other from `position` on, up to
the first that has a fault after the shards in the index. -/
def indexFrom (position : Nat) (index : OrderedMap ShardId Nat) :
    List Shard → Except Error (OrderedMap ShardId Nat)
  | [] => .ok index
  | shard :: rest =>
      match firstFault position index.keys [shard] with
      | some error => .error error
      | none => indexFrom (position + 1) (index.insert shard.id position) rest

/-- The places of some shards by name, as a table. -/
def indexed (shards : List Shard) : Except Error (OrderedMap ShardId Nat) :=
  indexFrom 0 .empty shards

def size (topology : Topology) : Nat := topology.shards.length

def isEmpty (topology : Topology) : Bool := topology.shards.isEmpty

end Topology

end ShardFleet
