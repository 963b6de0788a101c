/-!
Finite maps whose entries stand in ascending key order.

The order is part of the type, so a map has one representation: two maps with the same
lookups are equal, and whatever is printed, encoded or hashed from a map depends on its content
alone. Insertion is one pass that replaces on a key already present.
-/

namespace ShardFleet

/-- A finite map from `κ` to `ν`, kept in strictly ascending key order. -/
structure OrderedMap (κ ν : Type) [Ord κ] where
  entries : List (κ × ν)
  ascending : entries.Pairwise fun a b => compare a.1 b.1 = .lt

namespace OrderedMap

variable {κ ν : Type} [Ord κ]

/-- Places `value` under `key` in an ascending entry list, in one pass. -/
def insertEntry (key : κ) (value : ν) : List (κ × ν) → List (κ × ν)
  | [] => [(key, value)]
  | (k, v) :: rest =>
      match compare key k with
      | .lt => (key, value) :: (k, v) :: rest
      | .eq => (key, value) :: rest
      | .gt => (k, v) :: insertEntry key value rest

theorem mem_insertEntry {key : κ} {value : ν} {entry : κ × ν} {entries : List (κ × ν)}
    (mem : entry ∈ insertEntry key value entries) : entry = (key, value) ∨ entry ∈ entries := by
  induction entries with
  | nil => simpa [insertEntry] using mem
  | cons head rest ih =>
      obtain ⟨k, v⟩ := head
      simp only [insertEntry] at mem
      split at mem
      · simpa using mem
      · rcases List.mem_cons.mp mem with h | h
        · exact .inl h
        · exact .inr (List.mem_cons_of_mem _ h)
      · rcases List.mem_cons.mp mem with h | h
        · exact .inr (h ▸ List.mem_cons_self)
        · exact (ih h).imp id (List.mem_cons_of_mem _)

theorem insertEntry_ascending [Std.TransOrd κ] (key : κ) (value : ν) {entries : List (κ × ν)}
    (asc : entries.Pairwise fun a b => compare a.1 b.1 = .lt) :
    (insertEntry key value entries).Pairwise fun a b => compare a.1 b.1 = .lt := by
  induction entries with
  | nil => simp [insertEntry]
  | cons head rest ih =>
      obtain ⟨k, v⟩ := head
      obtain ⟨above, restAsc⟩ := List.pairwise_cons.mp asc
      simp only [insertEntry]
      split
      · next lt =>
          refine List.pairwise_cons.mpr ⟨fun entry mem => ?_, asc⟩
          rcases List.mem_cons.mp mem with rfl | h
          · exact lt
          · exact Std.TransCmp.lt_trans lt (above entry h)
      · next eq =>
          exact List.pairwise_cons.mpr
            ⟨fun entry mem => Std.TransCmp.lt_of_eq_of_lt eq (above entry mem), restAsc⟩
      · next gt =>
          refine List.pairwise_cons.mpr ⟨fun entry mem => ?_, ih restAsc⟩
          rcases mem_insertEntry mem with rfl | h
          · exact Std.OrientedCmp.lt_of_gt gt
          · exact above entry h

/-- The map without entries. -/
def empty : OrderedMap κ ν := ⟨[], .nil⟩

instance : Inhabited (OrderedMap κ ν) := ⟨empty⟩

instance [DecidableEq κ] [DecidableEq ν] : DecidableEq (OrderedMap κ ν) := fun a b =>
  decidable_of_iff (a.entries = b.entries)
    ⟨fun h => by cases a; cases b; cases h; rfl, fun h => h ▸ rfl⟩

/-- Places `value` under `key`, replacing what was there. -/
def insert [Std.TransOrd κ] (map : OrderedMap κ ν) (key : κ) (value : ν) : OrderedMap κ ν :=
  ⟨insertEntry key value map.entries, insertEntry_ascending key value map.ascending⟩

/-- Keeps the entries that pass the test. -/
def filter (map : OrderedMap κ ν) (keep : κ → ν → Bool) : OrderedMap κ ν :=
  ⟨map.entries.filter fun entry => keep entry.1 entry.2, map.ascending.filter _⟩

/-- Changes the values and leaves the keys. -/
def mapValues {μ : Type} (map : OrderedMap κ ν) (f : κ → ν → μ) : OrderedMap κ μ :=
  ⟨map.entries.map fun entry => (entry.1, f entry.1 entry.2),
    List.Pairwise.map _ (fun _ _ h => h) map.ascending⟩

/-- The map of a list of entries; of several with one key the last stands. -/
def ofList [Std.TransOrd κ] (entries : List (κ × ν)) : OrderedMap κ ν :=
  entries.foldl (fun map entry => map.insert entry.1 entry.2) empty

def keys (map : OrderedMap κ ν) : List κ := map.entries.map Prod.fst

def values (map : OrderedMap κ ν) : List ν := map.entries.map Prod.snd

def size (map : OrderedMap κ ν) : Nat := map.entries.length

variable [DecidableEq κ]

/-- The value under `key`. -/
def get? (map : OrderedMap κ ν) (key : κ) : Option ν :=
  (map.entries.find? fun entry => entry.1 = key).map Prod.snd

def contains (map : OrderedMap κ ν) (key : κ) : Bool := (map.get? key).isSome

/-- The value under `key`, or `default` where there is none. -/
def getD (map : OrderedMap κ ν) (key : κ) (default : ν) : ν := (map.get? key).getD default

/-- Removes the entry under `key`, if there is one. -/
def erase (map : OrderedMap κ ν) (key : κ) : OrderedMap κ ν := map.filter fun k _ => k ≠ key

/-- Replaces the value under `key` by its image, starting from `default` where there is none. -/
def alter [Std.TransOrd κ] (map : OrderedMap κ ν) (key : κ) (default : ν) (f : ν → ν) :
    OrderedMap κ ν :=
  map.insert key (f (map.getD key default))

end OrderedMap

end ShardFleet
