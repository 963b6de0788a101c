import ShardFleet.OrderedMap
import ShardFleet.Proofs.Ascending

/-!
What lookups find in ordered maps.

The entries of a map are what its lookups find (`mem_entries`), so maps with the same lookups are
equal (`ext_get?`). For each operation one equation says what is found afterwards; of several
entries that are put into a map the last one under a key counts (`get?_foldl_insert_entries`).
-/

namespace ShardFleet.OrderedMap

variable {κ ν μ : Type} [Ord κ]

/-! ### Maps of ascending entries -/

theorem insertEntry_of_above [Std.TransOrd κ] {key : κ} {value : ν} {entries : List (κ × ν)}
    (above : ∀ entry ∈ entries, compare entry.1 key = .lt) :
    insertEntry key value entries = entries ++ [(key, value)] := by
  induction entries with
  | nil => rfl
  | cons head rest ih =>
      obtain ⟨below, later⟩ := List.forall_mem_cons.mp above
      have beyond : compare key head.1 = .gt := Std.OrientedCmp.gt_of_lt below
      rw [insertEntry, beyond]
      exact congrArg (head :: ·) (ih later)

/-- Entries that come after those of a map in ascending order are put at its end. -/
theorem entries_foldl_insert [Std.TransOrd κ] {later : List (κ × ν)} {map : OrderedMap κ ν}
    (ascending : (map.entries ++ later).Pairwise fun a b => compare a.1 b.1 = .lt) :
    (later.foldl (fun map entry => map.insert entry.1 entry.2) map).entries =
      map.entries ++ later := by
  induction later generalizing map with
  | nil => simp
  | cons entry rest ih =>
      have above : ∀ other ∈ map.entries, compare other.1 entry.1 = .lt := fun other mem =>
        (List.pairwise_append.mp ascending).2.2 other mem entry List.mem_cons_self
      have placed : (map.insert entry.1 entry.2).entries = map.entries ++ [entry] :=
        insertEntry_of_above above
      have split : map.entries ++ entry :: rest = (map.insert entry.1 entry.2).entries ++ rest := by
        rw [placed, List.append_assoc]
        rfl
      rw [List.foldl_cons, ih (split ▸ ascending), split]

/-- A map is its entries. -/
theorem ext_entries {map other : OrderedMap κ ν} (same : map.entries = other.entries) :
    map = other := by
  cases map
  cases other
  congr

/-- A map is the map of its entries. -/
theorem ofList_entries [Std.TransOrd κ] (map : OrderedMap κ ν) : ofList map.entries = map :=
  ext_entries (entries_foldl_insert map.ascending)

theorem keys_ascending (map : OrderedMap κ ν) :
    map.keys.Pairwise fun a b => compare a b = .lt :=
  List.pairwise_map.mpr map.ascending

/-! ### Lookups -/

variable [DecidableEq κ]

theorem mem_entries [Std.TransOrd κ] {map : OrderedMap κ ν} {key : κ} {value : ν} :
    (key, value) ∈ map.entries ↔ map.get? key = some value := by
  obtain ⟨entries, ascending⟩ := map
  simp only [get?]
  constructor
  · intro mem
    induction entries with
    | nil => cases mem
    | cons head rest ih =>
        obtain ⟨above, restAscending⟩ := List.pairwise_cons.mp ascending
        rcases List.mem_cons.mp mem with rfl | later
        · simp
        · have different : head.1 ≠ key := by
            rintro rfl
            have below := above _ later
            rw [Std.ReflOrd.compare_self] at below
            cases below
          rw [List.find?_cons_of_neg (by simpa using different)]
          exact ih restAscending later
  · intro found
    obtain ⟨entry, first, rfl⟩ := Option.map_eq_some_iff.mp found
    have named : entry.1 = key := by simpa using List.find?_some first
    exact named ▸ List.mem_of_find?_eq_some first

theorem mem_keys [Std.TransOrd κ] {map : OrderedMap κ ν} {key : κ} :
    key ∈ map.keys ↔ ∃ value, map.get? key = some value := by
  simp [keys, mem_entries]

theorem get?_filter_eq_some [Std.TransOrd κ] {map : OrderedMap κ ν} {keep : κ → ν → Bool}
    {key : κ} {value : ν} :
    (map.filter keep).get? key = some value ↔ map.get? key = some value ∧ keep key value := by
  rw [← mem_entries, ← mem_entries, filter, List.mem_filter]

/-- A map is what its lookups find. -/
theorem ext_get? [Std.TransOrd κ] {map other : OrderedMap κ ν}
    (same : ∀ key, map.get? key = other.get? key) : map = other := by
  refine ext_entries (eq_of_ascending Prod.fst map.ascending other.ascending ?_)
  rintro ⟨key, value⟩
  rw [mem_entries, mem_entries, same]

/-- A value is held as often as there are keys under which it is found. -/
theorem count_values [Std.TransOrd κ] [DecidableEq ν] {map : OrderedMap κ ν} {value : ν}
    {keys : List κ} (distinct : keys.Nodup)
    (held : ∀ key, map.get? key = some value ↔ key ∈ keys) :
    map.values.count value = keys.length := by
  let holders := (map.entries.filter fun entry => entry.2 = value).map Prod.fst
  have counted : map.values.count value = holders.length := by
    rw [values, List.count, List.countP_map, List.countP_eq_length_filter, List.length_map]
    rfl
  have nodup : holders.Nodup :=
    (nodup_of_ascending Prod.fst map.ascending).sublist (List.filter_sublist.map _)
  have perm : holders.Perm keys := by
    refine (List.perm_ext_iff_of_nodup nodup distinct).mpr ?_
    intro key
    simp [holders, mem_entries, held]
  rw [counted, perm.length_eq]

theorem find?_insertEntry [Std.TransOrd κ] [Std.LawfulEqOrd κ] (key k : κ) (value : ν)
    (entries : List (κ × ν)) :
    (insertEntry key value entries).find? (fun entry => entry.1 = k) =
      if k = key then some (key, value) else entries.find? fun entry => entry.1 = k := by
  induction entries with
  | nil => by_cases same : k = key <;> simp [insertEntry, same, eq_comm]
  | cons head rest ih =>
      obtain ⟨other, _⟩ := head
      unfold insertEntry
      by_cases same : k = key
      · subst same
        cases order : compare k other with
        | lt => simp
        | eq => simp
        | gt =>
            have different : other ≠ k := by
              rintro rfl
              rw [Std.ReflOrd.compare_self] at order
              cases order
            simp [different, ih]
      · rw [if_neg same] at ih ⊢
        cases order : compare key other with
        | lt => simp [Ne.symm same]
        | eq =>
            obtain rfl := Std.LawfulEqCmp.eq_of_compare order
            simp [Ne.symm same]
        | gt => simp only [List.find?_cons, ih]

@[simp] theorem get?_insert [Std.TransOrd κ] [Std.LawfulEqOrd κ] (map : OrderedMap κ ν)
    (key k : κ) (value : ν) :
    (map.insert key value).get? k = if k = key then some value else map.get? k := by
  rw [get?, insert, find?_insertEntry]
  split <;> rfl

/-- What is placed last under a key is what counts. -/
theorem insert_insert [Std.TransOrd κ] [Std.LawfulEqOrd κ] (map : OrderedMap κ ν) (key : κ)
    (first last : ν) : (map.insert key first).insert key last = map.insert key last := by
  refine ext_get? fun k => ?_
  rw [get?_insert, get?_insert, get?_insert]
  split <;> rfl

@[simp] theorem get?_mapValues (map : OrderedMap κ ν) (f : κ → ν → μ) (key : κ) :
    (map.mapValues f).get? key = (map.get? key).map (f key) := by
  obtain ⟨entries, ascending⟩ := map
  simp only [get?, mapValues]
  clear ascending
  induction entries with
  | nil => rfl
  | cons head rest ih =>
      by_cases same : head.1 = key
      · simp [same]
      · simpa [same] using ih

@[simp] theorem getD_insert [Std.TransOrd κ] [Std.LawfulEqOrd κ] (map : OrderedMap κ ν)
    (key k : κ) (value default : ν) :
    (map.insert key value).getD k default = if k = key then value else map.getD k default := by
  rw [getD, get?_insert]
  split <;> rfl

@[simp] theorem getD_alter [Std.TransOrd κ] [Std.LawfulEqOrd κ] (map : OrderedMap κ ν)
    (key k : κ) (default : ν) (f : ν → ν) :
    (map.alter key default f).getD k default =
      if k = key then f (map.getD key default) else map.getD k default := by
  rw [alter, getD_insert]

/-! ### Several entries at once -/

/-- Where no two entries have one key, the last one under a key is the one. -/
theorem find?_reverse_eq_some_iff {α β : Type} [DecidableEq α] {entries : List (α × β)}
    (distinct : (entries.map Prod.fst).Nodup) {key : α} {value : β} :
    (entries.reverse.find? fun entry => entry.1 = key).map Prod.snd = some value ↔
      (key, value) ∈ entries := by
  constructor
  · intro found
    obtain ⟨entry, first, rfl⟩ := Option.map_eq_some_iff.mp found
    have named : entry.1 = key := by simpa using List.find?_some first
    exact named ▸ List.mem_reverse.mp (List.mem_of_find?_eq_some first)
  · intro mem
    cases first : entries.reverse.find? fun entry => entry.1 = key with
    | none =>
        have absent := List.find?_eq_none.mp first _ (List.mem_reverse.mpr mem)
        simp at absent
    | some entry =>
        have named : entry.1 = key := by simpa using List.find?_some first
        have listed := List.mem_reverse.mp (List.mem_of_find?_eq_some first)
        have same : entry = (key, value) := List.inj_on_of_nodup_map distinct listed mem named
        rw [same]
        rfl

/-- Of entries that are put into a map one after the other the last one under a key counts. -/
theorem get?_foldl_insert_entries [Std.TransOrd κ] [Std.LawfulEqOrd κ] (entries : List (κ × ν))
    (map : OrderedMap κ ν) (key : κ) :
    (entries.foldl (fun map entry => map.insert entry.1 entry.2) map).get? key =
      ((entries.reverse.find? fun entry => entry.1 = key).map Prod.snd).or (map.get? key) := by
  induction entries generalizing map with
  | nil => rfl
  | cons entry rest ih =>
      rw [List.foldl_cons, ih, get?_insert, List.reverse_cons, List.find?_append]
      cases later : rest.reverse.find? fun other => other.1 = key with
      | some other => rfl
      | none =>
          by_cases same : key = entry.1
          · simp [same]
          · simp [same, Ne.symm same]

/-- The entries of one map are put over those of another. -/
theorem get?_foldl_insert_map [Std.TransOrd κ] [Std.LawfulEqOrd κ] (upper map : OrderedMap κ ν)
    (key : κ) :
    (upper.entries.foldl (fun map entry => map.insert entry.1 entry.2) map).get? key =
      (upper.get? key).or (map.get? key) := by
  have distinct := nodup_of_ascending Prod.fst upper.ascending
  have last : (upper.entries.reverse.find? fun entry => entry.1 = key).map Prod.snd =
      upper.get? key := by
    ext value
    rw [find?_reverse_eq_some_iff distinct, mem_entries]
  rw [get?_foldl_insert_entries, last]

theorem get?_ofList_eq_some_iff [Std.TransOrd κ] [Std.LawfulEqOrd κ] {entries : List (κ × ν)}
    (distinct : (entries.map Prod.fst).Nodup) {key : κ} {value : ν} :
    (ofList entries).get? key = some value ↔ (key, value) ∈ entries := by
  have nothing : (empty : OrderedMap κ ν).get? key = none := rfl
  rw [ofList, get?_foldl_insert_entries, nothing, Option.or_none,
    find?_reverse_eq_some_iff distinct]

/-- What a function gives for some keys is put under them. -/
theorem get?_foldl_insert_keys [Std.TransOrd κ] [Std.LawfulEqOrd κ] (keys : List κ) (f : κ → ν)
    (map : OrderedMap κ ν) (key : κ) :
    (keys.foldl (fun map key => map.insert key (f key)) map).get? key =
      if key ∈ keys then some (f key) else map.get? key := by
  induction keys generalizing map with
  | nil => rfl
  | cons first rest ih =>
      rw [List.foldl_cons, ih, get?_insert]
      by_cases later : key ∈ rest
      · simp [later]
      · by_cases same : key = first <;> simp [later, same]

end ShardFleet.OrderedMap
