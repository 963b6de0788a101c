import ShardFleet.Proofs.OrderedMap
import ShardFleet.Ring

/-!
Who owns a position of a hash ring.

From a position one goes upwards, past the greatest point round to the least, and the first point
met decides. Measured that way round, the owner's point is the nearest of all
(`HashRing.ownerAt_eq_some_iff`), so a point that is nearest on one ring is nearest on every ring
that has it and no points beside those of the first (`HashRing.Meets.stays`).

Hence a member that is added takes positions over, and no position changes hands otherwise
(`HashRing.ownerAt_add`); one that is removed loses its own positions and no other changes hands
(`HashRing.ownerAt_remove`). Points of different members may fall together.
-/

namespace ShardFleet

namespace HashRing

/-! ### The nearest point -/

/-- A point ahead is nearer than the points after it, and than those behind. -/
theorem distance_le_of_ahead {position near far : UInt64} (ahead : position ≤ near)
    (later : far < position ∨ near ≤ far) : near - position ≤ far - position := by
  have bounds := And.intro position.toNat_lt (And.intro near.toNat_lt far.toNat_lt)
  rw [UInt64.le_iff_toNat_le] at ahead ⊢
  rw [UInt64.lt_iff_toNat_lt, UInt64.le_iff_toNat_le] at later
  rw [UInt64.toNat_sub, UInt64.toNat_sub]
  omega

/-- Of the points behind, the lower one is nearer. -/
theorem distance_le_of_behind {position near far : UInt64} (behind : far < position)
    (lower : near ≤ far) : near - position ≤ far - position := by
  have bounds := And.intro position.toNat_lt far.toNat_lt
  rw [UInt64.lt_iff_toNat_lt] at behind
  rw [UInt64.le_iff_toNat_le] at lower ⊢
  rw [UInt64.toNat_sub, UInt64.toNat_sub]
  omega

theorem eq_of_distance {position a b : UInt64} (same : a - position = b - position) : a = b := by
  have same := congrArg (· + position) same
  simpa using same

/-- Going upwards from the position, and round, this point of this owner is met first. -/
structure Meets (ring : HashRing) (position point : UInt64) (owner : ShardId) : Prop where
  placed : ring.points.get? point = some owner
  nearest : ∀ other, (ring.points.get? other).isSome → point - position ≤ other - position

/-- A point that is met first stays so while it keeps its owner and no point is added. -/
theorem Meets.stays {ring reduced : HashRing} {position point : UInt64} {owner : ShardId}
    (meets : ring.Meets position point owner) (placed : reduced.points.get? point = some owner)
    (fewer : ∀ other, (reduced.points.get? other).isSome → (ring.points.get? other).isSome) :
    reduced.Meets position point owner :=
  ⟨placed, fun other present => meets.nearest other (fewer other present)⟩

theorem Meets.owner_unique {ring : HashRing} {position p q : UInt64} {owner other : ShardId}
    (meets : ring.Meets position p owner) (also : ring.Meets position q other) : owner = other := by
  have near := meets.nearest q (by simp [also.placed])
  have far := also.nearest p (by simp [meets.placed])
  obtain rfl := eq_of_distance (UInt64.le_antisymm near far)
  exact Option.some.inj (meets.placed.symm.trans also.placed)

/-- On a ring with points every position has an owner, whose point is met first. -/
theorem exists_meets {ring : HashRing} (position : UInt64) (placed : ring.points.entries ≠ []) :
    ∃ point owner, ring.ownerAt position = some owner ∧ ring.Meets position point owner := by
  have ascending := ring.points.ascending
  have entries : ∀ other, (ring.points.get? other).isSome →
      ∃ owner, (other, owner) ∈ ring.points.entries := fun other present => by
    obtain ⟨owner, found⟩ := Option.isSome_iff_exists.mp present
    exact ⟨owner, OrderedMap.mem_entries.mpr found⟩
  cases ahead : ring.points.entries.find? fun entry => position ≤ entry.1 with
  | some entry =>
      obtain ⟨point, owner⟩ := entry
      refine ⟨point, owner, by simp [ownerAt, ahead], ?_, fun other present => ?_⟩
      · exact OrderedMap.mem_entries.mp (List.mem_of_find?_eq_some ahead)
      · obtain ⟨reached, before, after, split, passed⟩ := List.find?_eq_some_iff_append.mp ahead
        obtain ⟨_, mem⟩ := entries other present
        refine distance_le_of_ahead (by simpa using reached) ?_
        rw [split] at mem ascending
        rcases List.mem_append.mp mem with early | late
        · exact .inl (by simpa using passed _ early)
        · rcases List.mem_cons.mp late with same | later
          · exact .inr (by simp [(Prod.mk.inj same).1])
          · have above := (List.pairwise_cons.mp (List.pairwise_append.mp ascending).2.1).1 _ later
            exact .inr (UInt64.le_of_lt (Std.compare_eq_lt.mp above))
  | none =>
      -- No point lies ahead, so the way leads round to the least.
      cases least : ring.points.entries with
      | nil => exact absurd least placed
      | cons entry rest =>
          obtain ⟨point, owner⟩ := entry
          refine ⟨point, owner, ?_, ?_, fun other present => ?_⟩
          · rw [ownerAt, ahead, least]
            rfl
          · exact OrderedMap.mem_entries.mp (least ▸ List.mem_cons_self)
          · obtain ⟨_, mem⟩ := entries other present
            have behind := List.find?_eq_none.mp ahead _ mem
            refine distance_le_of_behind (by simpa using behind) ?_
            rw [least] at mem ascending
            rcases List.mem_cons.mp mem with same | later
            · simp [(Prod.mk.inj same).1]
            · have above := (List.pairwise_cons.mp ascending).1 _ later
              exact UInt64.le_of_lt (Std.compare_eq_lt.mp above)

theorem entries_ne_nil {ring : HashRing} {point : UInt64} {owner : ShardId}
    (placed : ring.points.get? point = some owner) : ring.points.entries ≠ [] :=
  List.ne_nil_of_mem (OrderedMap.mem_entries.mpr placed)

/-- The owner of a position is the owner of the point that is met first. -/
theorem ownerAt_eq_some_iff {ring : HashRing} {position : UInt64} {owner : ShardId} :
    ring.ownerAt position = some owner ↔ ∃ point, ring.Meets position point owner := by
  constructor
  · intro owned
    have placed : ring.points.entries ≠ [] := by
      intro empty
      simp [ownerAt, empty] at owned
    obtain ⟨point, other, found, meets⟩ := exists_meets position placed
    obtain rfl := Option.some.inj (owned.symm.trans found)
    exact ⟨point, meets⟩
  · rintro ⟨point, meets⟩
    obtain ⟨_, other, found, first⟩ := exists_meets position (entries_ne_nil meets.placed)
    rw [found, first.owner_unique meets]

/-- A position without an owner is on a ring without points. -/
theorem ownerAt_eq_none_iff {ring : HashRing} {position : UInt64} :
    ring.ownerAt position = none ↔ ∀ point, ring.points.get? point = none := by
  constructor
  · intro unowned point
    cases placed : ring.points.get? point with
    | none => rfl
    | some owner =>
        obtain ⟨_, other, found, -⟩ := exists_meets position (entries_ne_nil placed)
        rw [unowned] at found
        cases found
  · intro bare
    cases owned : ring.ownerAt position with
    | none => rfl
    | some owner =>
        obtain ⟨point, meets⟩ := ownerAt_eq_some_iff.mp owned
        rw [← meets.placed, bare point]

/-! ### Rings without a member -/

/-- The ring without a member: it has no points beside those of the other ring, and it has all of
those that another member owns there. -/
structure Without (reduced ring : HashRing) (gone : ShardId) : Prop where
  fewer : ∀ point, (reduced.points.get? point).isSome → (ring.points.get? point).isSome
  kept : ∀ point owner, ring.points.get? point = some owner → owner ≠ gone →
    reduced.points.get? point = some owner

/-- Without a member, only the positions that were its own have another owner. -/
theorem Without.ownerAt_eq {reduced ring : HashRing} {gone : ShardId}
    (without : reduced.Without ring gone) {position : UInt64}
    (stranger : ring.ownerAt position ≠ some gone) :
    reduced.ownerAt position = ring.ownerAt position := by
  cases owned : ring.ownerAt position with
  | some owner =>
      obtain ⟨point, meets⟩ := ownerAt_eq_some_iff.mp owned
      have other : owner ≠ gone := fun same => stranger (same ▸ owned)
      have placed := without.kept point owner meets.placed other
      exact ownerAt_eq_some_iff.mpr ⟨point, meets.stays placed without.fewer⟩
  | none =>
      refine ownerAt_eq_none_iff.mpr fun point => ?_
      have bare := ownerAt_eq_none_iff.mp owned point
      have fewer := without.fewer point
      rw [bare] at fewer
      simpa using fewer

/-! ### Adding and removing -/

theorem get?_foldl_insert (places : List UInt64) (member : ShardId)
    (points : OrderedMap UInt64 ShardId) (point : UInt64) :
    (places.foldl (fun map place => map.insert place member) points).get? point =
      if point ∈ places then some member else points.get? point := by
  induction places generalizing points with
  | nil => simp
  | cons place rest ih =>
      rw [List.foldl_cons, ih, OrderedMap.get?_insert]
      by_cases later : point ∈ rest <;> by_cases first : point = place <;> simp [later, first]

/-- A new member gets all of its points, whoever had them. -/
theorem get?_add {ring : HashRing} {member : ShardId} (new : member ∉ ring.members)
    (point : UInt64) : (ring.add member).points.get? point =
      if point ∈ ring.pointsOf member then some member else ring.points.get? point := by
  rw [add, if_neg new]
  exact get?_foldl_insert _ _ _ _

theorem without_add (ring : HashRing) (member : ShardId) :
    ring.Without (ring.add member) member := by
  by_cases present : member ∈ ring.members
  · rw [add, if_pos present]
    exact ⟨fun _ placed => placed, fun _ _ placed _ => placed⟩
  · constructor
    · intro point placed
      rw [get?_add present]
      split
      · rfl
      · exact placed
    · intro point owner placed other
      rw [get?_add present] at placed
      split at placed
      · exact absurd (Option.some.inj placed).symm other
      · exact placed

theorem without_remove (ring : HashRing) (member : ShardId) :
    (ring.remove member).Without ring member := by
  by_cases present : member ∈ ring.members
  · rw [remove, if_pos present]
    constructor
    · intro point placed
      obtain ⟨owner, found⟩ := Option.isSome_iff_exists.mp placed
      rw [(OrderedMap.get?_filter_eq_some.mp found).1]
      rfl
    · intro point owner placed other
      exact OrderedMap.get?_filter_eq_some.mpr ⟨placed, by simpa using other⟩
  · rw [remove, if_neg present]
    exact ⟨fun _ placed => placed, fun _ _ placed _ => placed⟩

/-- Every point belongs to a member. -/
def Closed (ring : HashRing) : Prop :=
  ∀ point owner, ring.points.get? point = some owner → owner ∈ ring.members

theorem mem_members_add {ring : HashRing} {member other : ShardId} :
    other ∈ (ring.add member).members ↔ other ∈ ring.members ∨ other = member := by
  rw [add]
  split
  · next present =>
      exact ⟨.inl, fun either => either.elim id fun same => same ▸ present⟩
  · simp [ShardId.sort]

theorem mem_members_remove {ring : HashRing} {member other : ShardId} :
    other ∈ (ring.remove member).members ↔ other ∈ ring.members ∧ other ≠ member := by
  rw [remove]
  split
  · simp
  · next absent =>
      exact ⟨fun mem => ⟨mem, fun same => absent (same ▸ mem)⟩, And.left⟩

/-- A member has at least one point. -/
theorem first_mem_pointsOf (virtualNodes : Nat) (seed : UInt64) (member : ShardId) :
    (empty virtualNodes seed).point member 0 ∈ (empty virtualNodes seed).pointsOf member :=
  List.mem_map_of_mem (List.mem_range.mpr (Nat.le_max_right virtualNodes 1))

theorem closed_empty (virtualNodes : Nat) (seed : UInt64) : (empty virtualNodes seed).Closed :=
  fun _ _ placed => by cases placed

theorem Closed.add {ring : HashRing} (closed : ring.Closed) (member : ShardId) :
    (ring.add member).Closed := by
  intro point owner placed
  rw [mem_members_add]
  by_cases same : owner = member
  · exact .inr same
  · exact .inl (closed point owner ((without_add ring member).kept point owner placed same))

theorem Closed.remove {ring : HashRing} (closed : ring.Closed) (member : ShardId) :
    (ring.remove member).Closed := by
  intro point owner placed
  rw [mem_members_remove]
  by_cases present : member ∈ ring.members
  · rw [HashRing.remove, if_pos present] at placed
    obtain ⟨found, kept⟩ := OrderedMap.get?_filter_eq_some.mp placed
    exact ⟨closed point owner found, by simpa using kept⟩
  · rw [HashRing.remove, if_neg present] at placed
    have mem := closed point owner placed
    exact ⟨mem, fun same => present (same ▸ mem)⟩

theorem Closed.owner_mem {ring : HashRing} (closed : ring.Closed) {position : UInt64}
    {owner : ShardId} (owned : ring.ownerAt position = some owner) : owner ∈ ring.members := by
  obtain ⟨point, meets⟩ := ownerAt_eq_some_iff.mp owned
  exact closed point owner meets.placed

/-! ### Edited rings -/

/-- A change to a ring. -/
inductive Edit where
  | add (member : ShardId)
  | remove (member : ShardId)
  deriving DecidableEq, Repr

/-- The ring after a change. -/
def edit (ring : HashRing) : Edit → HashRing
  | .add member => ring.add member
  | .remove member => ring.remove member

/-- The ring after changes in a row. -/
def editAll (ring : HashRing) (edits : List Edit) : HashRing := edits.foldl edit ring

theorem Closed.edit {ring : HashRing} (closed : ring.Closed) (change : Edit) :
    (ring.edit change).Closed := by
  cases change with
  | add member => exact closed.add member
  | remove member => exact closed.remove member

/-- What every edit keeps is kept by edits in a row. -/
theorem editAll_keeps (Kept : HashRing → Prop)
    (step : ∀ ring change, Kept ring → Kept (ring.edit change)) {ring : HashRing}
    (start : Kept ring) (edits : List Edit) : Kept (ring.editAll edits) := by
  induction edits generalizing ring with
  | nil => exact start
  | cons change rest ih => exact ih (step ring change start)

theorem Closed.editAll {ring : HashRing} (closed : ring.Closed) (edits : List Edit) :
    (ring.editAll edits).Closed :=
  editAll_keeps Closed (fun _ change closed => closed.edit change) closed edits

/-! ### The ring of a list of members -/

@[simp] theorem pointsOf_add (ring : HashRing) (member other : ShardId) :
    (ring.add member).pointsOf other = ring.pointsOf other := by
  rw [add]
  split <;> rfl

@[simp] theorem seed_add (ring : HashRing) (member : ShardId) :
    (ring.add member).seed = ring.seed := by
  rw [add]
  split <;> rfl

@[simp] theorem seed_ofMembers (members : List ShardId) (virtualNodes : Nat) (seed : UInt64) :
    (ofMembers members virtualNodes seed).seed = seed := by
  suffices ∀ ring : HashRing, (members.foldl add ring).seed = ring.seed from this _
  intro ring
  induction members generalizing ring with
  | nil => rfl
  | cons member rest ih => rw [List.foldl_cons, ih, seed_add]

/-- Members placed in a row: of those who claim a point the last has it. -/
theorem get?_foldl_add {members : List ShardId} {ring : HashRing} (distinct : members.Nodup)
    (new : ∀ member ∈ members, member ∉ ring.members) (point : UInt64) :
    (members.foldl add ring).points.get? point =
      (members.reverse.find? fun member => point ∈ ring.pointsOf member).or
        (ring.points.get? point) := by
  induction members generalizing ring with
  | nil => rfl
  | cons member rest ih =>
      obtain ⟨fresh, distinct⟩ := List.nodup_cons.mp distinct
      have later : ∀ other ∈ rest, other ∉ (ring.add member).members := by
        intro other mem present
        rcases mem_members_add.mp present with before | rfl
        · exact new other (List.mem_cons_of_mem _ mem) before
        · exact fresh mem
      rw [List.foldl_cons, ih distinct later, get?_add (new member List.mem_cons_self),
        List.reverse_cons, List.find?_append, Option.or_assoc]
      simp only [pointsOf_add]
      congr 1
      by_cases claims : point ∈ ring.pointsOf member <;> simp [claims]

/-- The ring of distinct members: of those who claim a point the last has it. -/
theorem get?_ofMembers {members : List ShardId} (distinct : members.Nodup) (virtualNodes : Nat)
    (seed : UInt64) (point : UInt64) :
    (ofMembers members virtualNodes seed).points.get? point =
      members.reverse.find? fun member => point ∈ (empty virtualNodes seed).pointsOf member := by
  rw [ofMembers, get?_foldl_add distinct fun _ _ => List.not_mem_nil]
  exact Option.or_none

theorem without_ofMembers {members : List ShardId} (distinct : members.Nodup)
    (virtualNodes : Nat) (seed : UInt64) (gone : ShardId) :
    (ofMembers (members.filter (· ≠ gone)) virtualNodes seed).Without
      (ofMembers members virtualNodes seed) gone := by
  constructor
  · intro point
    rw [get?_ofMembers distinct, get?_ofMembers (distinct.filter _), List.find?_isSome,
      List.find?_isSome]
    rintro ⟨member, mem, claims⟩
    exact ⟨member, by simp_all, claims⟩
  · intro point owner placed other
    rw [get?_ofMembers distinct] at placed
    rw [get?_ofMembers (distinct.filter _), ← List.filter_reverse, List.find?_filter]
    obtain ⟨claims, before, after, split, silent⟩ := List.find?_eq_some_iff_append.mp placed
    refine List.find?_eq_some_iff_append.mpr ⟨by simpa [other] using claims, before, after,
      split, fun member mem => ?_⟩
    have quiet := silent member mem
    simp_all

end HashRing

end ShardFleet
