import Mathlib.Data.Set.Insert
import ShardFleet.Proofs.Ring.Edits

/-!
Rings that depend on their members alone.

While no two points of the shards in play fall together (`HashRing.Apart`), a member owns all of
its points as long as it stays, whoever comes and goes beside it. A ring is then what its members
make it (`HashRing.Standard.unique`): however it came about, it is the ring that is built from its
members, in any order (`HashRing.editAll_eq_ofMembers`).
-/

namespace ShardFleet.HashRing

/-- No two points of these shards fall together, neither of one shard nor of two. -/
def Apart (virtualNodes : Nat) (seed : UInt64) (ids : Set ShardId) : Prop :=
  ∀ a ∈ ids, ∀ b ∈ ids, ∀ i < max virtualNodes 1, ∀ j < max virtualNodes 1,
    (empty virtualNodes seed).point a i = (empty virtualNodes seed).point b j → a = b ∧ i = j

theorem mem_pointsOf {virtualNodes : Nat} {seed : UInt64} {member : ShardId} {point : UInt64} :
    point ∈ (empty virtualNodes seed).pointsOf member ↔
      ∃ i < max virtualNodes 1, (empty virtualNodes seed).point member i = point := by
  simp [pointsOf, empty]

theorem length_pointsOf (virtualNodes : Nat) (seed : UInt64) (member : ShardId) :
    ((empty virtualNodes seed).pointsOf member).length = max virtualNodes 1 := by
  simp [pointsOf, empty]

theorem Apart.eq_of_mem {virtualNodes : Nat} {seed : UInt64} {ids : Set ShardId}
    (apart : Apart virtualNodes seed ids) {a b : ShardId} (left : a ∈ ids) (right : b ∈ ids)
    {point : UInt64} (ofLeft : point ∈ (empty virtualNodes seed).pointsOf a)
    (ofRight : point ∈ (empty virtualNodes seed).pointsOf b) : a = b := by
  obtain ⟨i, low, rfl⟩ := mem_pointsOf.mp ofLeft
  obtain ⟨j, below, same⟩ := mem_pointsOf.mp ofRight
  exact (apart a left b right i low j below same.symm).1

theorem Apart.pointsOf_nodup {virtualNodes : Nat} {seed : UInt64} {ids : Set ShardId}
    (apart : Apart virtualNodes seed ids) {member : ShardId} (mem : member ∈ ids) :
    ((empty virtualNodes seed).pointsOf member).Nodup := by
  refine List.Nodup.map_on ?_ List.nodup_range
  intro i low j below same
  exact (apart member mem member mem i (List.mem_range.mp low) j (List.mem_range.mp below) same).2

/-! ### The ring of some shards -/

/-- The ring has the kept shards for its members, in ascending order; they own all of their points,
and there are no others. -/
structure Standard (virtualNodes : Nat) (seed : UInt64) (kept : ShardId → Prop)
    (ring : HashRing) : Prop where
  nodes : ring.virtualNodes = max virtualNodes 1
  seeded : ring.seed = seed
  ascending : ring.members.Pairwise fun a b => compare a b = .lt
  members : ∀ member, member ∈ ring.members ↔ kept member
  points : ∀ point owner, ring.points.get? point = some owner ↔
    kept owner ∧ point ∈ (empty virtualNodes seed).pointsOf owner

/-- There is one such ring. -/
theorem Standard.unique {virtualNodes : Nat} {seed : UInt64} {kept : ShardId → Prop}
    {ring other : HashRing} (standard : Standard virtualNodes seed kept ring)
    (also : Standard virtualNodes seed kept other) : ring = other := by
  have points : ring.points = other.points := by
    refine OrderedMap.ext_get? fun point => Option.ext fun owner => ?_
    rw [standard.points, also.points]
  have members : ring.members = other.members := by
    refine eq_of_ascending id standard.ascending also.ascending fun member => ?_
    rw [standard.members, also.members]
  have nodes := standard.nodes.trans also.nodes.symm
  have seeded := standard.seeded.trans also.seeded.symm
  cases ring
  cases other
  simp_all

/-- On the ring of some shards each of them has its full number of points. -/
theorem Standard.count_points {virtualNodes : Nat} {seed : UInt64} {kept : ShardId → Prop}
    {ring : HashRing} (standard : Standard virtualNodes seed kept ring) {ids : Set ShardId}
    (apart : Apart virtualNodes seed ids) {member : ShardId} (mem : member ∈ ids)
    (present : kept member) : ring.points.values.count member = max virtualNodes 1 := by
  rw [← length_pointsOf virtualNodes seed member]
  refine OrderedMap.count_values (apart.pointsOf_nodup mem) fun point => ?_
  rw [standard.points]
  exact and_iff_right present

theorem Standard.count_absent {virtualNodes : Nat} {seed : UInt64} {kept : ShardId → Prop}
    {ring : HashRing} (standard : Standard virtualNodes seed kept ring) {member : ShardId}
    (absent : ¬ kept member) : ring.points.values.count member = 0 := by
  refine OrderedMap.count_values List.nodup_nil fun point => ?_
  rw [standard.points]
  simp [absent]

/-! ### Edited rings -/

/-- Every member owns all of its points. -/
def Full (ring : HashRing) : Prop :=
  ∀ member ∈ ring.members, ∀ point ∈ ring.pointsOf member, ring.points.get? point = some member

/-- An edit about a shard that shares no point with another member takes no point from one. -/
theorem Full.edit {ring : HashRing} (full : ring.Full) {change : Edit}
    (alone : ∀ other ∈ ring.members, ∀ point ∈ ring.pointsOf other,
      point ∈ ring.pointsOf change.member → other = change.member) :
    (ring.edit change).Full := by
  intro member mem point own
  rw [pointsOf_edit] at own
  cases change with
  | add placed =>
      by_cases present : placed ∈ ring.members
      · rw [HashRing.edit, add, if_pos present] at mem ⊢
        exact full member mem point own
      · rw [HashRing.edit, get?_add present]
        rcases mem_members_add.mp mem with before | rfl
        · split
          · next claimed => rw [alone member before point own claimed, Edit.member]
          · exact full member before point own
        · rw [if_pos own]
  | remove gone =>
      obtain ⟨before, other⟩ := mem_members_remove.mp mem
      exact (without_remove ring gone).kept point member (full member before point own) other

theorem full_editAll {virtualNodes : Nat} {seed : UInt64} {ids : Set ShardId}
    (apart : Apart virtualNodes seed ids) {edits : List Edit}
    (inPlay : ∀ change ∈ edits, change.member ∈ ids) :
    ((empty virtualNodes seed).editAll edits).Full := by
  induction edits using List.reverseRecOn with
  | nil =>
      intro member mem
      cases mem
  | append_singleton edits change ih =>
      have earlier : ∀ change ∈ edits, change.member ∈ ids := fun change mem =>
        inPlay change (List.mem_append_left _ mem)
      rw [editAll_append]
      refine (ih earlier).edit fun other mem point own claimed => ?_
      obtain ⟨before, after, rfl, -⟩ := mem_members_editAll.mp mem
      rw [pointsOf_editAll] at own claimed
      exact apart.eq_of_mem (earlier (.add other) (by simp)) (inPlay change (by simp)) own claimed

/-- The ring after edits is the ring of the shards that survive them. -/
theorem standard_editAll {virtualNodes : Nat} {seed : UInt64} {ids : Set ShardId}
    (apart : Apart virtualNodes seed ids) {edits : List Edit}
    (inPlay : ∀ change ∈ edits, change.member ∈ ids) :
    Standard virtualNodes seed (Survives edits) ((empty virtualNodes seed).editAll edits) where
  nodes := virtualNodes_editAll _ edits
  seeded := seed_editAll _ edits
  ascending := members_ascending_editAll virtualNodes seed edits
  members := fun _ => mem_members_editAll
  points := by
    intro point owner
    constructor
    · intro placed
      obtain ⟨mem, own⟩ := owned_editAll virtualNodes seed edits point owner placed
      rw [pointsOf_editAll] at own
      exact ⟨mem_members_editAll.mp mem, own⟩
    · rintro ⟨survives, own⟩
      refine full_editAll apart inPlay owner (mem_members_editAll.mpr survives) point ?_
      rwa [pointsOf_editAll]

/-! ### Rings built from their members -/

theorem ofMembers_eq_editAll (members : List ShardId) (virtualNodes : Nat) (seed : UInt64) :
    ofMembers members virtualNodes seed =
      (empty virtualNodes seed).editAll (members.map Edit.add) := by
  rw [ofMembers, editAll, List.foldl_map]
  rfl

theorem survives_map_add {members : List ShardId} {member : ShardId} :
    Survives (members.map Edit.add) member ↔ member ∈ members := by
  constructor
  · rintro ⟨earlier, later, split, -⟩
    have mem : Edit.add member ∈ members.map Edit.add := by simp [split]
    obtain ⟨other, there, same⟩ := List.mem_map.mp mem
    exact Edit.add.inj same ▸ there
  · intro mem
    obtain ⟨earlier, later, rfl⟩ := List.append_of_mem mem
    exact ⟨earlier.map .add, later.map .add, by simp, by simp⟩

/-- The ring built from a list of shards is their ring, whatever their order. -/
theorem standard_ofMembers {virtualNodes : Nat} {seed : UInt64} {ids : Set ShardId}
    (apart : Apart virtualNodes seed ids) {members : List ShardId}
    (inPlay : ∀ member ∈ members, member ∈ ids) :
    Standard virtualNodes seed (· ∈ members) (ofMembers members virtualNodes seed) := by
  have placed : ∀ change ∈ members.map Edit.add, change.member ∈ ids := by
    intro change mem
    obtain ⟨member, there, rfl⟩ := List.mem_map.mp mem
    exact inPlay member there
  have built := standard_editAll apart placed
  have kept : Survives (members.map Edit.add) = (· ∈ members) :=
    funext fun _ => propext survives_map_add
  rwa [kept, ← ofMembers_eq_editAll] at built

/-- A new member that is taken off at once leaves the ring as it was. -/
theorem remove_add_editAll {virtualNodes : Nat} {seed : UInt64} {ids : Set ShardId}
    (apart : Apart virtualNodes seed ids) {edits : List Edit}
    (inPlay : ∀ change ∈ edits, change.member ∈ ids) {member : ShardId} (mem : member ∈ ids)
    (absent : ¬ Survives edits member) :
    (((empty virtualNodes seed).editAll edits).add member).remove member =
      (empty virtualNodes seed).editAll edits := by
  have longer : ∀ change ∈ edits ++ [.add member] ++ [.remove member], change.member ∈ ids := by
    simp only [List.mem_append, List.mem_singleton]
    rintro change ((before | rfl) | rfl)
    · exact inPlay change before
    · exact mem
    · exact mem
  have kept : Survives (edits ++ [.add member] ++ [.remove member]) = Survives edits := by
    funext other
    rw [survives_append, survives_append]
    grind
  have restored := standard_editAll apart longer
  rw [kept, editAll_append, editAll_append] at restored
  exact restored.unique (standard_editAll apart inPlay)

/-- While no points of the shards in play fall together, a ring that came about by edits is the
ring built from those that survive, whatever their order: these are its members, each with its
full number of points. Placing a member that is there changes nothing, nor does taking off one
that is not, and taking a new member off restores the ring. -/
theorem editAll_eq_ofMembers {virtualNodes : Nat} {seed : UInt64} {ids : Set ShardId}
    (apart : Apart virtualNodes seed ids) {edits : List Edit}
    (inPlay : ∀ change ∈ edits, change.member ∈ ids) :
    let ring := (empty virtualNodes seed).editAll edits
    (∀ survivors : List ShardId, (∀ member, member ∈ survivors ↔ Survives edits member) →
      ring = ofMembers survivors virtualNodes seed) ∧
    (ring.members.Pairwise fun a b => compare a b = .lt) ∧
    (∀ member, member ∈ ring.members ↔ Survives edits member) ∧
    (∀ member, Survives edits member →
      ring.points.values.count member = max virtualNodes 1) ∧
    (∀ member, ¬ Survives edits member → ring.points.values.count member = 0) ∧
    (∀ member ∈ ring.members, ring.add member = ring) ∧
    (∀ member ∉ ring.members, ring.remove member = ring) ∧
    (∀ member ∈ ids, member ∉ ring.members → (ring.add member).remove member = ring) := by
  intro ring
  have standard : Standard virtualNodes seed (Survives edits) ring := standard_editAll apart inPlay
  have inIds : ∀ member, Survives edits member → member ∈ ids := by
    rintro member ⟨earlier, later, rfl, -⟩
    exact inPlay (.add member) (by simp)
  refine ⟨?_, standard.ascending, standard.members, ?_, ?_, ?_, ?_, ?_⟩
  · intro survivors same
    have rebuilt := standard_ofMembers apart fun member mem => inIds member ((same member).mp mem)
    have kept : (· ∈ survivors) = Survives edits := funext fun member => propext (same member)
    rw [kept] at rebuilt
    exact standard.unique rebuilt
  · intro member survives
    exact standard.count_points apart (inIds member survives) survives
  · intro member gone
    exact standard.count_absent gone
  · intro member present
    rw [add, if_pos present]
  · intro member absent
    rw [remove, if_neg absent]
  · intro member mem absent
    apply remove_add_editAll apart inPlay mem
    rwa [← standard.members]

/-- Of two shards with two points each one leaves and comes back. -/
theorem editAll_eq_ofMembers_returned :
    let first : ShardId := ⟨"s0"⟩
    let second : ShardId := ⟨"s1"⟩
    let edits := [Edit.add second, .add first, .remove second, .add second]
    Apart 2 0 {first, second} ∧
      (∀ change ∈ edits, change.member ∈ ({first, second} : Set ShardId)) ∧
      (∀ member, member ∈ [first, second] ↔ Survives edits member) ∧
      (empty 2 0).editAll edits = ofMembers [first, second] 2 0 ∧
      ((empty 2 0).editAll edits).points.values.count second = 2 := by
  intro first second edits
  have separate : ∀ a ∈ [first, second], ∀ b ∈ [first, second], ∀ i < 2, ∀ j < 2,
      (empty 2 0).point a i = (empty 2 0).point b j → a = b ∧ i = j := by decide +kernel
  have apart : Apart 2 0 {first, second} := by
    intro a left b right
    exact separate a (by simpa using left) b (by simpa using right)
  have inPlay : ∀ change ∈ edits, change.member ∈ ({first, second} : Set ShardId) := by
    simp [edits, Edit.member]
  have survivors : ∀ member, member ∈ [first, second] ↔ Survives edits member := by
    intro member
    constructor
    · intro mem
      rcases List.mem_pair.mp mem with rfl | rfl
      · exact ⟨[.add second], [.remove second, .add second], rfl, by decide⟩
      · exact ⟨[.add second, .add first, .remove second], [], rfl, by decide⟩
    · rintro ⟨earlier, later, split, -⟩
      have placed : Edit.add member ∈ edits := by simp [split]
      have named : member = second ∨ member = first ∨ member = second := by
        simpa [edits] using placed
      rcases named with rfl | rfl | rfl <;> simp
  obtain ⟨rebuilt, -, -, full, -⟩ := editAll_eq_ofMembers apart inPlay
  exact ⟨apart, inPlay, survivors, rebuilt _ survivors,
    full second ((survivors second).mp (by simp))⟩

end ShardFleet.HashRing
