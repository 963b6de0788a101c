import ShardFleet.Proofs.Ring.Edits

/-!
Rings on which every position has an owner.

Only members own positions, and without members nobody does. A ring with members leaves positions
without an owner only if all points of its members were lost: where points of two shards fall
together, the shard placed last takes the point from the other, and when it is taken off the
point goes with it. So a ring covers all positions as soon as one point of one member is a point
of no shard that the edits take off (`HashRing.covers_editAll`). It need not otherwise: a ring of
one member that owns nothing is `HashRing.not_covers_collided`.
-/

namespace ShardFleet.HashRing

/-- Positions and keys are without an owner on a ring without members alone, and otherwise a member
is the owner. -/
structure Covers (ring : HashRing) : Prop where
  positions : ∀ position, (ring.ownerAt position = none ↔ ring.members = []) ∧
    ∀ owner, ring.ownerAt position = some owner → owner ∈ ring.members
  keys : ∀ key, (ring.ownerOf key = none ↔ ring.members = []) ∧
    ∀ owner, ring.ownerOf key = some owner → owner ∈ ring.members

theorem Closed.ownerAt_eq_none {ring : HashRing} (closed : ring.Closed) (none : ring.members = [])
    (position : UInt64) : ring.ownerAt position = .none := by
  refine Option.eq_none_iff_forall_ne_some.mpr ?_
  intro owner owned
  have mem := closed.owner_mem owned
  rw [none] at mem
  cases mem

/-- A closed ring covers all positions once there is a point, or no member. -/
theorem Closed.covers {ring : HashRing} (closed : ring.Closed)
    (placed : ring.members ≠ [] → ∃ point, (ring.points.get? point).isSome) : ring.Covers := by
  have answered : ∀ position, (ring.ownerAt position = none ↔ ring.members = []) ∧
      ∀ owner, ring.ownerAt position = some owner → owner ∈ ring.members := by
    intro position
    refine ⟨⟨fun bare => ?_, fun none => closed.ownerAt_eq_none none position⟩,
      fun owner => closed.owner_mem⟩
    by_contra inhabited
    obtain ⟨point, there⟩ := placed inhabited
    rw [ownerAt_eq_none_iff.mp bare point] at there
    cases there
  exact ⟨answered, fun key => answered (ring.position key)⟩

/-! ### Points that are lost -/

/-- A point of a member that has an owner has one after the edit as well, and so has a point of a
new member, unless the edit takes off another shard that the point was placed for. -/
theorem placed_or_lost_edit {ring : HashRing} (owned : ring.Owned) {change : Edit}
    {member : ShardId} (mem : member ∈ (ring.edit change).members) {point : UInt64}
    (own : point ∈ ring.pointsOf member)
    (there : member ∈ ring.members → (ring.points.get? point).isSome) :
    ((ring.edit change).points.get? point).isSome ∨
      ∃ other ≠ member, change = .remove other ∧ point ∈ ring.pointsOf other := by
  cases change with
  | add placed =>
      left
      by_cases present : member ∈ ring.members
      · exact (without_add ring placed).fewer point (there present)
      · obtain rfl := (mem_members_add.mp mem).resolve_left present
        rw [edit, get?_add present, if_pos own]
        rfl
  | remove gone =>
      obtain ⟨present, different⟩ := mem_members_remove.mp mem
      obtain ⟨owner, found⟩ := Option.isSome_iff_exists.mp (there present)
      by_cases same : owner = gone
      · subst same
        exact .inr ⟨owner, different.symm, rfl, (owned point owner found).2⟩
      · left
        rw [edit, (without_remove ring gone).kept point owner found same]
        rfl

/-- After edits a point of a member has an owner, unless they take off another shard that the point
was placed for. -/
theorem placed_or_lost {virtualNodes : Nat} {seed : UInt64} {edits : List Edit} {member : ShardId}
    (mem : member ∈ ((empty virtualNodes seed).editAll edits).members) {point : UInt64}
    (own : point ∈ (empty virtualNodes seed).pointsOf member) :
    (((empty virtualNodes seed).editAll edits).points.get? point).isSome ∨
      ∃ other ≠ member, .remove other ∈ edits ∧
        point ∈ (empty virtualNodes seed).pointsOf other := by
  induction edits using List.reverseRecOn with
  | nil => cases mem
  | append_singleton edits change ih =>
      by_cases lost : ∃ other ≠ member, .remove other ∈ edits ∧
          point ∈ (empty virtualNodes seed).pointsOf other
      · obtain ⟨other, different, gone, claims⟩ := lost
        exact .inr ⟨other, different, List.mem_append_left _ gone, claims⟩
      · rw [editAll_append] at mem ⊢
        have kept := placed_or_lost_edit (owned_editAll virtualNodes seed edits) mem
          (by rwa [pointsOf_editAll]) fun present => (ih present).resolve_right lost
        refine kept.imp id ?_
        rintro ⟨other, different, rfl, claims⟩
        rw [pointsOf_editAll] at claims
        exact ⟨other, different, by simp, claims⟩

/-- One of the points of the member is a point of no other shard that the edits take off. -/
def Spared (virtualNodes : Nat) (seed : UInt64) (edits : List Edit) (member : ShardId) : Prop :=
  ∃ point ∈ (empty virtualNodes seed).pointsOf member, ∀ other, .remove other ∈ edits →
    point ∈ (empty virtualNodes seed).pointsOf other → other = member

/-- After edits all positions and keys are covered, where some member, if there is any, has a point
that the edits spare. -/
theorem covers_editAll {virtualNodes : Nat} {seed : UInt64} {edits : List Edit}
    (spared : (∃ member, Survives edits member) →
      ∃ member, Survives edits member ∧ Spared virtualNodes seed edits member) :
    ((empty virtualNodes seed).editAll edits).Covers := by
  have owned := owned_editAll virtualNodes seed edits
  refine owned.closed.covers ?_
  intro inhabited
  obtain ⟨some, present⟩ := List.exists_mem_of_ne_nil _ inhabited
  obtain ⟨member, survives, point, own, apart⟩ := spared ⟨some, mem_members_editAll.mp present⟩
  refine ⟨point, (placed_or_lost (mem_members_editAll.mpr survives) own).resolve_right ?_⟩
  rintro ⟨other, different, gone, claims⟩
  exact different (apart other gone claims)

/-- Two shards that have their points, where each has one, in the same place. -/
def twins : ShardId × ShardId := (⟨"shard-eu1e65ec99"⟩, ⟨"shard-usea605269"⟩)

theorem twins_collide : (empty 1 0).pointsOf twins.1 = (empty 1 0).pointsOf twins.2 := by
  decide +kernel

/-- Two shards share their point and a third one, which does not, leaves. -/
theorem covers_editAll_twins :
    let third : ShardId := ⟨"s0"⟩
    let edits := [Edit.add twins.1, .add twins.2, .add third, .remove third]
    ((∃ member, Survives edits member) →
      ∃ member, Survives edits member ∧ Spared 1 0 edits member) ∧
      ((empty 1 0).editAll edits).Covers := by
  intro third edits
  have different : twins.2 ≠ third := by decide +kernel
  have apart : (empty 1 0).point twins.2 0 ∉ (empty 1 0).pointsOf third := by decide +kernel
  have survives : Survives edits twins.2 :=
    ⟨[.add twins.1], [.add third, .remove third], rfl, by simpa using different⟩
  have own := first_mem_pointsOf 1 0 twins.2
  have spared : (∃ member, Survives edits member) →
      ∃ member, Survives edits member ∧ Spared 1 0 edits member := by
    intro _
    refine ⟨twins.2, survives, _, own, ?_⟩
    intro other gone claims
    have named : other = third := by simpa [edits] using gone
    rw [named] at claims
    exact absurd claims apart
  exact ⟨spared, covers_editAll spared⟩

/-- A member all of whose points are points of a shard that comes and goes has none left. -/
theorem lost_of_shadowed {ring : HashRing} (owned : ring.Owned) {member other : ShardId}
    (different : member ≠ other) (new : other ∉ ring.members)
    (shadowed : ∀ point ∈ ring.pointsOf member, point ∈ ring.pointsOf other) (point : UInt64) :
    ((ring.add other).remove other).points.get? point ≠ some member := by
  intro found
  have owned := (owned.edit (.add other)).edit (.remove other)
  have own := (owned point member found).2
  rw [pointsOf_edit, pointsOf_edit] at own
  have present : other ∈ (ring.add other).members := mem_members_add.mpr (.inr rfl)
  rw [remove, if_pos present, OrderedMap.get?_filter_eq_some, get?_add new,
    if_pos (shadowed point own)] at found
  exact different (Option.some.inj found.1).symm

/-- One shard is placed, another takes its only point and leaves: the first is still a member, and
no position has an owner. -/
theorem not_covers_collided :
    let ring := (empty 1 0).editAll [.add twins.1, .add twins.2, .remove twins.2]
    ring.members = [twins.1] ∧ (∀ position, ring.ownerAt position = none) ∧ ¬ ring.Covers := by
  intro ring
  have different : twins.1 ≠ twins.2 := by decide +kernel
  let first := (empty 1 0).add twins.1
  have placed : ∀ member, member ∈ first.members ↔ member = twins.1 := by
    intro member
    simp [first, mem_members_add, empty]
  have members : ∀ member, member ∈ ring.members ↔ member = twins.1 := by
    intro member
    have edited : ring = (first.add twins.2).remove twins.2 := rfl
    rw [edited, mem_members_remove, mem_members_add, placed]
    grind
  have alone : ring.members = [twins.1] := by
    refine eq_of_ascending id (members_ascending_editAll 1 0 _) (by simp) ?_
    simpa using members
  have bare : ∀ position, ring.ownerAt position = none := by
    intro position
    refine ownerAt_eq_none_iff.mpr fun point => Option.eq_none_iff_forall_ne_some.mpr ?_
    intro owner found
    obtain rfl := (members owner).mp ((owned_editAll 1 0 _).closed point owner found)
    refine lost_of_shadowed (owned_editAll 1 0 [.add twins.1]) different ?_ ?_ point found
    · exact fun present => different ((placed twins.2).mp present).symm
    · intro point own
      rw [pointsOf_editAll] at own ⊢
      exact twins_collide ▸ own
  refine ⟨alone, bare, ?_⟩
  intro covers
  have none := (covers.positions 0).1.mp (bare 0)
  rw [alone] at none
  cases none

end ShardFleet.HashRing
