import Mathlib.Data.List.Induction
import ShardFleet.Proofs.Ascending
import ShardFleet.Proofs.Ring.Ownership

/-!
What edits leave of a ring.

A ring that comes about by edits has the members that were placed and not taken off afterwards
(`HashRing.mem_members_editAll`), in ascending order, and a point is owned by a member that it is
a point of (`HashRing.owned_editAll`). This says nothing of points of different members that fall
together: whose such a point is, and whether it is anybody's, depends on the order of the edits.
-/

namespace ShardFleet

theorem ShardId.sort_ascending {ids : List ShardId} (distinct : ids.Nodup) :
    (sort ids).Pairwise fun a b => compare a b = .lt :=
  pairwise_lt_of_nodup (pairwise_sortBy id ids)
    ((List.mergeSort_perm ids _).nodup_iff.mpr distinct)

namespace HashRing

/-- The shard that an edit places or takes off. -/
def Edit.member : Edit → ShardId
  | .add member => member
  | .remove member => member

/-- The edits place the member, and none after that takes it off. -/
def Survives (edits : List Edit) (member : ShardId) : Prop :=
  ∃ earlier later, edits = earlier ++ .add member :: later ∧ .remove member ∉ later

theorem survives_append {edits : List Edit} {change : Edit} {member : ShardId} :
    Survives (edits ++ [change]) member ↔
      change = .add member ∨ Survives edits member ∧ change ≠ .remove member := by
  constructor
  · rintro ⟨earlier, later, split, stays⟩
    rcases List.eq_nil_or_concat' later with rfl | ⟨before, last, rfl⟩
    · obtain ⟨-, same⟩ := List.append_inj' split rfl
      exact .inl (List.singleton_inj.mp same)
    · rw [← List.cons_append, ← List.append_assoc] at split
      obtain ⟨shorter, same⟩ := List.append_inj' split rfl
      obtain rfl := List.singleton_inj.mp same
      rw [List.mem_append, List.mem_singleton, not_or] at stays
      exact .inr ⟨⟨earlier, before, shorter, stays.1⟩, Ne.symm stays.2⟩
  · rintro (rfl | ⟨⟨earlier, later, rfl, stays⟩, other⟩)
    · exact ⟨edits, [], rfl, List.not_mem_nil⟩
    · exact ⟨earlier, later ++ [change], by simp, by simp [stays, other.symm]⟩

/-! ### What no edit changes -/

@[simp] theorem seed_edit (ring : HashRing) (change : Edit) :
    (ring.edit change).seed = ring.seed := by
  cases change with
  | add member => exact seed_add ring member
  | remove member =>
      rw [edit, remove]
      split <;> rfl

@[simp] theorem virtualNodes_edit (ring : HashRing) (change : Edit) :
    (ring.edit change).virtualNodes = ring.virtualNodes := by
  cases change with
  | add member =>
      rw [edit, add]
      split <;> rfl
  | remove member =>
      rw [edit, remove]
      split <;> rfl

theorem pointsOf_edit (ring : HashRing) (change : Edit) (member : ShardId) :
    (ring.edit change).pointsOf member = ring.pointsOf member := by
  simp only [pointsOf, virtualNodes_edit]
  refine List.map_congr_left fun index _ => ?_
  simp only [point, position, seed_edit]

theorem editAll_append (ring : HashRing) (edits : List Edit) (change : Edit) :
    ring.editAll (edits ++ [change]) = (ring.editAll edits).edit change := by
  rw [editAll, editAll, List.foldl_append]
  rfl

@[simp] theorem seed_editAll (ring : HashRing) (edits : List Edit) :
    (ring.editAll edits).seed = ring.seed :=
  editAll_keeps (fun other => other.seed = ring.seed)
    (fun other change same => (seed_edit other change).trans same) rfl edits

@[simp] theorem virtualNodes_editAll (ring : HashRing) (edits : List Edit) :
    (ring.editAll edits).virtualNodes = ring.virtualNodes :=
  editAll_keeps (fun other => other.virtualNodes = ring.virtualNodes)
    (fun other change same => (virtualNodes_edit other change).trans same) rfl edits

@[simp] theorem pointsOf_editAll (ring : HashRing) (edits : List Edit) (member : ShardId) :
    (ring.editAll edits).pointsOf member = ring.pointsOf member :=
  editAll_keeps (fun other => other.pointsOf member = ring.pointsOf member)
    (fun other change same => (pointsOf_edit other change member).trans same) rfl edits

/-! ### Members -/

theorem mem_members_editAll {virtualNodes : Nat} {seed : UInt64} {edits : List Edit}
    {member : ShardId} :
    member ∈ ((empty virtualNodes seed).editAll edits).members ↔ Survives edits member := by
  induction edits using List.reverseRecOn with
  | nil => simp [editAll, empty, Survives]
  | append_singleton edits change ih =>
      rw [editAll_append]
      rw [survives_append, ← ih]
      cases change with
      | add placed =>
          rw [edit, mem_members_add]
          simp [or_comm, eq_comm]
      | remove gone =>
          rw [edit, mem_members_remove]
          simp [eq_comm]

theorem members_ascending_edit {ring : HashRing}
    (ascending : ring.members.Pairwise fun a b => compare a b = .lt) (change : Edit) :
    (ring.edit change).members.Pairwise fun a b => compare a b = .lt := by
  cases change with
  | add member =>
      rw [edit, add]
      split
      · exact ascending
      · next new =>
          have distinct : ring.members.Nodup := by
            simpa using nodup_of_ascending id ascending
          refine ShardId.sort_ascending (List.nodup_append.mpr ⟨distinct, by simp, ?_⟩)
          intro other mem _ same
          rw [List.mem_singleton.mp same]
          rintro rfl
          exact new mem
  | remove member =>
      rw [edit, remove]
      split
      · exact ascending.filter _
      · exact ascending

theorem members_ascending_editAll (virtualNodes : Nat) (seed : UInt64) (edits : List Edit) :
    ((empty virtualNodes seed).editAll edits).members.Pairwise fun a b => compare a b = .lt :=
  editAll_keeps (fun ring => ring.members.Pairwise fun a b => compare a b = .lt)
    (fun _ change ascending => members_ascending_edit ascending change) .nil edits

/-! ### Points -/

/-- Who owns a point is a member that the point was placed for. -/
def Owned (ring : HashRing) : Prop :=
  ∀ point owner, ring.points.get? point = some owner →
    owner ∈ ring.members ∧ point ∈ ring.pointsOf owner

theorem Owned.closed {ring : HashRing} (owned : ring.Owned) : ring.Closed :=
  fun point owner placed => (owned point owner placed).1

theorem Owned.edit {ring : HashRing} (owned : ring.Owned) (change : Edit) :
    (ring.edit change).Owned := by
  intro point owner placed
  refine ⟨owned.closed.edit change point owner placed, ?_⟩
  rw [pointsOf_edit]
  cases change with
  | add member =>
      by_cases present : member ∈ ring.members
      · rw [HashRing.edit, add, if_pos present] at placed
        exact (owned point owner placed).2
      · rw [HashRing.edit, get?_add present] at placed
        split at placed
        · next claimed =>
            obtain rfl := Option.some.inj placed
            exact claimed
        · exact (owned point owner placed).2
  | remove member =>
      rw [HashRing.edit, remove] at placed
      split at placed
      · exact (owned point owner (OrderedMap.get?_filter_eq_some.mp placed).1).2
      · exact (owned point owner placed).2

theorem owned_editAll (virtualNodes : Nat) (seed : UInt64) (edits : List Edit) :
    ((empty virtualNodes seed).editAll edits).Owned := by
  refine editAll_keeps Owned (fun _ change owned => owned.edit change) ?_ edits
  intro point owner placed
  cases placed

end HashRing

end ShardFleet
