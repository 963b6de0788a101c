import Mathlib.Data.List.Pairwise
import ShardFleet.Proofs.Ascending
import ShardFleet.Proofs.Topology
import ShardFleet.Router

/-!
Routing by ranges as a plain scan.

Ranges are put in the order of their starts, and each is held against the next one only. That is
enough: as no range is empty, a range that does not reach its neighbour reaches none of those that
follow (`Router.overlapFault_eq_none_iff`), and two ranges in order share a key just if the first
reaches past the start of the second (`KeyRange.apart_iff_of_ordered`). So the lists that are
accepted are those in which no key is in two ranges, and the last range that starts at or before a
key is the only one that can hold it (`Router.byRanges_scans`).
-/

namespace ShardFleet

namespace KeyRange

/-- No key is in both ranges. -/
def Apart (range other : KeyRange) : Prop :=
  ∀ key, ¬ (range.contains key = true ∧ other.contains key = true)

theorem Apart.symm {range other : KeyRange} (apart : range.Apart other) : other.Apart range :=
  fun key both => apart key both.symm

instance : Std.Symm Apart := ⟨fun _ _ => Apart.symm⟩

theorem contains_iff {range : KeyRange} {key : ShardKey} :
    range.contains key = true ↔ (compare range.start key).isLE = true ∧
      ∀ stop, range.stop = some stop → compare key stop = .lt := by
  simp only [contains, Bool.and_eq_true, Option.all_eq_true, decide_eq_true_eq]

theorem isEmpty_eq_false_iff {range : KeyRange} :
    range.isEmpty = false ↔ ∀ stop, range.stop = some stop → range.start < stop := by
  have turned : ∀ stop, (compare stop range.start).isLE = false ↔ range.start < stop := by
    intro stop
    have swapped : compare stop range.start = (compare range.start stop).swap :=
      Std.OrientedCmp.eq_swap
    change _ ↔ compare range.start stop = .lt
    rw [swapped]
    cases compare range.start stop <;> simp
  simp only [isEmpty, Option.any_eq_false, turned]

theorem reaches_eq_false_iff {range next : KeyRange} :
    range.reaches next = false ↔
      ∃ stop, range.stop = some stop ∧ (compare stop next.start).isLE = true := by
  cases bound : range.stop with
  | none => simp [reaches, bound]
  | some stop => cases order : compare stop next.start <;> simp [reaches, bound, order]

/-- A range that is not empty holds its start. -/
theorem contains_start {range : KeyRange} (inhabited : range.isEmpty = false) :
    range.contains range.start = true :=
  contains_iff.mpr ⟨Std.ReflCmp.isLE_rfl, isEmpty_eq_false_iff.mp inhabited⟩

/-- Of two ranges in order, the second of which is not empty, no key is in both if and only if the
first does not reach past the start of the second. -/
theorem apart_iff_of_ordered {range next : KeyRange}
    (ordered : (compare range.start next.start).isLE = true) (inhabited : next.isEmpty = false) :
    range.Apart next ↔ range.reaches next = false := by
  constructor
  · intro apart
    have outside : range.contains next.start ≠ true := fun held =>
      apart next.start ⟨held, contains_start inhabited⟩
    rw [Ne, contains_iff] at outside
    cases bound : range.stop with
    | none => exact absurd ⟨ordered, by simp [bound]⟩ outside
    | some stop =>
        refine reaches_eq_false_iff.mpr ⟨stop, bound, ?_⟩
        by_contra beyond
        refine outside ⟨ordered, ?_⟩
        intro other same
        obtain rfl := Option.some.inj (bound.symm.trans same)
        have above : compare stop next.start = .gt := by
          cases order : compare stop next.start <;> simp [order] at beyond ⊢
        exact Std.OrientedCmp.lt_of_gt above
  · intro short key
    rintro ⟨held, also⟩
    obtain ⟨stop, bound, before⟩ := reaches_eq_false_iff.mp short
    have below := (contains_iff.mp held).2 stop bound
    have above := Std.TransCmp.isLE_trans before (contains_iff.mp also).1
    have loop := Std.TransCmp.lt_of_lt_of_isLE below above
    rw [Std.ReflOrd.compare_self] at loop
    cases loop

/-- A range that does not reach the next one does not reach those that the next does not reach. -/
theorem reaches_trans {range next other : KeyRange} (short : range.reaches next = false)
    (inhabited : next.isEmpty = false) (nextShort : next.reaches other = false) :
    range.reaches other = false := by
  obtain ⟨stop, bound, before⟩ := reaches_eq_false_iff.mp short
  obtain ⟨nextStop, nextBound, beforeOther⟩ := reaches_eq_false_iff.mp nextShort
  have inside : compare next.start nextStop = .lt :=
    isEmpty_eq_false_iff.mp inhabited nextStop nextBound
  have reached := Std.TransCmp.isLE_trans before (Ordering.isLE_of_eq_lt inside)
  exact reaches_eq_false_iff.mpr ⟨stop, bound, Std.TransCmp.isLE_trans reached beforeOther⟩

theorem sort_perm (ranges : List KeyRange) : (sort ranges).Perm ranges :=
  List.mergeSort_perm ranges _

theorem sort_pairwise (ranges : List KeyRange) :
    (sort ranges).Pairwise fun range next => (compare range.start next.start).isLE = true :=
  pairwise_sortBy KeyRange.start ranges

end KeyRange

namespace Router

/-! ### What is accepted -/

/-- Every range is owned by a shard of the topology, every range that has a stop starts before it,
and no key is in two ranges of the list. -/
structure Sound (topology : Topology) (ranges : List KeyRange) : Prop where
  known : ∀ range ∈ ranges, range.shard ∈ topology.ids
  inhabited : ∀ range ∈ ranges, ∀ stop, range.stop = some stop → range.start < stop
  apart : ranges.Pairwise KeyRange.Apart

theorem Sound.perm {topology : Topology} {ranges permuted : List KeyRange}
    (sound : Sound topology ranges) (perm : ranges.Perm permuted) : Sound topology permuted where
  known := fun range mem => sound.known range (perm.mem_iff.mpr mem)
  inhabited := fun range mem => sound.inhabited range (perm.mem_iff.mpr mem)
  apart := (perm.pairwise_iff KeyRange.Apart.symm).mp sound.apart

theorem rangeFault_eq_none_iff {topology : Topology} {ranges : List KeyRange} :
    rangeFault topology ranges = none ↔
      ∀ range ∈ ranges, range.shard ∈ topology.ids ∧ range.isEmpty = false := by
  induction ranges with
  | nil => simp [rangeFault]
  | cons range rest ih =>
      rw [rangeFault, List.forall_mem_cons, ← ih, ← Topology.contains_iff]
      cases topology.contains range.shard <;> cases range.isEmpty <;> simp

/-- Ranges none of which reaches its neighbour reach none that comes later. -/
theorem overlapFault_eq_none_iff {ranges : List KeyRange}
    (inhabited : ∀ range ∈ ranges, range.isEmpty = false) :
    overlapFault ranges = none ↔
      ranges.Pairwise fun range next => range.reaches next = false := by
  induction ranges with
  | nil => simp [overlapFault]
  | cons range rest ih =>
      have later := ih fun other mem => inhabited other (List.mem_cons_of_mem _ mem)
      cases rest with
      | nil => simp [overlapFault]
      | cons next rest =>
          rw [overlapFault, List.pairwise_cons, ← later]
          constructor
          · intro faultless
            split at faultless
            · cases faultless
            · next short =>
                have short : range.reaches next = false := by simpa using short
                refine ⟨?_, faultless⟩
                intro other mem
                rcases List.mem_cons.mp mem with rfl | mem
                · exact short
                · have beyond := (List.pairwise_cons.mp (later.mp faultless)).1 other mem
                  exact KeyRange.reaches_trans short (inhabited next (by simp)) beyond
          · rintro ⟨short, faultless⟩
            rw [short next List.mem_cons_self]
            exact faultless

theorem pairwise_reaches_iff {ranges : List KeyRange}
    (ordered : ranges.Pairwise fun range next => (compare range.start next.start).isLE = true)
    (inhabited : ∀ range ∈ ranges, range.isEmpty = false) :
    (ranges.Pairwise fun range next => range.reaches next = false) ↔
      ranges.Pairwise KeyRange.Apart := by
  constructor
  · intro short
    refine (ordered.and short).imp_of_mem ?_
    rintro range next - mem ⟨before, short⟩
    exact (KeyRange.apart_iff_of_ordered before (inhabited next mem)).mpr short
  · intro apart
    refine (ordered.and apart).imp_of_mem ?_
    rintro range next - mem ⟨before, apart⟩
    exact (KeyRange.apart_iff_of_ordered before (inhabited next mem)).mp apart

theorem faultless_iff {topology : Topology} {ranges : List KeyRange}
    (ordered : ranges.Pairwise fun range next => (compare range.start next.start).isLE = true) :
    (rangeFault topology ranges).or (overlapFault ranges) = none ↔ Sound topology ranges := by
  rw [Option.or_eq_none_iff, rangeFault_eq_none_iff]
  constructor
  · rintro ⟨fit, faultless⟩
    have inhabited : ∀ range ∈ ranges, range.isEmpty = false := fun range mem => (fit range mem).2
    exact ⟨fun range mem => (fit range mem).1,
      fun range mem => KeyRange.isEmpty_eq_false_iff.mp (inhabited range mem),
      (pairwise_reaches_iff ordered inhabited).mp
        ((overlapFault_eq_none_iff inhabited).mp faultless)⟩
  · intro sound
    have inhabited : ∀ range ∈ ranges, range.isEmpty = false := fun range mem =>
      KeyRange.isEmpty_eq_false_iff.mpr (sound.inhabited range mem)
    exact ⟨fun range mem => ⟨sound.known range mem, inhabited range mem⟩,
      (overlapFault_eq_none_iff inhabited).mpr
        ((pairwise_reaches_iff ordered inhabited).mpr sound.apart)⟩

theorem byRanges_eq_ok_iff {topology : Topology} {ranges : List KeyRange} {router : Router} :
    byRanges topology ranges = .ok router ↔
      Sound topology ranges ∧ router = ⟨topology, .ranges (KeyRange.sort ranges)⟩ := by
  have perm := KeyRange.sort_perm ranges
  have accepted : (rangeFault topology (KeyRange.sort ranges)).or
      (overlapFault (KeyRange.sort ranges)) = none ↔ Sound topology ranges :=
    (faultless_iff (KeyRange.sort_pairwise ranges)).trans
      ⟨fun sound => sound.perm perm, fun sound => sound.perm perm.symm⟩
  rw [byRanges, ← accepted]
  cases (rangeFault topology (KeyRange.sort ranges)).or (overlapFault (KeyRange.sort ranges)) with
  | none => simp [eq_comm]
  | some error => simp

/-! ### What is found -/

/-- The last range that starts at or before a key is the one that holds it. -/
theorem candidate?_eq_some {ranges : List KeyRange}
    (ordered : ranges.Pairwise fun range next => (compare range.start next.start).isLE = true)
    (short : ranges.Pairwise fun range next => range.reaches next = false)
    {range : KeyRange} (mem : range ∈ ranges) {key : ShardKey}
    (held : range.contains key = true) : candidate? ranges key = some range := by
  obtain ⟨started, ending⟩ := KeyRange.contains_iff.mp held
  obtain ⟨before, after, rfl⟩ := List.append_of_mem mem
  have passed : ∀ other ∈ before, (compare other.start key).isLE = true := by
    intro other mem
    have below := (List.pairwise_append.mp ordered).2.2 other mem range (by simp)
    exact Std.TransCmp.isLE_trans below started
  have rest : after.takeWhile (fun other => (compare other.start key).isLE) = [] := by
    cases after with
    | nil => rfl
    | cons next rest =>
        obtain ⟨stop, bound, beyond⟩ := KeyRange.reaches_eq_false_iff.mp
          ((List.pairwise_cons.mp (List.pairwise_append.mp short).2.1).1 next (by simp))
        have ahead := Std.TransCmp.lt_of_lt_of_isLE (ending stop bound) beyond
        have behind : compare next.start key = .gt := Std.OrientedCmp.gt_of_lt ahead
        apply List.takeWhile_cons_of_neg
        simp [behind]
  rw [candidate?, List.takeWhile_append_of_pos passed, List.takeWhile_cons, if_pos started,
    rest, List.getLast?_concat]

theorem mem_of_candidate? {ranges : List KeyRange} {key : ShardKey} {range : KeyRange}
    (found : candidate? ranges key = some range) : range ∈ ranges :=
  (List.takeWhile_sublist _).mem (List.mem_of_getLast? found)

theorem owner_ranges_of_contains {topology : Topology} {ranges : List KeyRange}
    (sound : Sound topology ranges) {range : KeyRange} (mem : range ∈ ranges) {key : ShardKey}
    (held : range.contains key = true) :
    owner ⟨topology, .ranges (KeyRange.sort ranges)⟩ key = .ok range.shard := by
  have sorted := sound.perm (KeyRange.sort_perm ranges).symm
  have ordered := KeyRange.sort_pairwise ranges
  have short := (pairwise_reaches_iff ordered fun other mem =>
    KeyRange.isEmpty_eq_false_iff.mpr (sorted.inhabited other mem)).mpr sorted.apart
  have found := candidate?_eq_some ordered short ((KeyRange.sort_perm ranges).mem_iff.mpr mem) held
  simp only [owner, found, Option.filter_some, held, if_true]

theorem owner_ranges_of_absent {topology : Topology} {ranges : List KeyRange} {key : ShardKey}
    (absent : ∀ range ∈ ranges, range.contains key = false) :
    owner ⟨topology, .ranges (KeyRange.sort ranges)⟩ key =
      .error (.unknownShard ("no range contains key " ++ key.display)) := by
  have nothing : (candidate? (KeyRange.sort ranges) key).filter (·.contains key) = none := by
    refine Option.filter_eq_none_iff.mpr ?_
    intro range found
    have mem := (KeyRange.sort_perm ranges).mem_iff.mp (mem_of_candidate? found)
    simp [absent range mem]
  simp only [owner, nothing]

/-- A key that is in a range is resolved to the owner of that range. -/
theorem resolve_ranges_of_contains {topology : Topology} {ranges : List KeyRange}
    (sound : Sound topology ranges) {range : KeyRange} (mem : range ∈ ranges) {key : ShardKey}
    (held : range.contains key = true) :
    resolve ⟨topology, .ranges (KeyRange.sort ranges)⟩ key = topology.get range.shard := by
  obtain ⟨shard, there, -⟩ := Topology.mem_ids.mp (sound.known range mem)
  have inhabited : topology.isEmpty = false := by
    simpa [Topology.isEmpty] using List.ne_nil_of_mem there
  rw [resolve, owner_ranges_of_contains sound mem held, inhabited]
  rfl

theorem resolve_ranges_of_absent {topology : Topology} {ranges : List KeyRange} {key : ShardKey}
    (absent : ∀ range ∈ ranges, range.contains key = false) :
    resolve ⟨topology, .ranges (KeyRange.sort ranges)⟩ key =
      .error (if topology.isEmpty then noShards key
        else .unknownShard ("no range contains key " ++ key.display)) := by
  rw [resolve, owner_ranges_of_absent absent]
  cases topology.isEmpty <;> rfl

/-- Ranges, in whatever order they are given, make a router if and only if each of them is owned by
a known shard and holds some key, and no key is in two of them. A key is then resolved to the shard
of the one range that holds it, and to none where no range does. The order of the ranges decides
neither whether there is a router nor what it resolves. -/
theorem byRanges_scans (topology : Topology) (ranges : List KeyRange) :
    ((∃ router, byRanges topology ranges = .ok router) ↔ Sound topology ranges) ∧
    (∀ router, byRanges topology ranges = .ok router → ∀ key,
      (∀ range ∈ ranges, range.contains key = true →
        (∀ other ∈ ranges, other.contains key = true → other = range) ∧
        ∃ shard ∈ topology.shards, shard.id = range.shard ∧ router.resolve key = .ok shard) ∧
      ((∀ range ∈ ranges, range.contains key = false) →
        router.resolve key = .error (if topology.isEmpty then noShards key
          else .unknownShard ("no range contains key " ++ key.display)))) ∧
    (∀ permuted, permuted.Perm ranges →
      ((∃ router, byRanges topology permuted = .ok router) ↔
        ∃ router, byRanges topology ranges = .ok router) ∧
      ∀ router other, byRanges topology permuted = .ok router →
        byRanges topology ranges = .ok other → ∀ key, router.resolve key = other.resolve key) := by
  have accepted : ∀ given, (∃ router, byRanges topology given = .ok router) ↔
      Sound topology given := by
    intro given
    constructor
    · rintro ⟨router, built⟩
      exact (byRanges_eq_ok_iff.mp built).1
    · intro sound
      exact ⟨_, byRanges_eq_ok_iff.mpr ⟨sound, rfl⟩⟩
  refine ⟨accepted ranges, ?_, ?_⟩
  · intro router built key
    obtain ⟨sound, rfl⟩ := byRanges_eq_ok_iff.mp built
    refine ⟨?_, resolve_ranges_of_absent⟩
    intro range mem held
    constructor
    · intro other present also
      by_contra different
      exact sound.apart.forall present mem different key ⟨also, held⟩
    · obtain ⟨shard, there, named⟩ := Topology.mem_ids.mp (sound.known range mem)
      refine ⟨shard, there, named, ?_⟩
      rw [resolve_ranges_of_contains sound mem held, ← named]
      exact Topology.get_of_mem there
  · intro permuted perm
    constructor
    · rw [accepted, accepted]
      exact ⟨fun sound => sound.perm perm, fun sound => sound.perm perm.symm⟩
    · intro router other built also key
      obtain ⟨sound, rfl⟩ := byRanges_eq_ok_iff.mp built
      obtain ⟨alike, rfl⟩ := byRanges_eq_ok_iff.mp also
      by_cases held : ∃ range ∈ ranges, range.contains key = true
      · obtain ⟨range, mem, held⟩ := held
        rw [resolve_ranges_of_contains alike mem held,
          resolve_ranges_of_contains sound (perm.mem_iff.mpr mem) held]
      · have absent : ∀ range ∈ ranges, range.contains key = false := by simpa using held
        rw [resolve_ranges_of_absent absent,
          resolve_ranges_of_absent fun range mem => absent range (perm.mem_iff.mp mem)]

end Router

end ShardFleet
