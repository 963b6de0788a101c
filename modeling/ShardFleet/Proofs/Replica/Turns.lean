import Mathlib.Data.Int.CardIntervalMod
import Mathlib.Data.Nat.Count
import ShardFleet.Proofs.Replica.Selections

/-!
Reads in turn.

Under the strategy that goes round, the place a read is given is decided by the cursor and by which
replicas are in good health (`turnOf`), and nothing but a read moves the cursor (`turn_step`). So
while a session is steady its reads are given the turns of the cursor's next values one by one
(`turns_run`), and how often a replica is among them is how often its place among those in good
health is a remainder of these values (`count_turns`).
-/

namespace ShardFleet

/-- The place whose turn it is: that of a replica in good health, or the primary if there is
none. -/
def turnOf (fit : List Nat) (cursor : UInt64) : Slot :=
  match fit[cursor.toNat % fit.length]? with
  | some index => .replica index
  | none => .primary

@[simp] theorem turnOf_nil (cursor : UInt64) : turnOf [] cursor = .primary := rfl

theorem turnOf_eq_iff {fit : List Nat} {cursor : UInt64} {index : Nat} :
    turnOf fit cursor = .replica index ↔ fit[cursor.toNat % fit.length]? = some index := by
  unfold turnOf
  split
  · next found => simp [found]
  · next absent => simp [absent]

/-- The places whose turn it is at the next values of a cursor. -/
def turns (fit : List Nat) (cursor : UInt64) (total : Nat) : List Slot :=
  (List.range total).map fun i => turnOf fit (cursor + UInt64.ofNat i)

theorem turns_succ (fit : List Nat) (cursor : UInt64) (total : Nat) :
    turns fit cursor (total + 1) = turnOf fit cursor :: turns fit (cursor + 1) total := by
  simp [turns, List.range_succ_eq_map, UInt64.add_assoc, UInt64.add_comm 1]

/-- With nobody to take turns the primary has them all. -/
theorem turns_nil (cursor : UInt64) (total : Nat) :
    turns [] cursor total = List.replicate total .primary := by
  simp [turns, List.map_const']

/-- A replica has the turn if there is one. -/
theorem exists_turnOf {fit : List Nat} (some : fit ≠ []) (cursor : UInt64) :
    ∃ index ∈ fit, turnOf fit cursor = .replica index := by
  have turn : cursor.toNat % fit.length < fit.length :=
    Nat.mod_lt _ (List.length_pos_iff.mpr some)
  exact ⟨_, List.getElem_mem turn, turnOf_eq_iff.mpr (List.getElem?_eq_getElem turn)⟩

@[simp] theorem ReplicaSet.cursor_adjust (set : ReplicaSet) (slot : Slot) (f : Nat → Nat) :
    (set.adjust slot f).cursor = set.cursor := by
  cases slot <;> rfl

/-- A selection in turn. The cursor moves if there is a replica to be selected. -/
theorem ReplicaSet.select_roundRobin (set : ReplicaSet) (health : Health) (now draw : Nat) :
    set.select .roundRobin health now draw =
      (turnOf (set.inUse health now) set.cursor,
        { set with
          cursor := if set.inUse health now = [] then set.cursor else set.cursor + 1 }) := by
  by_cases none : set.healthy health now = []
  · rw [select_of_none_healthy none, inUse_eq_nil.mpr none]
    rfl
  · have occupied : (set.healthy health now).isEmpty = false := by simpa using none
    have fit : set.inUse health now ≠ [] := fun empty => none (inUse_eq_nil.mp empty)
    rw [if_neg fit]
    simp only [select, occupied, turnOf, inUse, List.length_map, List.getElem?_map]
    cases (set.healthy health now)[set.cursor.toNat % (set.healthy health now).length]? <;> rfl

/-! ### Remainders of a running number -/

/-- The numbers with which a sum has a given remainder are those congruent to the difference, which
`Nat` does not have. -/
theorem modEq_iff_add_mod_eq {start parts place : Nat} (inside : place < parts) (i : Nat) :
    i ≡ place + start * (parts - 1) [MOD parts] ↔ (start + i) % parts = place := by
  have back : start + (place + start * (parts - 1)) = place + start * parts := by
    obtain ⟨before, rfl⟩ := Nat.exists_eq_succ_of_ne_zero (Nat.ne_zero_of_lt inside)
    simp only [Nat.succ_sub_one, Nat.mul_succ]
    omega
  have remainder : (place + start * parts) % parts = place := by
    rw [Nat.add_mul_mod_self_right, Nat.mod_eq_of_lt inside]
  rw [← Nat.ModEq.add_iff_left (Nat.ModEq.refl start), back, Nat.ModEq, remainder]

/-- Among `total` numbers in a row every remainder comes up an even share of times. -/
theorem evenShare_remainders (start total : Nat) {parts place : Nat} (inside : place < parts) :
    EvenShare total parts
      ((List.range total).countP fun i => (start + i) % parts = place) := by
  have counted : ((List.range total).countP fun i => (start + i) % parts = place) =
      total.count (· ≡ place + start * (parts - 1) [MOD parts]) := by
    apply List.countP_congr
    intro i _
    simp [modEq_iff_add_mod_eq inside]
  have whole := Nat.div_add_mod' total parts
  have short := Nat.mod_lt total (Nat.zero_lt_of_lt inside)
  rw [counted, Nat.count_modEq_card _ (Nat.zero_lt_of_lt inside)]
  apply evenShare_of_bounds
  · split <;> simp only [Nat.add_mul, Nat.one_mul] <;> omega
  · split <;> simp only [Nat.add_mul, Nat.one_mul] <;> omega

/-- Every replica in good health has an even share of the turns of a cursor that does not wrap
around. -/
theorem count_turns {fit : List Nat} (distinct : fit.Nodup) {index : Nat} (mem : index ∈ fit)
    {cursor : UInt64} {total : Nat} (unwrapped : cursor.toNat + total ≤ 2 ^ 64) :
    EvenShare total fit.length ((turns fit cursor total).count (.replica index)) := by
  obtain ⟨place, inside, rfl⟩ := List.getElem_of_mem mem
  have remainders : (turns fit cursor total).count (.replica fit[place]) =
      (List.range total).countP fun i => (cursor.toNat + i) % fit.length = place := by
    rw [turns, List.count, List.countP_map]
    apply List.countP_congr
    intro i early
    have moved : (cursor + UInt64.ofNat i).toNat = cursor.toNat + i := by
      have small : i < total := List.mem_range.mp early
      rw [UInt64.toNat_add, UInt64.toNat_ofNat', Nat.mod_eq_of_lt (by omega : i < 2 ^ 64),
        Nat.mod_eq_of_lt (by omega)]
    have there : (cursor.toNat + i) % fit.length < fit.length :=
      Nat.mod_lt _ (Nat.zero_lt_of_lt inside)
    have turn : turnOf fit (cursor + UInt64.ofNat i) = .replica fit[place] ↔
        (cursor.toNat + i) % fit.length = place := by
      rw [turnOf_eq_iff, moved, List.getElem?_eq_getElem there, Option.some.injEq,
        distinct.getElem_inj_iff]
    simp [turn]
  rw [remainders]
  exact evenShare_remainders cursor.toNat total inside

/-! ### The turns of a session -/

namespace RouterSession

variable {topology : Topology} {session : RouterSession} {shard : ShardId} {set : ReplicaSet}
  {events : List RouterEvent}

theorem pick_in_turn (inTurn : session.router.strategy = .roundRobin)
    (found : session.router.sets.get? shard = some set) (draw : Nat) :
    session.pick set draw =
      (turnOf (session.inUse shard) set.cursor,
        { set with
          cursor := if session.inUse shard = [] then set.cursor else set.cursor + 1 }) := by
  rw [inUse_of_get? found, ← ReplicaSet.select_roundRobin _ _ _ draw, ← inTurn]
  rfl

/-- A read is given the place whose turn it is. -/
theorem selected?_in_turn (inTurn : session.router.strategy = .roundRobin)
    (found : session.router.sets.get? shard = some set) (event : RouterEvent) :
    session.selected? shard event =
      if event.reads shard then some (turnOf (session.inUse shard) set.cursor) else none := by
  cases reads : event.reads shard with
  | false => exact selected?_of_unread reads
  | true =>
      obtain ⟨draw, asked⟩ := reads_iff.mp reads
      rw [selected?_of_read found asked, pick_in_turn inTurn found]
      rfl

/-- Reads move the cursor, one place each, while there is a replica to be selected. Nothing else
does. -/
theorem turn_step (covers : session.router.Covers topology)
    (inTurn : session.router.strategy = .roundRobin)
    (found : session.router.sets.get? shard = some set) (event : RouterEvent) :
    ∃ after, (session.step event).router.sets.get? shard = some after ∧
      after.cursor = if event.reads shard = true ∧ session.inUse shard ≠ [] then set.cursor + 1
        else set.cursor := by
  obtain ⟨after, there, touch⟩ := touch_step covers found event
  refine ⟨after, there, ?_⟩
  cases touch with
  | @acquired draw asked | @looked draw asked =>
      have reads : event.reads shard = true := reads_iff.mpr ⟨draw, asked⟩
      simp [pick_in_turn inTurn found, reads, ite_not]
  | primary unread | returned unread | untouched unread => simp [unread]

/-- The reads of a steady session are given the turns at the values of the cursor from the present
one on. -/
theorem turns_run (covers : session.router.Covers topology)
    (inTurn : session.router.strategy = .roundRobin)
    (found : session.router.sets.get? shard = some set) (steady : session.Steady shard events) :
    session.selections shard events =
        turns (session.inUse shard) set.cursor (events.countP (·.reads shard)) ∧
      ∃ after, (session.run events).router.sets.get? shard = some after ∧
        after.cursor = if session.inUse shard = [] then set.cursor
          else set.cursor + UInt64.ofNat (events.countP (·.reads shard)) := by
  induction events generalizing session set with
  | nil => exact ⟨rfl, set, found, by simp⟩
  | cons event rest ih =>
      obtain ⟨stays, later⟩ := steady_cons_iff.mp steady
      obtain ⟨next, there, moved⟩ := turn_step covers inTurn found event
      obtain ⟨taken, after, placed, cursor⟩ :=
        ih (covers_step covers) ((strategy_step session event).trans inTurn) there later
      rw [stays, moved] at taken cursor
      rw [selections, taken, selected?_in_turn inTurn found, List.countP_cons]
      refine ⟨?_, after, placed, cursor.trans ?_⟩
      · cases event.reads shard with
        | false => rfl
        | true =>
            simp only [if_true, true_and, Option.toList_some, turns_succ, List.singleton_append]
            by_cases none : session.inUse shard = []
            · simp [none, turns_nil]
            · simp [none]
      · cases event.reads shard with
        | false => simp
        | true =>
            by_cases none : session.inUse shard = []
            · simp [none]
            · simp [none, UInt64.ofNat_add, UInt64.add_assoc, UInt64.add_comm 1]

/-- Reads in turn are fair. Among any reads in a row while the same replicas are in good health,
whatever is done between them, each of these replicas is given an even share and nothing else is
given any, unless the cursor wraps around; and while no replica is in good health, every read is
given the primary and the cursor stays. -/
theorem reads_in_turn (covers : session.router.Covers topology)
    (inTurn : session.router.strategy = .roundRobin)
    (found : session.router.sets.get? shard = some set) (steady : session.Steady shard events) :
    let fit := session.inUse shard
    let total := events.countP (·.reads shard)
    let given := session.selections shard events
    given.length = total ∧
      (fit ≠ [] → set.cursor.toNat + total ≤ 2 ^ 64 →
        (∀ slot ∈ given, ∃ index ∈ fit, slot = .replica index) ∧
          ∀ index ∈ fit, EvenShare total fit.length (given.count (.replica index))) ∧
      (fit = [] →
        (∀ slot ∈ given, slot = .primary) ∧
          ∃ after, (session.run events).router.sets.get? shard = some after ∧
            after.cursor = set.cursor) := by
  intro fit total given
  obtain ⟨taken, after, there, cursor⟩ := turns_run covers inTurn found steady
  have turned : given = turns fit set.cursor total := taken
  have distinct : fit.Nodup := (session.inUse_ascending shard).imp Nat.ne_of_lt
  rw [turned]
  refine ⟨by simp [turns], fun some unwrapped => ⟨?replicas, ?even⟩, fun none => ⟨?primary, ?stays⟩⟩
  case replicas =>
    intro slot mem
    obtain ⟨i, -, rfl⟩ := List.mem_map.mp mem
    exact exists_turnOf some _
  case even => exact fun index mem => count_turns distinct mem unwrapped
  case primary =>
    intro slot mem
    rw [none, turns_nil] at mem
    exact List.eq_of_mem_replicate mem
  case stays => exact ⟨after, there, cursor.trans (if_pos none)⟩

/-- Three reads go to two replicas, between a write and a return, after a third replica failed. -/
theorem reads_in_turn_failed :
    let topology : Topology := ⟨[⟨⟨"s"⟩, "p", ["a", "b", "c"]⟩], by decide, by decide⟩
    let session := (start topology {}).run [.health (.failure "b"), .select ⟨"s"⟩ 0]
    let events : List RouterEvent := [.select ⟨"s"⟩ 0, .route ⟨"s"⟩ .write 0,
      .route ⟨"s"⟩ .read 0, .release 0, .route ⟨"s"⟩ .read 0]
    let given := session.selections ⟨"s"⟩ events
    session.inUse ⟨"s"⟩ = [0, 2] ∧ given = [.replica 2, .replica 0, .replica 2] ∧
      EvenShare 3 2 (given.count (.replica 0)) ∧ EvenShare 3 2 (given.count (.replica 2)) := by
  intro topology session events given
  have fit : session.inUse ⟨"s"⟩ = [0, 2] := by decide +kernel
  have covers : session.router.Covers topology := covers_run topology {} _
  have steady : session.Steady ⟨"s"⟩ events := steady_of_unreported covers (by decide +kernel)
  have unwrapped : ∀ set, session.router.sets.get? ⟨"s"⟩ = some set →
      set.cursor.toNat + 3 ≤ 2 ^ 64 := by decide +kernel
  have known : topology.find? ⟨"s"⟩ = some ⟨⟨"s"⟩, "p", ["a", "b", "c"]⟩ := rfl
  obtain ⟨set, found, -⟩ := covers.get?_of_find? known
  obtain ⟨-, fair, -⟩ := reads_in_turn covers (by decide +kernel) found steady
  obtain ⟨-, even⟩ := fair (by simp [fit]) (unwrapped set found)
  rw [fit] at even
  exact ⟨fit, by decide +kernel, even 0 (by simp), even 2 (by simp)⟩

end RouterSession

end ShardFleet
