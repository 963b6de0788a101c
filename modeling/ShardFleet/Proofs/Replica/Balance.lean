import Mathlib.Algebra.Order.BigOperators.Group.List
import Mathlib.Algebra.Order.Ring.Nat
import ShardFleet.Proofs.Replica.Selections

/-!
Reads by load.

Under the strategy that goes by load a read is given the first of the replicas in good health on
which the fewest leases are held (`Lightest`, `pick_by_load`), and leasing it raises its count by
one. While nothing is given back this never drives two counts further apart than they were, or than
one (`spread_run`), and every lease is counted once (`load_run`); so from equal counts every replica
gets an even share of the leases (`shares_run`).
-/

namespace ShardFleet

/-! ### Counts that lie close together -/

/-- Numbers of which no two differ by more than one are even shares of their sum. -/
theorem evenShare_of_close {counts : List Nat} (close : ∀ a ∈ counts, ∀ b ∈ counts, a ≤ b + 1)
    {share : Nat} (mem : share ∈ counts) : EvenShare counts.sum counts.length share := by
  have above : (counts.map id).sum < (counts.map fun _ => share + 1).sum :=
    List.sum_lt_sum id _ (fun count other => close count other share mem)
      ⟨share, mem, Nat.lt_succ_self share⟩
  have below : (counts.map fun _ => share).sum < (counts.map fun count => count + 1).sum :=
    List.sum_lt_sum _ _ (fun count other => close share mem count other)
      ⟨share, mem, Nat.lt_succ_self share⟩
  apply evenShare_of_bounds
  · simpa [Nat.mul_comm] using above
  · simpa [List.sum_map_add, Nat.mul_comm] using below

/-- Raising one of several counts raises their sum by as much. -/
theorem sum_raised {places : List Nat} (distinct : places.Nodup) {raised : Nat}
    (mem : raised ∈ places) (count : Nat → Nat) :
    (places.map fun place => count place + if place = raised then 1 else 0).sum =
      (places.map count).sum + 1 := by
  have others : ∀ place ∈ places.erase raised, (if place = raised then 1 else 0) = 0 :=
    fun place other => if_neg fun same => distinct.not_mem_erase (same ▸ other)
  have once : (places.map fun place => if place = raised then 1 else 0).sum = 1 := by
    rw [((List.perm_cons_erase mem).map _).sum_eq, List.map_cons, List.sum_cons, if_pos rfl,
      List.map_congr_left others]
    simp
  rw [List.sum_map_add, once]

/-! ### The least loaded replica -/

namespace ReplicaSet

variable {set : ReplicaSet} {health : Health} {now : Nat}

/-- What is selected by load has fewer leases than all before it and no more than all after it. -/
theorem split_of_leastLoaded {entries : List (Endpoint × Nat)} {entry : Endpoint × Nat}
    (least : leastLoaded entries = some entry) :
    ∃ before after, entries = before ++ entry :: after ∧
      (∀ other ∈ before, entry.1.leases < other.1.leases) ∧
      ∀ other ∈ after, entry.1.leases ≤ other.1.leases := by
  induction entries generalizing entry with
  | nil => simp [leastLoaded] at least
  | cons head rest ih =>
      simp only [leastLoaded] at least
      split at least
      · next none =>
          obtain rfl := Option.some.inj least
          obtain rfl := leastLoaded_eq_none.mp none
          exact ⟨[], [], rfl, by simp, by simp⟩
      · next other found =>
          obtain ⟨before, after, split, lighter, light⟩ := ih found
          split at least
          · next less =>
              obtain rfl := Option.some.inj least
              exact ⟨head :: before, after, congrArg (head :: ·) split,
                List.forall_mem_cons.mpr ⟨less, lighter⟩, light⟩
          · next less =>
              obtain rfl := Option.some.inj least
              refine ⟨[], rest, rfl, by simp, fun entry mem => (Nat.not_lt.mp less).trans ?_⟩
              rw [split] at mem
              rcases List.mem_append.mp mem with early | late
              · exact Nat.le_of_lt (lighter entry early)
              · rcases List.mem_cons.mp late with rfl | later
                · exact Nat.le_refl _
                · exact light entry later

/-- The leases counted on a replica. -/
def load (set : ReplicaSet) (index : Nat) : Nat :=
  ((set.at? (.replica index)).map Endpoint.leases).getD 0

theorem load_of_mem {endpoint : Endpoint} {index : Nat}
    (mem : (endpoint, index) ∈ set.healthy health now) : set.load index = endpoint.leases := by
  have there : set.at? (.replica index) = some endpoint := (mem_healthy.mp mem).1
  simp [load, there]

/-- Selection by load comes to the first of the replicas in good health with the fewest leases. -/
theorem select_leastConnections (fit : set.inUse health now ≠ []) (draw : Nat) :
    ∃ index ∈ set.inUse health now,
      set.select .leastConnections health now draw = (.replica index, set) ∧
      ∀ other ∈ set.inUse health now, set.load index ≤ set.load other ∧
        (other < index → set.load index < set.load other) := by
  have some : set.healthy health now ≠ [] := fun none => fit (inUse_eq_nil.mpr none)
  have occupied : (set.healthy health now).isEmpty = false := by simpa using some
  cases least : leastLoaded (set.healthy health now) with
  | none => exact absurd (leastLoaded_eq_none.mp least) some
  | some entry =>
      have mem : (entry.1, entry.2) ∈ set.healthy health now := mem_of_leastLoaded least
      refine ⟨entry.2, List.mem_map_of_mem mem, by simp [select, occupied, least], ?_⟩
      obtain ⟨before, after, split, lighter, light⟩ := split_of_leastLoaded least
      have ascending : ∀ other ∈ after, entry.2 < other.2 := by
        have places : ((set.healthy health now).map Prod.snd).Pairwise (· < ·) :=
          places_pairwise_lt _ _
        rw [split, List.map_append, List.map_cons] at places
        intro other late
        exact (List.pairwise_cons.mp (List.pairwise_append.mp places).2.1).1 _
          (List.mem_map_of_mem late)
      intro index listed
      obtain ⟨⟨endpoint, index⟩, other, rfl⟩ := List.mem_map.mp listed
      rw [load_of_mem mem, load_of_mem other]
      rw [split] at other
      rcases List.mem_append.mp other with early | late
      · exact ⟨Nat.le_of_lt (lighter _ early), fun _ => lighter _ early⟩
      · rcases List.mem_cons.mp late with same | later
        · rw [← same]
          exact ⟨Nat.le_refl _, fun less => absurd less (Nat.lt_irrefl _)⟩
        · exact ⟨light _ later, fun less => absurd less (Nat.lt_asymm (ascending _ later))⟩

theorem load_adjust {slot : Slot} {f : Nat → Nat} {index : Nat} {endpoint : Endpoint}
    (there : set.at? (.replica index) = some endpoint) :
    (set.adjust slot f).load index =
      if .replica index = slot then f (set.load index) else set.load index := by
  rw [load, load, at?_adjust, there]
  split <;> rfl

end ReplicaSet

/-! ### The counts of a session -/

namespace RouterSession

variable {topology : Topology} {session : RouterSession} {shard : ShardId} {set : ReplicaSet}
  {index bound : Nat} {events : List RouterEvent}

/-- The leases counted on a replica of the shard. -/
def load (session : RouterSession) (shard : ShardId) (index : Nat) : Nat :=
  (session.router.sets.get? shard).elim 0 (·.load index)

theorem load_of_get? (found : session.router.sets.get? shard = some set) :
    session.load shard = set.load := by
  funext index
  rw [load, found, Option.elim_some]

/-- A replica in good health with the fewest leases, the first one if there are several. -/
structure Lightest (session : RouterSession) (shard : ShardId) (index : Nat) : Prop where
  fit : index ∈ session.inUse shard
  least : ∀ other ∈ session.inUse shard, session.load shard index ≤ session.load shard other
  first : ∀ other ∈ session.inUse shard, other < index →
    session.load shard index < session.load shard other

/-- The counts of the replicas in good health. -/
def loads (session : RouterSession) (shard : ShardId) : List Nat :=
  (session.inUse shard).map (session.load shard)

/-- How far the counts of the replicas in good health lie apart. -/
def spread (session : RouterSession) (shard : ShardId) : Nat :=
  (session.loads shard).max?.getD 0 - (session.loads shard).min?.getD 0

theorem spread_le_iff :
    session.spread shard ≤ bound ↔
      ∀ index ∈ session.inUse shard, ∀ other ∈ session.inUse shard,
        session.load shard index ≤ session.load shard other + bound := by
  rw [spread]
  constructor
  · intro close index mem other others
    have highest : session.load shard index ≤ (session.loads shard).max?.getD 0 :=
      List.le_max?_getD_of_mem (List.mem_map_of_mem mem)
    have lowest : (session.loads shard).min?.getD 0 ≤ session.load shard other :=
      List.min?_getD_le_of_mem (List.mem_map_of_mem others)
    omega
  · intro close
    cases most : (session.loads shard).max? with
    | none => simp
    | some highest =>
        cases least : (session.loads shard).min? with
        | none => simp [List.min?_eq_none_iff.mp least] at most
        | some lowest =>
            obtain ⟨index, mem, rfl⟩ := List.mem_map.mp (List.max?_mem most)
            obtain ⟨other, others, rfl⟩ := List.mem_map.mp (List.min?_mem least)
            simpa [Nat.sub_le_iff_le_add, Nat.add_comm] using close index mem other others

/-- The replica that serves a read is the lightest. -/
theorem pick_by_load (byLoad : session.router.strategy = .leastConnections)
    (found : session.router.sets.get? shard = some set) (fit : session.inUse shard ≠ [])
    (draw : Nat) :
    ∃ index, session.Lightest shard index ∧
      session.pick set draw = (.replica index, set) := by
  have same := inUse_of_get? found
  rw [same] at fit
  obtain ⟨index, mem, selected, lightest⟩ := ReplicaSet.select_leastConnections fit draw
  refine ⟨index, ?_, ?_⟩
  · constructor
    · rwa [same]
    · rw [same, load_of_get? found]
      exact fun other listed => (lightest other listed).1
    · rw [same, load_of_get? found]
      exact fun other listed => (lightest other listed).2
  · rw [← byLoad] at selected
    exact selected

theorem exists_get?_of_inUse (fit : session.inUse shard ≠ []) :
    ∃ set, session.router.sets.get? shard = some set := by
  cases found : session.router.sets.get? shard with
  | none => simp [inUse, found] at fit
  | some set => exact ⟨set, rfl⟩

/-- Leasing for a read raises the count of the lightest replica in good health by one, and no
other. Every other event that gives nothing back leaves the counts as they are. -/
theorem load_step (covers : session.router.Covers topology)
    (byLoad : session.router.strategy = .leastConnections) (fit : session.inUse shard ≠ [])
    {event : RouterEvent} (unreturned : event.returned? = none) :
    (event.acquires shard = true ∧ ∃ raised, session.Lightest shard raised ∧
      ∀ index ∈ session.inUse shard, (session.step event).load shard index =
        session.load shard index + if index = raised then 1 else 0) ∨
    (event.acquires shard = false ∧ ∀ index ∈ session.inUse shard,
      (session.step event).load shard index = session.load shard index) := by
  obtain ⟨set, found⟩ := exists_get?_of_inUse fit
  obtain ⟨after, there, touch⟩ := touch_step covers found event
  rw [inUse_of_get? found, load_of_get? found, load_of_get? there]
  have placed : ∀ index ∈ set.inUse session.router.health session.now,
      ∃ endpoint, set.at? (.replica index) = some endpoint :=
    fun index mem => (ReplicaSet.mem_inUse.mp mem).imp fun _ listed => listed.1
  cases touch with
  | @acquired draw asked routes =>
      obtain ⟨raised, lightest, served⟩ := pick_by_load byLoad found fit draw
      have reads : event.reads shard = true := reads_iff.mpr ⟨draw, asked⟩
      refine .inl ⟨by simp [RouterEvent.acquires, reads, routes], raised, lightest, ?_⟩
      intro index mem
      obtain ⟨endpoint, listed⟩ := placed index mem
      rw [served, ReplicaSet.load_adjust listed]
      by_cases here : index = raised <;> simp [here]
  | @looked draw asked selects =>
      obtain ⟨raised, -, served⟩ := pick_by_load byLoad found fit draw
      rw [served]
      exact .inr ⟨by simp [RouterEvent.acquires, selects], fun _ _ => rfl⟩
  | primary unread =>
      refine .inr ⟨by simp [RouterEvent.acquires, unread], fun index mem => ?_⟩
      obtain ⟨endpoint, listed⟩ := placed index mem
      rw [ReplicaSet.load_adjust listed, if_neg nofun]
  | returned unread returns =>
      rw [unreturned] at returns
      cases returns
  | untouched unread => exact .inr ⟨by simp [RouterEvent.acquires, unread], fun _ _ => rfl⟩

/-- Leases for reads keep the counts as close together as they are, or as one. -/
theorem spread_step (covers : session.router.Covers topology)
    (byLoad : session.router.strategy = .leastConnections) (fit : session.inUse shard ≠ [])
    {event : RouterEvent} (unreturned : event.returned? = none)
    (stays : (session.step event).inUse shard = session.inUse shard) (positive : 1 ≤ bound)
    (close : session.spread shard ≤ bound) : (session.step event).spread shard ≤ bound := by
  rw [spread_le_iff] at close ⊢
  rw [stays]
  intro index mem other others
  have before := close index mem other others
  rcases load_step covers byLoad fit unreturned with
    ⟨-, raised, lightest, counts⟩ | ⟨-, counts⟩
  · rw [counts index mem, counts other others]
    by_cases here : index = raised
    · -- The count that is raised was the smallest of all.
      have least := lightest.least other others
      subst here
      rw [if_pos rfl]
      omega
    · rw [if_neg here]
      omega
  · rw [counts index mem, counts other others]
    exact before

theorem spread_run (covers : session.router.Covers topology)
    (byLoad : session.router.strategy = .leastConnections) (fit : session.inUse shard ≠ [])
    (steady : session.Steady shard events)
    (unreturned : ∀ event ∈ events, event.returned? = none) (positive : 1 ≤ bound)
    (close : session.spread shard ≤ bound) : (session.run events).spread shard ≤ bound := by
  induction events generalizing session with
  | nil => exact close
  | cons event rest ih =>
      obtain ⟨stays, later⟩ := steady_cons_iff.mp steady
      obtain ⟨first, others⟩ := List.forall_mem_cons.mp unreturned
      exact ih (covers_step covers) ((strategy_step session event).trans byLoad) (stays ▸ fit)
        later others (spread_step covers byLoad fit first stays positive close)

/-- Every lease for a read is counted once, and no count falls. -/
theorem load_run (covers : session.router.Covers topology)
    (byLoad : session.router.strategy = .leastConnections) (fit : session.inUse shard ≠ [])
    (steady : session.Steady shard events)
    (unreturned : ∀ event ∈ events, event.returned? = none) :
    ((session.inUse shard).map ((session.run events).load shard)).sum =
        ((session.inUse shard).map (session.load shard)).sum + events.countP (·.acquires shard) ∧
      ∀ index ∈ session.inUse shard,
        session.load shard index ≤ (session.run events).load shard index := by
  induction events generalizing session with
  | nil => exact ⟨rfl, fun _ _ => Nat.le_refl _⟩
  | cons event rest ih =>
      obtain ⟨stays, later⟩ := steady_cons_iff.mp steady
      obtain ⟨first, others⟩ := List.forall_mem_cons.mp unreturned
      have onwards : session.run (event :: rest) = (session.step event).run rest := rfl
      have distinct : (session.inUse shard).Nodup :=
        (session.inUse_ascending shard).imp Nat.ne_of_lt
      obtain ⟨sum, grows⟩ := ih (covers_step covers)
        ((strategy_step session event).trans byLoad) (stays ▸ fit) later others
      rw [stays] at sum grows
      rw [onwards, sum, List.countP_cons]
      rcases load_step covers byLoad fit first with
        ⟨acquires, raised, lightest, counts⟩ | ⟨idle, counts⟩
      · rw [List.map_congr_left counts, sum_raised distinct lightest.fit, if_pos acquires]
        refine ⟨by omega, fun index mem => Nat.le_trans ?_ (grows index mem)⟩
        exact counts index mem ▸ Nat.le_add_right _ _
      · rw [List.map_congr_left counts, idle]
        exact ⟨rfl, fun index mem => counts index mem ▸ grows index mem⟩

/-- Replicas that count as many leases as each other get even shares of further ones. -/
theorem shares_run (covers : session.router.Covers topology)
    (byLoad : session.router.strategy = .leastConnections) (fit : session.inUse shard ≠ [])
    (steady : session.Steady shard events)
    (unreturned : ∀ event ∈ events, event.returned? = none)
    (level : ∀ index ∈ session.inUse shard, ∀ other ∈ session.inUse shard,
      session.load shard index = session.load shard other)
    (mem : index ∈ session.inUse shard) :
    ∃ more, (session.run events).load shard index = session.load shard index + more ∧
      EvenShare (events.countP (·.acquires shard)) (session.inUse shard).length more := by
  have stays : (session.run events).inUse shard = session.inUse shard :=
    steady events (List.prefix_refl events)
  have start : session.spread shard ≤ 1 := spread_le_iff.mpr fun one mem other others =>
    level one mem other others ▸ Nat.le_add_right _ 1
  have ends := spread_run covers byLoad fit steady unreturned (Nat.le_refl 1) start
  rw [spread_le_iff, stays] at ends
  obtain ⟨sum, grows⟩ := load_run covers byLoad fit steady unreturned
  let more (index : Nat) : Nat := (session.run events).load shard index - session.load shard index
  have grown : ∀ index ∈ session.inUse shard,
      (session.run events).load shard index = session.load shard index + more index :=
    fun index mem => (Nat.add_sub_cancel' (grows index mem)).symm
  have total : ((session.inUse shard).map more).sum = events.countP (·.acquires shard) := by
    rw [List.map_congr_left grown, List.sum_map_add] at sum
    exact Nat.add_left_cancel sum
  have close : ∀ a ∈ (session.inUse shard).map more, ∀ b ∈ (session.inUse shard).map more,
      a ≤ b + 1 := by
    rintro _ one _ two
    obtain ⟨first, listed, rfl⟩ := List.mem_map.mp one
    obtain ⟨second, others, rfl⟩ := List.mem_map.mp two
    have apart := ends first listed second others
    rw [grown first listed, grown second others, level first listed second others] at apart
    omega
  have even := evenShare_of_close close (List.mem_map_of_mem mem)
  rw [total, List.length_map] at even
  exact ⟨more index, grown index mem, even⟩

/-- Reads by load keep the balance. A lease for a read is on the first of the replicas in good
health with the fewest leases, whose count it raises by one and no other; and while nothing is
given back, leases drive the counts no further apart than they were, or than one, so that from
equal counts every replica gets an even share. -/
theorem reads_by_load (covers : session.router.Covers topology)
    (byLoad : session.router.strategy = .leastConnections) (fit : session.inUse shard ≠ []) :
    (∀ draw, ∃ lease after index,
      session.router.acquire shard session.now draw = .ok (lease, after) ∧
        lease.place = (shard, .replica index) ∧ session.Lightest shard index ∧
        session.router.Adjusted (shard, .replica index) (· + 1) after) ∧
    ∀ events, session.Steady shard events → (∀ event ∈ events, event.returned? = none) →
      (session.run events).spread shard ≤ max 1 (session.spread shard) ∧
      ((∀ index ∈ session.inUse shard, ∀ other ∈ session.inUse shard,
          session.load shard index = session.load shard other) →
        ∀ index ∈ session.inUse shard, ∃ more,
          (session.run events).load shard index = session.load shard index + more ∧
            EvenShare (events.countP (·.acquires shard)) (session.inUse shard).length more) := by
  constructor
  · intro draw
    obtain ⟨set, found⟩ := exists_get?_of_inUse fit
    obtain ⟨index, lightest, served⟩ := pick_by_load byLoad found fit draw
    have routed := EndpointRouter.route_of_get? found .read session.now draw
    have leased := EndpointRouter.lease_of_route covers routed
    have place : (session.router.lease (session.pick set draw).2
        (session.pick set draw).1).1.place = (shard, .replica index) :=
      Prod.ext leased.shard_eq (congrArg Prod.fst served)
    exact ⟨_, _, index, routed, place, lightest, place ▸ leased.adjusted⟩
  · intro events steady unreturned
    constructor
    · exact spread_run covers byLoad fit steady unreturned (Nat.le_max_left _ _)
        (Nat.le_max_right _ _)
    · intro level index mem
      exact shares_run covers byLoad fit steady unreturned level mem

/-- Three leases for reads go to two replicas, between a selection and a write, after a third
replica failed. -/
theorem reads_by_load_failed :
    let topology : Topology := ⟨[⟨⟨"s"⟩, "p", ["a", "b", "c"]⟩], by decide, by decide⟩
    let session := (start topology ⟨.leastConnections, .ofSeconds 30⟩).run [.health (.failure "b")]
    let events : List RouterEvent := [.route ⟨"s"⟩ .read 0, .select ⟨"s"⟩ 0,
      .route ⟨"s"⟩ .write 0, .route ⟨"s"⟩ .read 0, .route ⟨"s"⟩ .read 0]
    session.inUse ⟨"s"⟩ = [0, 2] ∧
      (∃ lease after index, session.router.acquire ⟨"s"⟩ session.now 0 = .ok (lease, after) ∧
        lease.place = (⟨"s"⟩, .replica index) ∧ session.Lightest ⟨"s"⟩ index) ∧
      (session.run events).spread ⟨"s"⟩ ≤ 1 ∧
      ∃ more, (session.run events).load ⟨"s"⟩ 0 = session.load ⟨"s"⟩ 0 + more ∧
        EvenShare 3 2 more := by
  intro topology session events
  have inUse : session.inUse ⟨"s"⟩ = [0, 2] := by decide +kernel
  have covers : session.router.Covers topology := covers_run topology _ _
  have steady : session.Steady ⟨"s"⟩ events := steady_of_unreported covers (by decide +kernel)
  have fit : session.inUse ⟨"s"⟩ ≠ [] := by simp [inUse]
  obtain ⟨first, later⟩ := reads_by_load covers (by decide +kernel) fit
  obtain ⟨close, even⟩ := later events steady (by decide +kernel)
  obtain ⟨lease, after, index, acquired, place, lightest, -⟩ := first 0
  obtain ⟨more, counts, share⟩ := even (by decide +kernel) 0 (by simp [inUse])
  rw [inUse] at share
  exact ⟨inUse, ⟨lease, after, index, acquired, place, lightest⟩,
    close.trans (by decide +kernel), more, counts, share⟩

end RouterSession

end ShardFleet
