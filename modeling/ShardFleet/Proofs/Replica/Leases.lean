import ShardFleet.Proofs.Replica.Sessions

/-!
Lease accounting: an endpoint counts the leases that are held on it.

Three facts carry the account: routing adds one lease at one place (`lease_of_route`), giving back
a held lease takes one away at its place (`adjusted_release`), and giving back any other lease does
nothing (`release_of_not_held`). With them every event keeps the account (`Accounted.step`), and
so does every session (`accounted_run`). A lease that was taken is held until it is released or
dropped, and by no other event is it lost or won back (`holds_run_iff`).
-/

namespace ShardFleet

open EndpointRouter

/-! ### What routing and giving back do to the counts -/

/-- Nothing is leased on new endpoints. -/
theorem ReplicaSet.leases_ofShard {shard : Shard} {slot : Slot} {endpoint : Endpoint}
    (found : (ofShard shard).at? slot = some endpoint) : endpoint.leases = 0 := by
  cases slot with
  | primary => exact Option.some.inj found ▸ rfl
  | replica index =>
      have mem := List.mem_of_getElem? (l := (ofShard shard).replicas) found
      obtain ⟨address, -, rfl⟩ := List.mem_map.mp mem
      rfl

namespace EndpointRouter

variable {topology : Topology} {router after : EndpointRouter} {lease : Lease} {shard : ShardId}
  {intent : Intent} {now draw : Nat}

/-- What routing does: it hands out a held lease on an endpoint of the shard, which counts one
more; all other counts stay. -/
structure Leased (router : EndpointRouter) (shard : ShardId) (lease : Lease)
    (after : EndpointRouter) : Prop where
  held : lease.held = true
  shard_eq : lease.shard = shard
  placed : ∃ endpoint, router.at? lease.place = some endpoint
  adjusted : router.Adjusted lease.place (· + 1) after

theorem lease_of_route (covers : router.Covers topology)
    (routed : router.route shard intent now draw = .ok (lease, after)) :
    router.Leased shard lease after := by
  cases found : router.sets.get? shard with
  | none =>
      rw [route_of_absent found] at routed
      cases routed
  | some set =>
      rw [route_of_get? found] at routed
      obtain ⟨rfl, rfl⟩ := Prod.mk.inj (Except.ok.inj routed)
      have named : set.shard = shard := covers.shard_eq found
      have servedNamed : (set.serve intent router.strategy router.health now draw).2.shard =
          shard :=
        (congrArg Shard.id (ReplicaSet.layout_serve intent)).trans named
      obtain ⟨endpoint, placed⟩ :=
        set.exists_at?_serve intent router.strategy router.health now draw
      refine ⟨rfl, servedNamed, ⟨endpoint, ?_⟩, ?_⟩
      · simp [Lease.place, EndpointRouter.at?, servedNamed, found, placed]
      · simp only [Lease.place, servedNamed]
        exact adjusted_put found named (ReplicaSet.layout_serve intent)
          (ReplicaSet.at?_serve intent) _ _

theorem adjusted_release (covers : router.Covers topology) (held : lease.held = true)
    {endpoint : Endpoint} (placed : router.at? lease.place = some endpoint) :
    router.Adjusted lease.place (· - 1) (router.release lease).2 := by
  obtain ⟨set, found, -⟩ := Option.bind_eq_some_iff.mp placed
  have given : (router.release lease).2 = router.put (set.adjust lease.slot (· - 1)) := by
    have there : router.sets.get? lease.shard = some set := found
    simp only [EndpointRouter.release, held, there]
  rw [given]
  exact adjusted_put found (covers.shard_eq found) rfl (fun _ => rfl) lease.slot (· - 1)

theorem release_of_not_held (returned : lease.held = false) :
    router.release lease = (lease, router) := by
  cases lease
  simp_all [EndpointRouter.release]

@[simp] theorem release_fst (router : EndpointRouter) (lease : Lease) :
    (router.release lease).1 = { lease with held := false } := by
  unfold EndpointRouter.release
  split <;> rfl

/-- Selecting without a lease changes no count. -/
theorem at?_of_select (covers : router.Covers topology) {endpoint : Endpoint}
    (selected : router.select shard now draw = .ok (endpoint, after)) (place : Place) :
    after.at? place = router.at? place := by
  cases found : router.sets.get? shard with
  | none =>
      rw [select_of_absent found] at selected
      cases selected
  | some set =>
      rw [select_of_get? found] at selected
      obtain ⟨-, rfl⟩ := Prod.mk.inj (Except.ok.inj selected)
      have named : (set.serve .read router.strategy router.health now draw).2.shard = shard :=
        (congrArg Shard.id (ReplicaSet.layout_serve .read)).trans (covers.shard_eq found)
      rw [at?_put named]
      split
      · next here => simp [EndpointRouter.at?, here, found]
      · rfl

end EndpointRouter

/-! ### The account of a session -/

/-- The place on which a lease still counts. -/
def Lease.heldOn? (lease : Lease) : Option Place :=
  if lease.held then some lease.place else none

namespace RouterSession

variable {topology : Topology} {session : RouterSession} {number : Nat} {place : Place}

/-- For every lease ever taken the place on which it is held, if it still is. -/
def holdings (session : RouterSession) : List (Option Place) :=
  session.leases.map (·.bind Lease.heldOn?)

/-- How many leases are held on a place. -/
def heldAt (session : RouterSession) (place : Place) : Nat :=
  session.holdings.count (some place)

/-- Whether a lease is held, and on the place. -/
def Holds (session : RouterSession) (number : Nat) (place : Place) : Prop :=
  session.holdings[number]? = some (some place)

theorem lease?_eq_some {lease : Lease} :
    session.lease? number = some lease ↔ session.leases[number]? = some (some lease) := by
  simp [lease?, Option.join_eq_some_iff]

theorem holds_iff :
    session.Holds number place ↔
      ∃ lease, session.lease? number = some lease ∧ lease.held = true ∧ lease.place = place := by
  simp only [Holds, holdings, List.getElem?_map, Option.map_eq_some_iff, Option.bind_eq_some_iff,
    lease?_eq_some, Lease.heldOn?, Option.ite_none_right_eq_some, Option.some.injEq]
  constructor
  · rintro ⟨_, found, lease, rfl, held, here⟩
    exact ⟨lease, found, held, here⟩
  · rintro ⟨lease, found, held, here⟩
    exact ⟨_, found, lease, rfl, held, here⟩

/-- What is held is counted. -/
theorem Holds.heldAt_pos (holds : session.Holds number place) : 0 < session.heldAt place :=
  List.count_pos_iff.mpr (List.mem_of_getElem? holds)

theorem holdings_taking (session : RouterSession) {lease : Lease} (held : lease.held = true)
    (after : EndpointRouter) :
    (session.taking (.ok (lease, after))).holdings = session.holdings ++ [some lease.place] := by
  simp [taking, holdings, Lease.heldOn?, held]

/-- A lease that is given back is held no longer, whatever is left of it. -/
theorem holdings_giving {rest : Lease → Option Lease}
    (returned : ∀ lease : Lease, (rest { lease with held := false }).bind Lease.heldOn? = none) :
    (session.giving number rest).holdings = session.holdings.set number none := by
  cases found : session.lease? number with
  | none =>
      have gone : ∀ inRange : number < session.leases.length, session.leases[number] = none := by
        intro inRange
        simpa [lease?, List.getElem?_eq_getElem inRange] using found
      simp only [giving, found]
      refine (List.ext_getElem (List.length_set ..) fun i inSet inRange => ?_).symm
      rw [List.getElem_set]
      split
      · next here =>
          subst here
          simp [holdings, gone (by simpa [holdings] using inRange)]
      · rfl
  | some lease => simp only [giving, found, holdings, release_fst, List.map_set, returned]

theorem heldAt_giving {rest : Lease → Option Lease}
    (returned : ∀ lease : Lease, (rest { lease with held := false }).bind Lease.heldOn? = none)
    (holds : session.Holds number place) (other : Place) :
    (session.giving number rest).heldAt other =
      session.heldAt other - if other = place then 1 else 0 := by
  obtain ⟨inRange, there⟩ := List.getElem?_eq_some_iff.mp holds
  rw [heldAt, holdings_giving returned, List.count_set inRange, there]
  by_cases here : other = place
  · simp [heldAt, here]
  · simp [heldAt, here, Ne.symm here]

theorem holdings_giving_of_not_held {rest : Lease → Option Lease}
    (returned : ∀ lease : Lease, (rest { lease with held := false }).bind Lease.heldOn? = none)
    (gone : ∀ place, ¬session.Holds number place) :
    (session.giving number rest).holdings = session.holdings := by
  rw [holdings_giving returned]
  refine List.ext_getElem (List.length_set ..) fun i inSet inRange => ?_
  rw [List.getElem_set]
  split
  · next here =>
      subst here
      cases held : session.holdings[number] with
      | none => rfl
      | some place => exact absurd (List.getElem?_eq_some_iff.mpr ⟨inRange, held⟩) (gone place)
  · rfl

/-- Giving back a held lease takes one off the count of its endpoint alone. -/
theorem adjusted_giving (covers : session.router.Covers topology)
    (holds : session.Holds number place) {endpoint : Endpoint}
    (placed : session.router.at? place = some endpoint) (rest : Lease → Option Lease) :
    session.router.Adjusted place (· - 1) (session.giving number rest).router := by
  obtain ⟨lease, found, held, rfl⟩ := holds_iff.mp holds
  simp only [giving, found]
  exact adjusted_release covers held placed

/-- Giving back what is not held does nothing to the router. -/
theorem router_giving (returned : ∀ place, ¬session.Holds number place)
    (rest : Lease → Option Lease) : (session.giving number rest).router = session.router := by
  cases found : session.lease? number with
  | none => simp only [giving, found]
  | some lease =>
      have given : lease.held = false := by
        by_contra held
        exact returned lease.place (holds_iff.mpr ⟨lease, found, by simpa using held, rfl⟩)
      simp only [giving, found, release_of_not_held given]

theorem step_of_returned (session : RouterSession) {event : RouterEvent}
    (returns : event.returned? = some number) :
    ∃ rest : Lease → Option Lease,
      (∀ lease : Lease, (rest { lease with held := false }).bind Lease.heldOn? = none) ∧
      session.step event = session.giving number rest := by
  cases event with
  | release => cases returns; exact ⟨some, fun _ => rfl, rfl⟩
  | drop => cases returns; exact ⟨fun _ => none, fun _ => rfl, rfl⟩
  | _ => cases returns

/-- An event that neither routes nor gives back changes no count and no lease. -/
theorem step_of_other (covers : session.router.Covers topology) {event : RouterEvent}
    (unrouted : event.routing? = none) (unreturned : event.returned? = none) :
    (session.step event).holdings = session.holdings ∧
      ∀ place, (session.step event).router.at? place = session.router.at? place := by
  cases event with
  | route | routeWith => cases unrouted
  | release | drop => cases unreturned
  | health => exact ⟨rfl, fun _ => rfl⟩
  | select shard draw =>
      have goesOn : session.step (.select shard draw) =
          session.selecting (session.router.select shard session.now draw) := rfl
      rw [goesOn]
      cases selected : session.router.select shard session.now draw with
      | error error => exact ⟨rfl, fun _ => rfl⟩
      | ok endpoint => exact ⟨rfl, at?_of_select covers selected⟩

/-- Every held lease is on an endpoint that there is, and every endpoint counts the leases held
on it. -/
structure Accounted (topology : Topology) (session : RouterSession) : Prop where
  covers : session.router.Covers topology
  placed : ∀ number place, session.Holds number place →
    ∃ endpoint, session.router.at? place = some endpoint
  balanced : ∀ place endpoint, session.router.at? place = some endpoint →
    endpoint.leases = session.heldAt place

theorem accounted_start (topology : Topology) (options : ReplicaOptions) :
    (start topology options).Accounted topology := by
  refine ⟨covers_ofTopology topology options, fun number place holds => ?_,
    fun place endpoint found => ?_⟩
  · simp [start, Holds, holdings] at holds
  · obtain ⟨set, known, there⟩ := Option.bind_eq_some_iff.mp found
    rw [start, get?_ofTopology, Option.map_eq_some_iff] at known
    obtain ⟨shard, -, rfl⟩ := known
    simp [start, heldAt, holdings, ReplicaSet.leases_ofShard there]

theorem Accounted.taking (sound : session.Accounted topology) (shard : ShardId) (intent : Intent)
    (draw : Nat) :
    (session.taking (session.router.route shard intent session.now draw)).Accounted topology := by
  cases routed : session.router.route shard intent session.now draw with
  | error error => exact sound
  | ok taken =>
      obtain ⟨lease, after⟩ := taken
      have leased : session.router.Leased shard lease after := lease_of_route sound.covers routed
      have holdings := holdings_taking session leased.held after
      refine ⟨(Kept.of_route routed).covers sound.covers, fun number place holds => ?_,
        fun place endpoint found => ?_⟩
      · have before : ∃ endpoint, session.router.at? place = some endpoint := by
          rw [Holds, holdings] at holds
          rcases List.mem_append.mp (List.mem_of_getElem? holds) with earlier | last
          · obtain ⟨n, held⟩ := List.mem_iff_getElem?.mp earlier
            exact sound.placed n place held
          · obtain rfl : place = lease.place := by simpa using last
            exact leased.placed
        obtain ⟨endpoint, there⟩ := before
        exact ⟨_, (leased.adjusted place).trans (congrArg _ there)⟩
      · obtain ⟨old, there, rfl⟩ := Option.map_eq_some_iff.mp
          ((leased.adjusted place).symm.trans found)
        have balanced := sound.balanced place old there
        rw [heldAt, holdings, List.count_append]
        by_cases here : place = lease.place
        · simp [here, Endpoint.adjust, balanced, heldAt]
        · simp [here, Ne.symm here, balanced, heldAt]

theorem Accounted.giving (sound : session.Accounted topology) {rest : Lease → Option Lease}
    (returned : ∀ lease : Lease, (rest { lease with held := false }).bind Lease.heldOn? = none) :
    (session.giving number rest).Accounted topology := by
  have covers := (kept_giving topology session number rest).1.covers sound.covers
  by_cases holds : ∃ place, session.Holds number place
  · obtain ⟨place, holds⟩ := holds
    obtain ⟨endpoint, placed⟩ := sound.placed number place holds
    have adjusted := adjusted_giving sound.covers holds placed rest
    refine ⟨covers, fun n other held => ?_, fun other endpoint found => ?_⟩
    · have before : session.Holds n other := by
        rw [Holds, holdings_giving returned, List.getElem?_set] at held
        split at held
        · split at held <;> simp at held
        · exact held
      obtain ⟨endpoint, there⟩ := sound.placed n other before
      exact ⟨_, (adjusted other).trans (congrArg _ there)⟩
    · obtain ⟨old, there, rfl⟩ := Option.map_eq_some_iff.mp ((adjusted other).symm.trans found)
      have balanced := sound.balanced other old there
      rw [heldAt_giving returned holds other]
      by_cases here : other = place
      · simp [here, Endpoint.adjust, balanced]
      · simp [here, balanced]
  · have gone := not_exists.mp holds
    have same := router_giving gone rest
    refine ⟨covers, fun n other held => ?_, fun other endpoint found => ?_⟩
    · rw [same]
      exact sound.placed n other (by rwa [Holds, holdings_giving_of_not_held returned gone] at held)
    · rw [heldAt, holdings_giving_of_not_held returned gone]
      exact sound.balanced other endpoint (by rwa [same] at found)

theorem Accounted.step (sound : session.Accounted topology) (event : RouterEvent) :
    (session.step event).Accounted topology := by
  cases routing : event.routing? with
  | some parameters =>
      obtain ⟨shard, intent, draw⟩ := parameters
      rw [step_of_routing routing]
      exact sound.taking shard intent draw
  | none =>
      cases returns : event.returned? with
      | some number =>
          obtain ⟨rest, returned, given⟩ := step_of_returned session returns
          rw [given]
          exact sound.giving returned
      | none =>
          obtain ⟨same, kept⟩ := step_of_other sound.covers routing returns
          refine ⟨covers_step sound.covers, fun number place holds => ?_,
            fun place endpoint found => ?_⟩
          · rw [kept]
            exact sound.placed number place (by rwa [Holds, ← same])
          · rw [heldAt, same]
            exact sound.balanced place endpoint (by rwa [← kept])

/-- Every session keeps the account. -/
theorem accounted_run (topology : Topology) (options : ReplicaOptions)
    (events : List RouterEvent) : ((start topology options).run events).Accounted topology :=
  run_induction (Accounted topology) (accounted_start topology options)
    fun _ event sound => sound.step event

/-! ### Which leases are held -/

/-- A step keeps the leases that were taken, and a lease stays held unless it is given back. -/
theorem holds_step_iff (covers : session.router.Covers topology) (event : RouterEvent)
    (place : Place) (taken : number < session.holdings.length) :
    session.holdings.length ≤ (session.step event).holdings.length ∧
      ((session.step event).Holds number place ↔
        session.Holds number place ∧ event.returned? ≠ some number) := by
  cases routing : event.routing? with
  | some parameters =>
      obtain ⟨shard, intent, draw⟩ := parameters
      have stays : event.returned? ≠ some number := by
        cases event with
        | route | routeWith => simp [RouterEvent.returned?]
        | _ => cases routing
      rw [step_of_routing routing]
      cases routed : session.router.route shard intent session.now draw with
      | error error => exact ⟨Nat.le_refl _, (and_iff_left stays).symm⟩
      | ok outcome =>
          obtain ⟨lease, after⟩ := outcome
          have held := (lease_of_route covers routed).held
          rw [Holds, holdings_taking session held, List.getElem?_append_left taken]
          exact ⟨by simp, (and_iff_left stays).symm⟩
  | none =>
      cases returns : event.returned? with
      | none =>
          have same := (step_of_other covers routing returns).1
          rw [Holds, same]
          exact ⟨Nat.le_refl _, (and_iff_left (by simp)).symm⟩
      | some other =>
          obtain ⟨rest, returned, given⟩ := step_of_returned session returns
          rw [given, Holds, holdings_giving returned, List.getElem?_set]
          refine ⟨by simp, ?_⟩
          by_cases here : other = number
          · simp [here, taken]
          · simp [here, Holds]

/-- A lease that was taken is held until an event gives it back. -/
theorem holds_run_iff (covers : session.router.Covers topology) (later : List RouterEvent)
    (taken : number < session.holdings.length) :
    (session.run later).Holds number place ↔
      session.Holds number place ∧ ∀ event ∈ later, event.returned? ≠ some number := by
  induction later generalizing session with
  | nil => simp [run]
  | cons event rest ih =>
      obtain ⟨grows, held⟩ := holds_step_iff covers event place taken
      have onwards : session.run (event :: rest) = (session.step event).run rest := rfl
      rw [onwards, ih (covers_step covers) (Nat.lt_of_lt_of_le taken grows), held, and_assoc,
        List.forall_mem_cons]

/-! ### The whole account -/

/-- The account of a session, and what the next event does to it. -/
structure Account (topology : Topology) (session : RouterSession) : Prop
    extends Accounted topology session where
  /-- Giving back a held lease takes one off the count of its endpoint, which is not zero, and
  leaves all other endpoints alone. -/
  lowered : ∀ event number place, event.returned? = some number → session.Holds number place →
    (∃ endpoint, session.router.at? place = some endpoint ∧ 0 < endpoint.leases) ∧
      session.router.Adjusted place (· - 1) (session.step event).router
  /-- Giving back a lease that is not held any more does nothing. -/
  idle : ∀ event number, event.returned? = some number →
    (∀ place, ¬session.Holds number place) → (session.step event).router = session.router
  /-- Routing that succeeds takes a lease on an endpoint of the shard, which counts one more. -/
  raised : ∀ event shard intent draw lease after,
    event.routing? = some (shard, intent, draw) →
    session.router.route shard intent session.now draw = .ok (lease, after) →
      lease.shard = shard ∧ (session.step event).router = after ∧
        session.router.Adjusted lease.place (· + 1) after ∧
        (session.step event).Holds session.holdings.length lease.place
  /-- Routing that fails changes no count and no cursor, and nothing else. -/
  failed : ∀ event shard intent draw error,
    event.routing? = some (shard, intent, draw) →
    session.router.route shard intent session.now draw = .error error →
      session.step event = session
  /-- A lease that was taken is held until it is released or dropped. -/
  lasting : ∀ later number place, number < session.holdings.length →
    ((session.run later).Holds number place ↔
      session.Holds number place ∧ ∀ event ∈ later, event.returned? ≠ some number)

theorem Accounted.account (sound : session.Accounted topology) : session.Account topology := by
  refine { sound with
    lowered := ?lowered, idle := ?idle, raised := ?raised, failed := ?failed, lasting := ?lasting }
  case lowered =>
    intro event number place returns holds
    obtain ⟨rest, -, given⟩ := step_of_returned session returns
    obtain ⟨endpoint, placed⟩ := sound.placed number place holds
    have counted : 0 < endpoint.leases :=
      sound.balanced place endpoint placed ▸ holds.heldAt_pos
    rw [given]
    exact ⟨⟨endpoint, placed, counted⟩, adjusted_giving sound.covers holds placed rest⟩
  case idle =>
    intro event number returns gone
    obtain ⟨rest, -, given⟩ := step_of_returned session returns
    rw [given]
    exact router_giving gone rest
  case raised =>
    intro event shard intent draw lease after routing routed
    have leased := lease_of_route sound.covers routed
    rw [step_of_routing routing, routed]
    refine ⟨leased.shard_eq, rfl, leased.adjusted, ?_⟩
    rw [Holds, holdings_taking session leased.held]
    simp
  case failed =>
    intro event shard intent draw error routing routed
    rw [step_of_routing routing, routed]
    rfl
  case lasting =>
    intro later number place taken
    exact holds_run_iff sound.covers later taken

/-- Lease accounting: after any events, every endpoint of the topology counts the leases held on
it, and the next event keeps the account. -/
theorem leases_accounted (topology : Topology) (options : ReplicaOptions)
    (events : List RouterEvent) : ((start topology options).run events).Account topology :=
  (accounted_run topology options events).account

end RouterSession

end ShardFleet
