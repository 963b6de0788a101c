import ShardFleet.Proofs.OrderedMap
import ShardFleet.Proofs.Replica.Reports
import ShardFleet.Proofs.Topology
import ShardFleet.Replica.Routing

/-!
Sessions with a router: its users route, give leases back, report and wait, in any order.

A router never loses sight of its topology: every shard keeps its endpoints, whatever happens to
the leases on them (`covers_run`). What routing does is said once, by `route_of_get?`: it leases
the place that `ReplicaSet.serve` finds, in a set of which at most the cursor has moved. What the
health record says is what a record of the session's reports says (`watch_run`).
-/

namespace ShardFleet

/-- An endpoint of a deployment: its shard and its place there. -/
abbrev Place := ShardId × Slot

/-- The place that a lease is a claim on. -/
def Lease.place (lease : Lease) : Place := (lease.shard, lease.slot)

/-- An endpoint with another number of leases. -/
def Endpoint.adjust (endpoint : Endpoint) (f : Nat → Nat) : Endpoint :=
  { endpoint with leases := f endpoint.leases }

/-! ### One set of endpoints -/

namespace ReplicaSet

variable {set : ReplicaSet} {strategy : SelectionStrategy} {health : Health} {now draw : Nat}

/-- The shard whose endpoints these are. -/
def layout (set : ReplicaSet) : Shard :=
  ⟨set.shard, set.primary.address, set.replicas.map Endpoint.address⟩

/-- The endpoint at a place, if the set has the place. -/
def at? (set : ReplicaSet) : Slot → Option Endpoint
  | .primary => some set.primary
  | .replica index => set.replicas[index]?

/-- Finds a place that serves the intent. -/
def serve (set : ReplicaSet) (intent : Intent) (strategy : SelectionStrategy) (health : Health)
    (now draw : Nat) : Slot × ReplicaSet :=
  if intent.requiresPrimary then (.primary, set) else set.select strategy health now draw

@[simp] theorem layout_ofShard (shard : Shard) : (ofShard shard).layout = shard := by
  simp [layout, ofShard, Function.comp_def]

theorem endpoint_of_at? {slot : Slot} {endpoint : Endpoint} (found : set.at? slot = some endpoint) :
    set.endpoint slot = endpoint := by
  cases slot with
  | primary => exact Option.some.inj found
  | replica index =>
      simp [ReplicaSet.endpoint, show set.replicas[index]? = some endpoint from found]

@[simp] theorem layout_adjust (set : ReplicaSet) (slot : Slot) (f : Nat → Nat) :
    (set.adjust slot f).layout = set.layout := by
  cases slot with
  | primary => rfl
  | replica index =>
      have kept : (set.replicas.modify index (Endpoint.adjust · f)).map Endpoint.address =
          set.replicas.map Endpoint.address := by
        refine List.ext_getElem? fun i => ?_
        rw [List.getElem?_map, List.getElem?_map, List.getElem?_modify]
        cases set.replicas[i]? with
        | none => rfl
        | some endpoint => by_cases here : index = i <;> simp [here, Endpoint.adjust]
      exact congrArg (Shard.mk set.shard set.primary.address) kept

/-- A change at one place leaves all others as they are. -/
theorem at?_adjust (set : ReplicaSet) (slot other : Slot) (f : Nat → Nat) :
    (set.adjust slot f).at? other =
      (set.at? other).map fun endpoint => if other = slot then endpoint.adjust f else endpoint := by
  cases slot with
  | primary => cases other <;> simp [adjust, at?, Endpoint.adjust]
  | replica index =>
      cases other with
      | primary => simp [adjust, at?]
      | replica i =>
          have changed : (set.adjust (.replica index) f).at? (.replica i) =
              (set.replicas.modify index (Endpoint.adjust · f))[i]? := rfl
          rw [changed, List.getElem?_modify]
          by_cases here : index = i
          · simp [at?, here]
          · simp [at?, here, Ne.symm here]

theorem mem_healthy {endpoint : Endpoint} {index : Nat} :
    (endpoint, index) ∈ set.healthy health now ↔
      set.replicas[index]? = some endpoint ∧ health.isHealthy now endpoint.address = true := by
  simp [healthy, List.mem_zipIdx_iff_getElem?]

theorem leastLoaded_eq_none {entries : List (Endpoint × Nat)} :
    leastLoaded entries = none ↔ entries = [] := by
  cases entries with
  | nil => simp [leastLoaded]
  | cons entry rest =>
      simp only [leastLoaded]
      split
      · simp
      · split <;> simp

theorem mem_of_leastLoaded {entries : List (Endpoint × Nat)} {entry : Endpoint × Nat}
    (found : leastLoaded entries = some entry) : entry ∈ entries := by
  induction entries with
  | nil => simp [leastLoaded] at found
  | cons head rest ih =>
      simp only [leastLoaded] at found
      split at found
      · simp_all
      · next other least =>
          split at found
          · obtain rfl := Option.some.inj found
            exact List.mem_cons_of_mem _ (ih least)
          · obtain rfl := Option.some.inj found
            exact List.mem_cons_self

theorem select_of_none_healthy (none : set.healthy health now = []) :
    set.select strategy health now draw = (.primary, set) := by
  simp [select, none]

/-- While a replica is in good health, the place selected is that of a replica in good health. -/
theorem select_of_healthy (strategy : SelectionStrategy) (draw : Nat)
    (some : set.healthy health now ≠ []) :
    ∃ entry ∈ set.healthy health now,
      (set.select strategy health now draw).1 = .replica entry.2 := by
  have positive : 0 < (set.healthy health now).length := List.length_pos_iff.mpr some
  have occupied : (set.healthy health now).isEmpty = false := by simpa using some
  have turn (n : Nat) : n % (set.healthy health now).length < (set.healthy health now).length :=
    Nat.mod_lt n positive
  cases strategy with
  | roundRobin =>
      refine ⟨_, List.getElem_mem (turn set.cursor.toNat), ?_⟩
      simp [select, occupied, List.getElem?_eq_getElem (turn _)]
  | random =>
      refine ⟨_, List.getElem_mem (turn draw), ?_⟩
      simp [select, occupied, List.getElem?_eq_getElem (turn _)]
  | leastConnections =>
      cases least : leastLoaded (set.healthy health now) with
      | none => exact absurd (leastLoaded_eq_none.mp least) some
      | some entry => exact ⟨entry, mem_of_leastLoaded least, by simp [select, occupied, least]⟩

/-- At most the cursor moves. -/
theorem serve_set (set : ReplicaSet) (intent : Intent) (strategy : SelectionStrategy)
    (health : Health) (now draw : Nat) :
    ∃ cursor, (set.serve intent strategy health now draw).2 = { set with cursor } := by
  unfold serve
  split
  · exact ⟨set.cursor, rfl⟩
  · by_cases none : set.healthy health now = []
    · exact ⟨set.cursor, by rw [select_of_none_healthy none]⟩
    · have occupied : (set.healthy health now).isEmpty = false := by simpa using none
      cases strategy with
      | roundRobin => exact ⟨set.cursor + 1, by simp [select, occupied]⟩
      | random | leastConnections => exact ⟨set.cursor, by simp [select, occupied]⟩

@[simp] theorem layout_serve (intent : Intent) :
    (set.serve intent strategy health now draw).2.layout = set.layout := by
  obtain ⟨cursor, moved⟩ := set.serve_set intent strategy health now draw
  rw [moved]
  rfl

@[simp] theorem at?_serve (intent : Intent) (slot : Slot) :
    (set.serve intent strategy health now draw).2.at? slot = set.at? slot := by
  obtain ⟨cursor, moved⟩ := set.serve_set intent strategy health now draw
  rw [moved]
  cases slot <;> rfl

/-- The place found is one of the set. -/
theorem exists_at?_serve (set : ReplicaSet) (intent : Intent) (strategy : SelectionStrategy)
    (health : Health) (now draw : Nat) :
    ∃ endpoint, set.at? (set.serve intent strategy health now draw).1 = some endpoint := by
  unfold serve
  split
  · exact ⟨set.primary, rfl⟩
  · by_cases none : set.healthy health now = []
    · exact ⟨set.primary, by rw [select_of_none_healthy none]; rfl⟩
    · obtain ⟨entry, mem, chosen⟩ := select_of_healthy strategy draw none
      exact ⟨entry.1, by rw [chosen]; exact (mem_healthy.mp mem).1⟩

end ReplicaSet

/-! ### Routers over a topology -/

namespace EndpointRouter

variable {topology : Topology} {router : EndpointRouter} {shard : ShardId} {set : ReplicaSet}

/-- The router has the endpoints of the topology and no others. -/
def Covers (router : EndpointRouter) (topology : Topology) : Prop :=
  ∀ id, (router.sets.get? id).map ReplicaSet.layout = topology.find? id

/-- The endpoint at a place of the deployment. -/
def at? (router : EndpointRouter) (place : Place) : Option Endpoint :=
  (router.sets.get? place.1).bind (·.at? place.2)

theorem get?_ofTopology (topology : Topology) (options : ReplicaOptions) (id : ShardId) :
    (ofTopology topology options).sets.get? id = (topology.find? id).map ReplicaSet.ofShard := by
  have distinct : ((topology.shards.map fun shard => (shard.id, ReplicaSet.ofShard shard)).map
      Prod.fst).Nodup := by
    simpa [Function.comp_def] using topology.distinct
  ext set
  simp only [ofTopology, Option.map_eq_some_iff, OrderedMap.get?_ofList_eq_some_iff distinct,
    List.mem_map, Prod.mk.injEq, Topology.find?_eq_some_iff]
  constructor
  · rintro ⟨shard, mem, named, rfl⟩
    exact ⟨shard, ⟨mem, named⟩, rfl⟩
  · rintro ⟨shard, ⟨mem, named⟩, rfl⟩
    exact ⟨shard, mem, named, rfl⟩

theorem covers_ofTopology (topology : Topology) (options : ReplicaOptions) :
    (ofTopology topology options).Covers topology := by
  intro id
  rw [get?_ofTopology]
  cases topology.find? id with
  | none => rfl
  | some shard => simp

/-- A shard that the topology knows has its endpoints. -/
theorem Covers.get?_of_find? (covers : router.Covers topology) {info : Shard}
    (known : topology.find? shard = some info) :
    ∃ set, router.sets.get? shard = some set ∧ set.layout = info :=
  Option.map_eq_some_iff.mp ((covers shard).trans known)

theorem Covers.get?_eq_none (covers : router.Covers topology)
    (unknown : topology.find? shard = none) : router.sets.get? shard = none :=
  Option.map_eq_none_iff.mp ((covers shard).trans unknown)

theorem Covers.find?_of_get? (covers : router.Covers topology)
    (found : router.sets.get? shard = some set) : topology.find? shard = some set.layout := by
  rw [← covers shard, found, Option.map_some]

/-- The endpoints of a shard are kept under its name. -/
theorem Covers.shard_eq (covers : router.Covers topology)
    (found : router.sets.get? shard = some set) : set.shard = shard :=
  (Topology.find?_eq_some_iff.mp (covers.find?_of_get? found)).2

/-- Only the endpoints that are put in are replaced. -/
theorem Covers.get?_put (covers : router.Covers topology)
    (found : router.sets.get? shard = some set) {changed : ReplicaSet}
    (same : changed.layout = set.layout) (id : ShardId) :
    (router.put changed).sets.get? id =
      if id = shard then some changed else router.sets.get? id := by
  have named : changed.shard = shard := (congrArg Shard.id same).trans (covers.shard_eq found)
  simp only [EndpointRouter.put, OrderedMap.get?_insert, named]

theorem Covers.get?_put_of_ne (covers : router.Covers topology)
    (found : router.sets.get? shard = some set) {changed : ReplicaSet}
    (same : changed.layout = set.layout) {id : ShardId} (apart : shard ≠ id) :
    (router.put changed).sets.get? id = router.sets.get? id :=
  (covers.get?_put found same id).trans (if_neg (Ne.symm apart))

/-- Endpoints may be replaced by endpoints of the same shard. -/
theorem Covers.put (covers : router.Covers topology) (found : router.sets.get? shard = some set)
    {changed : ReplicaSet} (same : changed.layout = set.layout) :
    (router.put changed).Covers topology := by
  intro id
  rw [covers.get?_put found same]
  split
  · next here => rw [here, Option.map_some, same, covers.find?_of_get? found]
  · exact covers id

theorem at?_put (named : set.shard = shard) (place : Place) :
    (router.put set).at? place =
      if place.1 = shard then set.at? place.2 else router.at? place := by
  simp only [at?, put, OrderedMap.get?_insert, named]
  split <;> rfl

theorem endpoint?_of_at? {lease : Lease} {endpoint : Endpoint}
    (found : router.at? lease.place = some endpoint) :
    router.endpoint? lease = some endpoint := by
  obtain ⟨set, known, there⟩ := Option.bind_eq_some_iff.mp found
  rw [endpoint?, show router.sets.get? lease.shard = some set from known]
  exact congrArg some (ReplicaSet.endpoint_of_at? there)

/-- Endpoints of which only the leases at one place are changed. -/
def Adjusted (router : EndpointRouter) (place : Place) (f : Nat → Nat) (after : EndpointRouter) :
    Prop :=
  ∀ other, after.at? other =
    (router.at? other).map fun endpoint => if other = place then endpoint.adjust f else endpoint

theorem adjusted_put (found : router.sets.get? shard = some set) (named : set.shard = shard)
    {served : ReplicaSet} (same : served.layout = set.layout)
    (kept : ∀ slot, served.at? slot = set.at? slot) (slot : Slot) (f : Nat → Nat) :
    router.Adjusted (shard, slot) f (router.put (served.adjust slot f)) := by
  have servedNamed : (served.adjust slot f).shard = shard :=
    (congrArg Shard.id ((served.layout_adjust slot f).trans same)).trans named
  rintro ⟨id, other⟩
  rw [at?_put servedNamed]
  by_cases here : id = shard
  · subst here
    simp [at?, found, ReplicaSet.at?_adjust, kept]
  · have apart : ¬(id, other) = (shard, slot) := fun same => here (congrArg Prod.fst same)
    simp [here]

/-- Routing to a shard leases the place that serves the intent. -/
theorem route_of_get? (found : router.sets.get? shard = some set) (intent : Intent)
    (now draw : Nat) :
    router.route shard intent now draw =
      .ok (router.lease (set.serve intent router.strategy router.health now draw).2
        (set.serve intent router.strategy router.health now draw).1) := by
  have known : router.replicaSet shard = .ok set := by rw [replicaSet, found]
  unfold route ReplicaSet.serve leasePrimary acquire
  split <;> rw [known] <;> rfl

theorem route_of_absent (absent : router.sets.get? shard = none) (intent : Intent)
    (now draw : Nat) :
    router.route shard intent now draw = .error (.unknownShard shard.name) := by
  have unknown : router.replicaSet shard = .error (.unknownShard shard.name) := by
    rw [replicaSet, absent]
  unfold route leasePrimary acquire
  split <;> rw [unknown] <;> rfl

/-- A selection without a lease moves at most the cursor. -/
theorem select_of_get? (found : router.sets.get? shard = some set) (now draw : Nat) :
    router.select shard now draw =
      .ok ((set.serve .read router.strategy router.health now draw).2.endpoint
          (set.serve .read router.strategy router.health now draw).1,
        router.put (set.serve .read router.strategy router.health now draw).2) := by
  rw [select, replicaSet, found]
  rfl

theorem select_of_absent (absent : router.sets.get? shard = none) (now draw : Nat) :
    router.select shard now draw = .error (.unknownShard shard.name) := by
  rw [select, replicaSet, absent]
  rfl

/-- What an operation on a router leaves as it is. -/
structure Kept (topology : Topology) (router after : EndpointRouter) : Prop where
  health : after.health = router.health
  covers : router.Covers topology → after.Covers topology

theorem Kept.refl (router : EndpointRouter) : router.Kept topology router := ⟨rfl, id⟩

theorem Kept.put (found : router.sets.get? shard = some set) {changed : ReplicaSet}
    (same : changed.layout = set.layout) : router.Kept topology (router.put changed) :=
  ⟨rfl, fun covers => covers.put found same⟩

theorem Kept.of_route {intent : Intent} {now draw : Nat} {lease : Lease} {after : EndpointRouter}
    (routed : router.route shard intent now draw = .ok (lease, after)) :
    router.Kept topology after := by
  cases found : router.sets.get? shard with
  | none =>
      rw [route_of_absent found] at routed
      cases routed
  | some set =>
      rw [route_of_get? found] at routed
      obtain ⟨-, rfl⟩ := Prod.mk.inj (Except.ok.inj routed)
      exact .put found (by simp)

theorem Kept.of_select {now draw : Nat} {endpoint : Endpoint} {after : EndpointRouter}
    (selected : router.select shard now draw = .ok (endpoint, after)) :
    router.Kept topology after := by
  cases found : router.sets.get? shard with
  | none =>
      rw [select_of_absent found] at selected
      cases selected
  | some set =>
      rw [select_of_get? found] at selected
      obtain ⟨-, rfl⟩ := Prod.mk.inj (Except.ok.inj selected)
      exact .put found (by simp)

theorem Kept.release (router : EndpointRouter) (lease : Lease) :
    router.Kept topology (router.release lease).2 := by
  cases held : lease.held with
  | false =>
      simp only [EndpointRouter.release, held]
      exact .refl router
  | true =>
      cases found : router.sets.get? lease.shard with
      | none =>
          simp only [EndpointRouter.release, held, found]
          exact .refl router
      | some set =>
          simp only [EndpointRouter.release, held, found]
          exact .put found (by simp)

end EndpointRouter

/-! ### Sessions -/

/-- What users of a router do. A lease is called by its number: the first one taken is `0`. -/
inductive RouterEvent where
  | route (shard : ShardId) (intent : Intent) (draw : Nat)
  /-- Routing by the intent in effect in a context. -/
  | routeWith (shard : ShardId) (context : IntentStack) (draw : Nat)
  /-- Selecting without a lease. -/
  | select (shard : ShardId) (draw : Nat)
  | release (number : Nat)
  /-- The end of the routed endpoint, which gives its lease back. -/
  | drop (number : Nat)
  | health (event : HealthEvent)
  deriving Repr, Inhabited

namespace RouterEvent

/-- The shard, the intent and the number drawn of an event that routes. -/
def routing? : RouterEvent → Option (ShardId × Intent × Nat)
  | .route shard intent draw => some (shard, intent, draw)
  | .routeWith shard context draw => some (shard, context.effective, draw)
  | _ => none

/-- The lease that an event gives back. -/
def returned? : RouterEvent → Option Nat
  | .release number | .drop number => some number
  | _ => none

/-- What an event tells the health record. -/
def health? : RouterEvent → Option HealthEvent
  | .health event => some event
  | _ => none

end RouterEvent

/-- A router, the leases taken from it and the present instant. -/
structure RouterSession where
  router : EndpointRouter
  /-- The leases in the order they were taken; of a dropped one nothing is left. -/
  leases : List (Option Lease) := []
  now : Nat := 0

namespace RouterSession

/-- A session with a new router over a topology. -/
def start (topology : Topology) (options : ReplicaOptions) : RouterSession :=
  { router := .ofTopology topology options }

/-- A lease that was taken and not dropped. -/
def lease? (session : RouterSession) (number : Nat) : Option Lease :=
  (session.leases[number]?).join

/-- Keeps the lease that routing took, if it did. -/
def taking (session : RouterSession) : Except Error (Lease × EndpointRouter) → RouterSession
  | .ok (lease, router) => { session with router, leases := session.leases ++ [some lease] }
  | .error _ => session

/-- Goes on after a selection. -/
def selecting (session : RouterSession) : Except Error (Endpoint × EndpointRouter) → RouterSession
  | .ok (_, router) => { session with router }
  | .error _ => session

/-- Gives a lease back, and keeps what `rest` says of it. -/
def giving (session : RouterSession) (number : Nat) (rest : Lease → Option Lease) :
    RouterSession :=
  match session.lease? number with
  | none => session
  | some lease =>
      { session with
        router := (session.router.release lease).2
        leases := session.leases.set number (rest (session.router.release lease).1) }

/-- The health record and the present instant. -/
def watch (session : RouterSession) : HealthWatch := ⟨session.router.health, session.now⟩

/-- The session after an event. -/
def step (session : RouterSession) : RouterEvent → RouterSession
  | .route shard intent draw =>
      session.taking (session.router.route shard intent session.now draw)
  | .routeWith shard context draw =>
      session.taking (session.router.route shard context.effective session.now draw)
  | .select shard draw => session.selecting (session.router.select shard session.now draw)
  | .release number => session.giving number some
  | .drop number => session.giving number fun _ => none
  | .health event =>
      { session with
        router := { session.router with health := (session.watch.step event).health }
        now := (session.watch.step event).now }

/-- The session after some events. -/
def run (session : RouterSession) (events : List RouterEvent) : RouterSession :=
  events.foldl step session

variable {topology : Topology} {session : RouterSession} {events : List RouterEvent}

theorem run_concat (session : RouterSession) (events : List RouterEvent) (event : RouterEvent) :
    session.run (events ++ [event]) = (session.run events).step event := by
  simp [run]

/-- What holds at the start and is kept by every step holds after every run. -/
theorem run_induction (Holds : RouterSession → Prop) (start : Holds session)
    (kept : ∀ session event, Holds session → Holds (session.step event)) :
    Holds (session.run events) := by
  induction events using List.reverseRecOn with
  | nil => exact start
  | append_singleton events event ih => rw [run_concat]; exact kept _ event ih

theorem step_of_routing {event : RouterEvent} {shard : ShardId} {intent : Intent} {draw : Nat}
    (routing : event.routing? = some (shard, intent, draw)) :
    session.step event = session.taking (session.router.route shard intent session.now draw) := by
  cases event with
  | route | routeWith => cases routing; rfl
  | _ => cases routing

theorem kept_taking {shard : ShardId} {intent : Intent} {now draw : Nat} :
    session.router.Kept topology
        (session.taking (session.router.route shard intent now draw)).router ∧
      (session.taking (session.router.route shard intent now draw)).now = session.now := by
  cases routed : session.router.route shard intent now draw with
  | error error => exact ⟨.refl _, rfl⟩
  | ok taken => exact ⟨.of_route routed, rfl⟩

theorem kept_selecting {shard : ShardId} {now draw : Nat} :
    session.router.Kept topology
        (session.selecting (session.router.select shard now draw)).router ∧
      (session.selecting (session.router.select shard now draw)).now = session.now := by
  cases selected : session.router.select shard now draw with
  | error error => exact ⟨.refl _, rfl⟩
  | ok endpoint => exact ⟨.of_select selected, rfl⟩

theorem kept_giving (topology : Topology) (session : RouterSession) (number : Nat)
    (rest : Lease → Option Lease) :
    session.router.Kept topology (session.giving number rest).router ∧
      (session.giving number rest).now = session.now := by
  unfold giving
  split
  · exact ⟨.refl _, rfl⟩
  · exact ⟨.release _ _, rfl⟩

/-- An event that is not for the health record leaves it and the endpoints alone. -/
theorem kept_step (topology : Topology) (session : RouterSession) {event : RouterEvent}
    (other : event.health? = none) :
    session.router.Kept topology (session.step event).router ∧
      (session.step event).now = session.now := by
  cases event with
  | route | routeWith => exact kept_taking
  | select => exact kept_selecting
  | release | drop => exact kept_giving topology session _ _
  | health event => cases other

theorem covers_step {event : RouterEvent} (covers : session.router.Covers topology) :
    (session.step event).router.Covers topology := by
  cases kind : event.health? with
  | none => exact (kept_step topology session kind).1.covers covers
  | some told =>
      cases event with
      | health => exact covers
      | _ => cases kind

/-- The health record hears of the reports and of the time that passes, and of nothing else. -/
theorem watch_step {event : RouterEvent} :
    (session.step event).watch = event.health?.elim session.watch session.watch.step := by
  cases kind : event.health? with
  | none =>
      obtain ⟨kept, still⟩ := kept_step .empty session kind
      simp only [watch, kept.health, still, Option.elim_none]
  | some told =>
      cases event with
      | health event => cases kind; rfl
      | _ => cases kind

theorem covers_run (topology : Topology) (options : ReplicaOptions) (events : List RouterEvent) :
    ((start topology options).run events).router.Covers topology :=
  run_induction (fun session => session.router.Covers topology)
    (EndpointRouter.covers_ofTopology topology options) fun _ _ => covers_step

theorem watch_run (topology : Topology) (options : ReplicaOptions) (events : List RouterEvent) :
    ((start topology options).run events).watch =
      HealthWatch.keep options.recoveryDelay (events.filterMap RouterEvent.health?) := by
  induction events using List.reverseRecOn with
  | nil => rfl
  | append_singleton events event ih =>
      rw [run_concat, watch_step, ih, List.filterMap_append]
      cases kind : event.health? with
      | none => simp [kind]
      | some told => simp [kind, HealthWatch.keep_concat]

end RouterSession

end ShardFleet
