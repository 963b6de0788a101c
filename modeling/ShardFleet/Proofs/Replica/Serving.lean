import ShardFleet.Proofs.Replica.Leases

/-!
Which endpoint serves a shard, after any history of a session.

A read goes to a replica exactly when the reports of the session leave some replica of the shard
in use, and then to such a one, whatever the strategy makes of it (`ServedBy`,
`servedBy_route`). Everything else goes to the primary, and there is one for every shard.
-/

namespace ShardFleet

open HealthEvent

/-- The reports and waits of a session. -/
def RouterEvent.reports (events : List RouterEvent) : List HealthEvent :=
  events.filterMap RouterEvent.health?

/-- A lease serves an intent on a shard some of whose addresses are in use: it is on an endpoint
of the shard, on the primary if the intent requires that, and otherwise on a replica exactly when
one is in use, and then on such a one. -/
structure ServedBy (info : Shard) (intent : Intent) (InUse : String → Prop) (lease : Lease)
    (address : String) : Prop where
  shard_eq : lease.shard = info.id
  primary : lease.slot = .primary → address = info.endpoint
  replica : ∀ index, lease.slot = .replica index →
    info.replicas[index]? = some address ∧ InUse address
  required : intent ≠ .read → lease.slot = .primary
  read : intent = .read → (lease.slot ≠ .primary ↔ ∃ other ∈ info.replicas, InUse other)

namespace ReplicaSet

variable {set : ReplicaSet} {health : Health} {now : Nat}

/-- There are replicas in good health if an address of a replica is in good health. -/
theorem healthy_ne_nil_iff :
    set.healthy health now ≠ [] ↔
      ∃ address ∈ set.layout.replicas, health.isHealthy now address = true := by
  constructor
  · intro some
    obtain ⟨⟨endpoint, index⟩, mem⟩ := List.exists_mem_of_ne_nil _ some
    obtain ⟨there, fit⟩ := mem_healthy.mp mem
    exact ⟨endpoint.address, List.mem_map_of_mem (List.mem_of_getElem? there), fit⟩
  · rintro ⟨address, mem, fit⟩
    obtain ⟨endpoint, listed, rfl⟩ := List.mem_map.mp mem
    obtain ⟨index, there⟩ := List.mem_iff_getElem?.mp listed
    exact List.ne_nil_of_mem (mem_healthy.mpr ⟨there, fit⟩)

/-- What a set serves is served as the health record says. -/
theorem servedBy_serve (set : ReplicaSet) (intent : Intent) (strategy : SelectionStrategy)
    (health : Health) (now draw : Nat) :
    ∃ endpoint, set.at? (set.serve intent strategy health now draw).1 = some endpoint ∧
      ServedBy set.layout intent (fun address => health.isHealthy now address = true)
        ⟨set.shard, (set.serve intent strategy health now draw).1, true⟩ endpoint.address := by
  cases intent with
  | write | forceWrite =>
      refine ⟨set.primary, rfl, ?_⟩
      exact { shard_eq := rfl, primary := fun _ => rfl, replica := nofun, required := fun _ => rfl,
              read := nofun }
  | read =>
      have served : set.serve .read strategy health now draw =
          set.select strategy health now draw := rfl
      rw [served]
      by_cases none : set.healthy health now = []
      · have nobody : ¬∃ address ∈ set.layout.replicas, health.isHealthy now address = true :=
          fun some => healthy_ne_nil_iff.mpr some none
        rw [select_of_none_healthy none]
        refine ⟨set.primary, rfl, ?_⟩
        exact { shard_eq := rfl, primary := fun _ => rfl, replica := nofun,
                required := fun other => absurd rfl other,
                read := fun _ => iff_of_false (fun other => other rfl) nobody }
      · obtain ⟨⟨endpoint, index⟩, mem, chosen⟩ := select_of_healthy strategy draw none
        obtain ⟨there, fit⟩ := mem_healthy.mp mem
        rw [chosen]
        refine ⟨endpoint, there, ?_⟩
        refine { shard_eq := rfl, primary := nofun, replica := ?_,
                 required := fun other => absurd rfl other,
                 read := fun _ => iff_of_true nofun (healthy_ne_nil_iff.mp none) }
        rintro _ ⟨⟩
        exact ⟨by simp [layout, there], fit⟩

end ReplicaSet

namespace RouterSession

variable {topology : Topology} {session : RouterSession} {info : Shard} {shard : ShardId}

/-- Routing to a shard of the topology succeeds, and serves the intent as the health record
says. -/
theorem servedBy_route (covers : session.router.Covers topology)
    (known : topology.find? shard = some info) (intent : Intent) (draw : Nat) :
    ∃ lease after endpoint,
      session.router.route shard intent session.now draw = .ok (lease, after) ∧
        after.endpoint? lease = some endpoint ∧
        ServedBy info intent
          (fun address => session.router.health.isHealthy session.now address = true) lease
          endpoint.address := by
  obtain ⟨set, found, rfl⟩ := covers.get?_of_find? known
  have routed := EndpointRouter.route_of_get? found intent session.now draw
  obtain ⟨endpoint, there, served⟩ := set.servedBy_serve intent session.router.strategy
    session.router.health session.now draw
  have sameShard : (set.serve intent session.router.strategy session.router.health session.now
      draw).2.shard = set.shard :=
    congrArg Shard.id (ReplicaSet.layout_serve intent)
  refine ⟨_, _, endpoint.adjust (· + 1), routed, ?_, ?_⟩
  · have before : session.router.at? (set.shard, (set.serve intent session.router.strategy
        session.router.health session.now draw).1) = some endpoint := by
      simp [EndpointRouter.at?, covers.shard_eq found, found, there]
    refine EndpointRouter.endpoint?_of_at? ?_
    rw [(EndpointRouter.lease_of_route covers routed).adjusted]
    simp [Lease.place, sameShard, before]
  · simp only [sameShard]
    exact served

/-- Routing after any history: to a shard of the topology it succeeds, with the primary if the
intent requires that, and otherwise with a replica exactly when the reports of the history leave
one in use, and then with such a one; to any other shard it fails. The number drawn may be any. -/
theorem route_serves_history (topology : Topology) (options : ReplicaOptions)
    (history : List RouterEvent) (shard : ShardId) (intent : Intent) (draw : Nat) :
    let session := (start topology options).run history
    (∀ info, topology.find? shard = some info →
      ∃ lease after endpoint,
        session.router.route shard intent session.now draw = .ok (lease, after) ∧
          after.endpoint? lease = some endpoint ∧
          ServedBy info intent
            (LeavesInUse options.recoveryDelay (RouterEvent.reports history)) lease
            endpoint.address) ∧
      (topology.find? shard = none →
        session.router.route shard intent session.now draw =
          .error (.unknownShard shard.name)) := by
  intro session
  have covers : session.router.Covers topology := covers_run topology options history
  have watch : session.watch = HealthWatch.keep options.recoveryDelay
      (RouterEvent.reports history) := watch_run topology options history
  have health : session.router.health = _ := congrArg HealthWatch.health watch
  have now : session.now = _ := congrArg HealthWatch.now watch
  refine ⟨fun info known => ?_, fun unknown => ?_⟩
  · obtain ⟨lease, after, endpoint, routed, leased, served⟩ :=
      servedBy_route covers known intent draw
    refine ⟨lease, after, endpoint, routed, leased, ?_⟩
    rw [health, now, HealthWatch.now_keep] at served
    simpa only [HealthWatch.isHealthy_keep_iff] using served
  · exact EndpointRouter.route_of_absent (covers.get?_eq_none unknown) intent session.now draw

end RouterSession

end ShardFleet
