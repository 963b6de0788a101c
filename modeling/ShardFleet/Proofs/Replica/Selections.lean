import ShardFleet.Proofs.Replica.Leases

/-!
Reads of one shard in a session, and the replicas they are given.

What an event does to the endpoints of one shard is said once (`Touch`, `touch_step`): an endpoint
is found for it, a lease is given back, or nothing happens. The places given to reads, with a lease
or without one, are listed in their order (`RouterSession.selections`). A session is steady for a
shard as long as the replicas in good health stay the same, whatever else is done meanwhile; it is
as long as nothing is reported and no time passes (`steady_of_unreported`).
-/

namespace ShardFleet

/-! ### Even shares -/

/-- A share of a total that is split into whole shares as evenly as possible. -/
def EvenShare (total parts share : Nat) : Prop :=
  share = total / parts ∨ share = (total + parts - 1) / parts

/-- What is less than one off the quotient on both sides is an even share. -/
theorem evenShare_of_bounds {total parts share : Nat} (lower : total < (share + 1) * parts)
    (upper : share * parts < total + parts) : EvenShare total parts share := by
  have positive : 0 < parts := Nat.pos_of_lt_mul_left lower
  have floor : total / parts < share + 1 := (Nat.div_lt_iff_lt_mul positive).mpr lower
  have ceiling : share ≤ (total + parts - 1) / parts :=
    (Nat.le_div_iff_mul_le positive).mpr (by omega)
  have close : (total + parts - 1) / parts ≤ total / parts + 1 := by
    rw [← Nat.add_div_right total positive]
    exact Nat.div_le_div_right (Nat.sub_le _ 1)
  unfold EvenShare
  omega

/-! ### Replicas in good health -/

namespace ReplicaSet

variable {set other : ReplicaSet} {health : Health} {now index : Nat}

/-- The places of the replicas in good health, in configuration order. -/
def inUse (set : ReplicaSet) (health : Health) (now : Nat) : List Nat :=
  (set.healthy health now).map Prod.snd

theorem inUse_eq_nil : set.inUse health now = [] ↔ set.healthy health now = [] :=
  List.map_eq_nil_iff

theorem mem_inUse :
    index ∈ set.inUse health now ↔
      ∃ endpoint, set.replicas[index]? = some endpoint ∧
        health.isHealthy now endpoint.address = true := by
  simp [inUse, mem_healthy]

/-- Which replicas are in good health depends on their addresses alone. -/
theorem inUse_congr (same : set.layout = other.layout) :
    set.inUse health now = other.inUse health now := by
  have addresses : set.replicas.map Endpoint.address = other.replicas.map Endpoint.address :=
    congrArg Shard.replicas same
  have read (set : ReplicaSet) : set.inUse health now =
      (((set.replicas.map Endpoint.address).zipIdx).filter
        fun entry => health.isHealthy now entry.1).map Prod.snd := by
    rw [inUse, healthy, List.zipIdx_map, List.filter_map, List.map_map]
    rfl
  rw [read, read, addresses]

end ReplicaSet

/-! ### What an event asks of a shard -/

namespace RouterEvent

/-- The intent and the number drawn of an event that asks for an endpoint of the shard. -/
def asked? (shard : ShardId) : RouterEvent → Option (Intent × Nat)
  | .route id intent draw => if id = shard then some (intent, draw) else none
  | .routeWith id context draw => if id = shard then some (context.effective, draw) else none
  | .select id draw => if id = shard then some (.read, draw) else none
  | _ => none

/-- Whether an event asks for an endpoint of the shard to read from. -/
def reads (shard : ShardId) (event : RouterEvent) : Bool :=
  (event.asked? shard).any fun asked => !asked.1.requiresPrimary

/-- Whether an event leases an endpoint of the shard to read from. -/
def acquires (shard : ShardId) (event : RouterEvent) : Bool :=
  event.reads shard && event.routing?.isSome

theorem asked?_of_routing {event : RouterEvent} {id : ShardId} {intent : Intent} {draw : Nat}
    (shard : ShardId) (routing : event.routing? = some (id, intent, draw)) :
    event.asked? shard = if id = shard then some (intent, draw) else none := by
  cases event with
  | route | routeWith => cases routing; rfl
  | _ => cases routing

theorem asked?_of_returned {event : RouterEvent} {number : Nat} (shard : ShardId)
    (returns : event.returned? = some number) : event.asked? shard = none := by
  cases event with
  | release | drop => rfl
  | _ => cases returns

end RouterEvent

namespace RouterSession

variable {topology : Topology} {session : RouterSession} {shard : ShardId} {set : ReplicaSet}
  {event : RouterEvent} {events : List RouterEvent}

/-- The place that a read is given at present, and the endpoints after it. -/
def pick (session : RouterSession) (set : ReplicaSet) (draw : Nat) : Slot × ReplicaSet :=
  set.select session.router.strategy session.router.health session.now draw

/-- All that an event may do to the endpoints of one shard. -/
inductive Touch (session : RouterSession) (shard : ShardId) (set : ReplicaSet)
    (event : RouterEvent) : ReplicaSet → Prop where
  /-- A place is found for a read and leased. -/
  | acquired {draw : Nat} (asked : event.asked? shard = some (.read, draw))
      (routes : event.routing?.isSome = true) :
      Touch session shard set event
        ((session.pick set draw).2.adjust (session.pick set draw).1 (· + 1))
  /-- A place is found for a read. -/
  | looked {draw : Nat} (asked : event.asked? shard = some (.read, draw))
      (selects : event.routing? = none) :
      Touch session shard set event (session.pick set draw).2
  /-- The primary is leased. -/
  | primary (unread : event.reads shard = false) :
      Touch session shard set event (set.adjust .primary (· + 1))
  /-- A lease is given back. -/
  | returned {number : Nat} (unread : event.reads shard = false)
      (returns : event.returned? = some number) (slot : Slot) :
      Touch session shard set event (set.adjust slot (· - 1))
  | untouched (unread : event.reads shard = false) : Touch session shard set event set

theorem touch_taking (covers : session.router.Covers topology)
    (found : session.router.sets.get? shard = some set) {id : ShardId} {intent : Intent}
    {draw : Nat} (routing : event.routing? = some (id, intent, draw)) :
    ∃ after, (session.taking (session.router.route id intent session.now draw)).router.sets.get?
        shard = some after ∧ session.Touch shard set event after := by
  have asked := RouterEvent.asked?_of_routing shard routing
  by_cases here : id = shard
  · subst here
    rw [if_pos rfl] at asked
    rw [EndpointRouter.route_of_get? found]
    refine ⟨_, (covers.get?_put found (by simp) id).trans (if_pos rfl), ?_⟩
    cases intent with
    | read => exact .acquired asked (by rw [routing]; rfl)
    | write | forceWrite =>
        exact .primary (by simp [RouterEvent.reads, asked, Intent.requiresPrimary])
  · rw [if_neg here] at asked
    have untouched : session.Touch shard set event set :=
      .untouched (by simp [RouterEvent.reads, asked])
    cases there : session.router.sets.get? id with
    | none =>
        rw [EndpointRouter.route_of_absent there]
        exact ⟨set, found, untouched⟩
    | some other =>
        rw [EndpointRouter.route_of_get? there]
        exact ⟨set, (covers.get?_put_of_ne there (by simp) here).trans found, untouched⟩

theorem touch_selecting (covers : session.router.Covers topology)
    (found : session.router.sets.get? shard = some set) (id : ShardId) (draw : Nat) :
    ∃ after, (session.selecting (session.router.select id session.now draw)).router.sets.get?
        shard = some after ∧ session.Touch shard set (.select id draw) after := by
  by_cases here : id = shard
  · subst here
    rw [EndpointRouter.select_of_get? found]
    exact ⟨_, (covers.get?_put found (by simp) id).trans (if_pos rfl), .looked (if_pos rfl) rfl⟩
  · have untouched : session.Touch shard set (.select id draw) set :=
      .untouched (by simp [RouterEvent.reads, RouterEvent.asked?, here])
    cases there : session.router.sets.get? id with
    | none =>
        rw [EndpointRouter.select_of_absent there]
        exact ⟨set, found, untouched⟩
    | some other =>
        rw [EndpointRouter.select_of_get? there]
        exact ⟨set, (covers.get?_put_of_ne there (by simp) here).trans found, untouched⟩

theorem touch_giving (covers : session.router.Covers topology)
    (found : session.router.sets.get? shard = some set) {number : Nat}
    (returns : event.returned? = some number) (rest : Lease → Option Lease) :
    ∃ after, (session.giving number rest).router.sets.get? shard = some after ∧
      session.Touch shard set event after := by
  have unread : event.reads shard = false := by
    simp [RouterEvent.reads, RouterEvent.asked?_of_returned shard returns]
  have untouched : session.Touch shard set event set := .untouched unread
  cases taken : session.lease? number with
  | none =>
      simp only [giving, taken]
      exact ⟨set, found, untouched⟩
  | some lease =>
      simp only [giving, taken, EndpointRouter.release]
      split
      · next other held there =>
          have same := other.layout_adjust lease.slot (· - 1)
          by_cases here : lease.shard = shard
          · obtain rfl : set = other := Option.some.inj (found.symm.trans (here ▸ there))
            exact ⟨_, (covers.get?_put there same shard).trans (if_pos here.symm),
              .returned unread returns lease.slot⟩
          · exact ⟨set, (covers.get?_put_of_ne there same here).trans found, untouched⟩
      · exact ⟨set, found, untouched⟩

/-- Of the endpoints of a shard every event makes what it may. -/
theorem touch_step (covers : session.router.Covers topology)
    (found : session.router.sets.get? shard = some set) (event : RouterEvent) :
    ∃ after, (session.step event).router.sets.get? shard = some after ∧
      session.Touch shard set event after := by
  cases routing : event.routing? with
  | some parameters =>
      obtain ⟨id, intent, draw⟩ := parameters
      rw [step_of_routing routing]
      exact touch_taking covers found routing
  | none =>
      cases event with
      | route | routeWith => cases routing
      | select id draw => exact touch_selecting covers found id draw
      | release | drop => exact touch_giving covers found rfl _
      | health => exact ⟨set, found, .untouched rfl⟩

theorem strategy_step (session : RouterSession) (event : RouterEvent) :
    (session.step event).router.strategy = session.router.strategy := by
  cases routing : event.routing? with
  | some parameters =>
      obtain ⟨id, intent, draw⟩ := parameters
      rw [step_of_routing routing]
      cases found : session.router.sets.get? id with
      | none => rw [EndpointRouter.route_of_absent found]; rfl
      | some set => rw [EndpointRouter.route_of_get? found]; rfl
  | none =>
      cases event with
      | route | routeWith => cases routing
      | select id draw =>
          simp only [step]
          cases found : session.router.sets.get? id with
          | none => rw [EndpointRouter.select_of_absent found]; rfl
          | some set => rw [EndpointRouter.select_of_get? found]; rfl
      | release number | drop number =>
          simp only [step, giving]
          split
          · rfl
          · simp only [EndpointRouter.release]
            split <;> rfl
      | health => rfl

/-! ### The places that reads are given -/

/-- The place on the shard that a read is given: the place of the lease it takes, or the place
selected for it without a lease. -/
def selected? (session : RouterSession) (shard : ShardId) (event : RouterEvent) : Option Slot :=
  match event.asked? shard with
  | some (.read, draw) =>
      if event.routing?.isSome then
        (session.router.acquire shard session.now draw).toOption.map (·.1.slot)
      else
        (session.router.replicaSet shard).toOption.map fun set => (session.pick set draw).1
  | _ => none

/-- The places on the shard that the reads among some events are given, in their order. -/
def selections (session : RouterSession) (shard : ShardId) : List RouterEvent → List Slot
  | [] => []
  | event :: rest =>
      (session.selected? shard event).toList ++ (session.step event).selections shard rest

theorem reads_iff :
    event.reads shard = true ↔ ∃ draw, event.asked? shard = some (.read, draw) := by
  unfold RouterEvent.reads
  cases event.asked? shard with
  | none => simp
  | some asked =>
      obtain ⟨intent, draw⟩ := asked
      cases intent <;> simp [Intent.requiresPrimary]

/-- With a lease or without one, a read is given the place picked for it. -/
theorem selected?_of_read (found : session.router.sets.get? shard = some set) {draw : Nat}
    (asked : event.asked? shard = some (.read, draw)) :
    session.selected? shard event = some (session.pick set draw).1 := by
  have acquired := EndpointRouter.route_of_get? found .read session.now draw
  have known : session.router.replicaSet shard = .ok set := by
    rw [EndpointRouter.replicaSet, found]
  simp only [selected?, asked]
  split
  · exact congrArg (fun taken => taken.toOption.map (·.1.slot)) acquired
  · rw [known]
    rfl

theorem selected?_of_unread (unread : event.reads shard = false) :
    session.selected? shard event = none := by
  unfold selected?
  split
  · next asked => simp [RouterEvent.reads, asked, Intent.requiresPrimary] at unread
  · rfl

/-! ### Steady sessions -/

/-- The replicas of a shard in good health, in configuration order. -/
def inUse (session : RouterSession) (shard : ShardId) : List Nat :=
  (session.router.sets.get? shard).elim [] (·.inUse session.router.health session.now)

/-- The replicas in good health stay the same throughout some events. -/
def Steady (session : RouterSession) (shard : ShardId) (events : List RouterEvent) : Prop :=
  ∀ before, before <+: events → (session.run before).inUse shard = session.inUse shard

theorem inUse_of_get? (found : session.router.sets.get? shard = some set) :
    session.inUse shard = set.inUse session.router.health session.now := by
  rw [inUse, found, Option.elim_some]

theorem inUse_ascending (session : RouterSession) (shard : ShardId) :
    (session.inUse shard).Pairwise (· < ·) := by
  cases found : session.router.sets.get? shard with
  | none => simp [inUse, found]
  | some set =>
      rw [inUse_of_get? found]
      exact places_pairwise_lt _ _

theorem steady_cons_iff {rest : List RouterEvent} :
    session.Steady shard (event :: rest) ↔
      (session.step event).inUse shard = session.inUse shard ∧
        (session.step event).Steady shard rest := by
  constructor
  · intro steady
    have now : (session.step event).inUse shard = session.inUse shard :=
      steady [event] (List.prefix_cons_iff.mpr (.inr ⟨[], rfl, List.nil_prefix⟩))
    refine ⟨now, fun before early => Eq.trans ?_ now.symm⟩
    exact steady (event :: before) ((List.prefix_cons_inj event).mpr early)
  · rintro ⟨now, steady⟩ before early
    rcases List.prefix_cons_iff.mp early with rfl | ⟨later, rfl, sooner⟩
    · rfl
    · exact (steady later sooner).trans now

/-- Nothing but the health record decides which replicas are in good health. -/
theorem steady_of_unreported (covers : session.router.Covers topology)
    (unreported : ∀ event ∈ events, event.health? = none) : session.Steady shard events := by
  induction events generalizing session with
  | nil =>
      intro before mem
      rw [List.prefix_nil.mp mem]
      rfl
  | cons event rest ih =>
      obtain ⟨alone, later⟩ := List.forall_mem_cons.mp unreported
      obtain ⟨kept, still⟩ := kept_step topology session alone
      have covered : (session.step event).router.Covers topology := covers_step covers
      refine steady_cons_iff.mpr ⟨?_, ih covered later⟩
      have layouts := (covered shard).trans (covers shard).symm
      cases found : session.router.sets.get? shard with
      | none =>
          have absent : (session.step event).router.sets.get? shard = none := by
            simpa [found] using layouts
          simp [inUse, found, absent]
      | some set =>
          rw [found] at layouts
          obtain ⟨after, there, same⟩ := Option.map_eq_some_iff.mp layouts
          rw [inUse_of_get? found, inUse_of_get? there, kept.health, still]
          exact ReplicaSet.inUse_congr same

end RouterSession

end ShardFleet
