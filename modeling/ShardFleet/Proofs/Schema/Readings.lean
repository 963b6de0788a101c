import ShardFleet.Proofs.OpenConnections
import ShardFleet.Proofs.Connections
import ShardFleet.Proofs.Schema.Regrouping
import ShardFleet.Proofs.SideBySide

/-!
Schemas that are read while nobody changes them.

What reading the schema of a shard meets there is how the shard is scripted, whether it can be
reached and which tables are known of it (`Deployment.outlook`). Reading leaves all of this as it
is, although statements are noted and connections are counted. So the readings of a shard come to
the same schema every time, or fail every time, whoever else reads meanwhile
(`Introspector.Steady`, `Introspector.Provided.steady`).
-/

namespace ShardFleet

/-! ### What readings meet -/

/-- A new shard that is scripted like this one. -/
def SimulatedShard.scripted (shard : SimulatedShard) : SimulatedShard :=
  { responses := shard.responses, failures := shard.failures, latency := shard.latency }

/-- What reading the schema of a shard meets. -/
structure Outlook where
  refusal : Option Error
  /-- How the shard answers statements. -/
  script : SimulatedShard
  tables : Option (List TableSchema)

/-- What reading the schema of a shard would meet now. -/
def Deployment.outlook (world : Deployment) (id : ShardId) : Outlook :=
  ⟨world.network.refusal? id, (world.shard id).scripted, world.schemas.get? id⟩

/-- The rows with which a query is answered within so many ticks. -/
def Outlook.answer? (met : Outlook) (limit : Nat) (statement : Statement) : Option (List Row) :=
  if met.refusal.isNone ∧ met.script.latency.sleepTicks ≤ limit ∧
      (met.script.verdict statement).toOption.isSome then
    some (met.script.response statement)
  else none

namespace Outlook

variable {met : Outlook} {limit : Nat} {statement : Statement} {error : Error}

theorem answer?_of_refused (refused : met.refusal = some error) :
    met.answer? limit statement = none :=
  if_neg fun answers => by simp [refused] at answers

theorem answer?_of_slow (slow : limit < met.script.latency.sleepTicks) :
    met.answer? limit statement = none :=
  if_neg fun answers => Nat.not_le_of_lt slow answers.2.1

theorem answer?_of_failed (fails : met.script.verdict statement = .error error) :
    met.answer? limit statement = none :=
  if_neg fun answers => by simp [fails, Except.toOption] at answers

theorem answer?_of_answered (granted : met.refusal = none)
    (enough : met.script.latency.sleepTicks ≤ limit)
    (answers : met.script.verdict statement = .ok ()) :
    met.answer? limit statement = some (met.script.response statement) :=
  if_pos ⟨by rw [granted]; rfl, enough, by rw [answers]; rfl⟩

end Outlook

variable {world : Deployment} {id owner : ShardId} {statement : Statement} {late : Prop}
  {left : Nat} {α : Type}

/-- Changes that leave the script of a shard as it is are not met. -/
theorem Deployment.outlook_onShard {f : SimulatedShard → SimulatedShard}
    (keeps : ∀ shard, (f shard).scripted = shard.scripted) (world : Deployment) (id : ShardId) :
    (world.onShard id f).outlook = world.outlook := by
  funext other
  have script : ((world.onShard id f).shard other).scripted = (world.shard other).scripted := by
    rw [shard, shard, shard?_onShard]
    cases world.network.shard? other with
    | none => rfl
    | some held =>
        change (if other = id then f held else held).scripted = held.scripted
        split
        · exact keeps held
        · rfl
  rw [outlook, script]
  exact congrArg (Outlook.mk · _ _) (world.network.refusal?_update id other f)

/-- Work over connections is not met. -/
theorem Deployment.outlook_receive (world : Deployment) (id : ShardId) (statement : Statement) :
    (world.onShard id (·.receive statement)).outlook = world.outlook :=
  world.outlook_onShard (f := (·.receive statement)) (fun _ => rfl) id

theorem Deployment.outlook_connect (world : Deployment) (id : ShardId) :
    (world.onShard id .connect).outlook = world.outlook :=
  world.outlook_onShard (f := .connect) (fun _ => rfl) id

theorem Deployment.outlook_release (world : Deployment) (id : ShardId) :
    (Connection.release id world).outlook = world.outlook :=
  world.outlook_onShard (f := .disconnect) (fun _ => rfl) id

/-! ### Reading over connections -/

/-- A query is answered after the latency of the shard, if this is not too long. -/
theorem Outlook.spends_query {ends : Except Error (List Row) → Nat → Deployment → Prop}
    (slow : left < (world.outlook id).script.latency.sleepTicks → late)
    (failed : ∀ message,
      (world.outlook id).script.verdict statement = .error (.statement message) →
      ∀ left later, ends (.error (.statement message)) left later)
    (answered : (world.outlook id).script.latency.sleepTicks ≤ left →
      (world.outlook id).script.verdict statement = .ok () →
      ∀ left later, ends (.ok ((world.outlook id).script.response statement)) left later) :
    Activity.Spends (shown Deployment.outlook) owner late ends (Connection.query id statement) left
      world := by
  have untouched (later : Deployment) : TouchesOnly (shown Deployment.outlook) owner later
      (later.onShard id (·.receive statement)) :=
    touchesOnly_shown_iff.mpr (later.outlook_receive id statement)
  refine Job.spends_bind.mpr (Connection.spends_send untouched slow fun enough later same => ?_)
  -- The shard notes the statement, which changes nothing about the answer to it.
  have script : ((later.onShard id (·.receive statement)).shard id).scripted =
      (world.outlook id).script :=
    congrArg (fun met : ShardId → Outlook => (met id).script)
      ((later.outlook_receive id statement).trans same)
  have verdict : ((later.onShard id (·.receive statement)).shard id).verdict statement =
      (world.outlook id).script.verdict statement :=
    congrArg (·.verdict statement) script
  have response : ((later.onShard id (·.receive statement)).shard id).response statement =
      (world.outlook id).script.response statement :=
    congrArg (·.response statement) script
  rw [verdict]
  cases answer : (world.outlook id).script.verdict statement with
  | error error =>
      obtain ⟨message, rfl⟩ := SimulatedShard.verdict_error answer
      exact failed message answer _ _
  | ok value =>
      refine Job.spends_look.mpr ?_
      rw [response]
      exact answered enough answer _ _

/-- Over a connection of its own. -/
theorem Outlook.spends_use {ends : Except Error α → Nat → Deployment → Prop} {work : Work α}
    (refused : ∀ error, (world.outlook id).refusal = some error → ends (.error error) left world)
    (granted : (world.outlook id).refusal = none → ∀ opened : Deployment,
      opened.outlook = world.outlook →
      Activity.Spends (shown Deployment.outlook) owner late
        (fun result left later => ends result left (Connection.release id later)) work left
        opened) :
    Activity.Spends (shown Deployment.outlook) owner late ends (Connection.use id work) left
      world := by
  refine Connection.spends_use (touchesOnly_shown_iff.mpr (world.outlook_connect id))
    (fun later => touchesOnly_shown_iff.mpr (later.outlook_release id)) refused fun refusal => ?_
  exact granted refusal _ (world.outlook_connect id)

/-- Catalog rows that make no schema are a failure of their own. -/
theorem Catalog.fulfils_parse (catalog : Catalog) (shard : ShardId) (rows : List Row) :
    Fulfils (catalog.parse shard rows).toOption (catalog.parse shard rows) := by
  obtain ⟨-, missing, off⟩ | ⟨-, tables, read, -⟩ := parse_cases catalog shard rows
  · rw [off]
    exact .error nofun
  · rw [read]
    exact .ok _

/-! ### Steady readings -/

/-- So long as what readings meet stays the same, a schema is read of every shard or the reading
fails, as is given, and it is late only where none is given. -/
structure Introspector.Steady {σ ν : Type} (introspect : Introspector σ) (view : σ → ν) (met : ν)
    (limit : Nat) (reading : ShardId → Option ShardSchema) : Prop where
  reads : ∀ id owner world, view world = met →
    Activity.Spends (shown view) owner (reading id = none)
      (fun result _ _ => Fulfils (reading id) result) (introspect id) limit world
  named : ∀ id schema, reading id = some schema → schema.shard = id

theorem Introspector.steady_inMemory (met : ShardId → Outlook) (limit : Nat) :
    Introspector.inMemory.Steady Deployment.outlook met limit
      fun id => (met id).tables.map (ShardSchema.new id) where
  reads := by
    rintro id owner world rfl
    refine Job.spends_look.mpr ?_
    unfold Deployment.schemaOf Deployment.outlook
    cases world.schemas.get? id with
    | none => exact .error nofun
    | some tables => exact .ok _
  named := by
    intro id schema reads
    obtain ⟨tables, -, rfl⟩ := Option.map_eq_some_iff.mp reads
    rfl

theorem Introspector.steady_onShards (catalog : Catalog) (met : ShardId → Outlook) (limit : Nat) :
    (Introspector.onShards catalog).Steady Deployment.outlook met limit
      fun id => ((met id).answer? limit catalog.statement).bind
        fun rows => (catalog.parse id rows).toOption where
  reads := by
    rintro id owner world rfl
    refine Outlook.spends_use (fun error refused => ?_) fun granted opened same => ?_
    · rw [Outlook.answer?_of_refused refused]
      exact .error (Connection.refusal_ne_cancelled refused)
    · rw [← same] at granted ⊢
      refine Job.spends_bind.mpr (Outlook.spends_query ?_ ?_ ?_)
      · intro slow
        rw [Outlook.answer?_of_slow slow, Option.bind_none]
      · intro message fails left later
        rw [Outlook.answer?_of_failed fails]
        exact .error (by simp)
      · intro enough answers left later
        rw [Outlook.answer?_of_answered granted enough answers, Option.bind_some]
        exact catalog.fulfils_parse id _
  named := by
    intro id schema reads
    obtain ⟨rows, -, parsed⟩ := Option.bind_eq_some_iff.mp reads
    have read := (catalog.fulfils_parse id rows).eq_ok_iff.mpr parsed
    exact (Catalog.parse_eq_ok_iff.mp read).2.1

/-- Whether they are kept in memory or in the catalogs of the shards, schemas are read steadily. -/
theorem Introspector.Provided.steady {introspect : Introspector Deployment}
    (provided : introspect.Provided) (met : ShardId → Outlook) (limit : Nat) :
    ∃ reading, introspect.Steady Deployment.outlook met limit reading := by
  cases provided with
  | inMemory => exact ⟨_, steady_inMemory met limit⟩
  | onShards catalog => exact ⟨_, steady_onShards catalog met limit⟩

end ShardFleet
