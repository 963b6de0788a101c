import ShardFleet.Proofs.Connections
import ShardFleet.Proofs.Reference.Bindings

/-!
What the texts of statements tell of the values beside them: nothing.

Two runs are compared by what an onlooker sees of their worlds. Activities are alike if they do the
same to worlds that look the same, wait the same, and end with related results
(`Activity.Alike`); run from moments that look the same, they leave such moments
(`Activity.Alike.run`). An onlooker who sees no bound value (`Deployment.unbound`) sees work over
connections do the same whatever values its statements bind (`Connection.alike_use`,
`Connection.alike_execute`, `Connection.alike_query`). The texts of an upsert depend on its rows
only through the number of the kept ones (`Upsert.texts_eq`).
-/

namespace ShardFleet

/-! ### Activities that are alike -/

section Alike

variable {σ ο α β ρ τ ρ' τ' : Type} {view : σ → ο} {results : ρ → τ → Prop}
  {ends : ρ' → τ' → Prop}

namespace Activity

/-- On worlds that look the same the activities do the same, as far as it can be seen, and at the
same instants. They end with related results. -/
inductive Alike (view : σ → ο) (results : ρ → τ → Prop) : Activity σ ρ → Activity σ τ → Prop where
  | done {result : ρ} {other : τ} (related : results result other) :
      Alike view results (.done result) (.done other)
  | act {update others : σ → σ} {next : σ → Activity σ ρ} {after : σ → Activity σ τ}
      (updates : ∀ world other, view world = view other → view (update world) = view (others other))
      (onward : ∀ world other, view world = view other →
        Alike view results (next world) (after other)) :
      Alike view results (.act update next) (.act others after)
  | clock {next : Nat → Activity σ ρ} {after : Nat → Activity σ τ}
      (onward : ∀ now, Alike view results (next now) (after now)) :
      Alike view results (.clock next) (.clock after)
  | pause (ticks : Nat) {abandon others : σ → σ} {next : Activity σ ρ} {after : Activity σ τ}
      (givenUp : ∀ world other, view world = view other →
        view (abandon world) = view (others other))
      (onward : Alike view results next after) :
      Alike view results (.pause ticks abandon next) (.pause ticks others after)

variable {activity : Activity σ ρ} {other : Activity σ τ}

theorem Alike.bind {next : ρ → Activity σ ρ'} {after : τ → Activity σ τ'}
    (alike : Alike view results activity other)
    (onward : ∀ result another, results result another →
      Alike view ends (next result) (after another)) :
    Alike view ends (activity.bind next) (other.bind after) := by
  induction alike with
  | done related => exact onward _ _ related
  | act updates _ ih => exact .act updates ih
  | clock _ ih => exact .clock ih
  | pause ticks givenUp _ ih => exact .pause ticks givenUp ih

theorem Alike.guarded {release : σ → σ}
    (releases : ∀ world other, view world = view other →
      view (release world) = view (release other))
    (alike : Alike view results activity other) :
    Alike view results (activity.guarded release) (other.guarded release) := by
  induction alike with
  | done related => exact .act releases fun _ _ _ => .done related
  | act updates _ ih => exact .act updates ih
  | clock _ ih => exact .clock ih
  | pause ticks givenUp _ ih =>
      exact .pause ticks (fun _ _ same => releases _ _ (givenUp _ _ same)) ih

end Activity

/-- The moment as it looks. -/
def Moment.seen (view : σ → ο) (moment : Moment σ) : Moment ο :=
  { moment with world := view moment.world }

/-- From moments that look the same, activities that are alike lead to moments that look the same.
One of them is given up if and only if the other is. -/
theorem Activity.Alike.run {activity : Activity σ ρ} {other : Activity σ τ} {moment also : Moment σ}
    (alike : Activity.Alike view results activity other)
    (same : moment.seen view = also.seen view) :
    Option.Rel results (activity.run moment).1 (other.run also).1 ∧
      (activity.run moment).2.seen view = (other.run also).2.seen view := by
  induction alike generalizing moment also with
  | done related => exact ⟨.some related, same⟩
  | act updates _ ih =>
      have worlds : view moment.world = view also.world :=
        congrArg (fun seen : Moment ο => seen.world) same
      refine ih _ _ worlds ?_
      exact congrArg₂ (fun seen moment => { moment with world := seen }) (updates _ _ worlds) same
  | clock _ ih =>
      have instants : moment.now = also.now :=
        congrArg (fun seen : Moment ο => seen.now) same
      rw [Activity.run, Activity.run, instants]
      exact ih also.now same
  | pause ticks givenUp _ ih =>
      cases ticks with
      | zero => exact ih same
      | succ ticks =>
          have instants : moment.now = also.now :=
            congrArg (fun seen : Moment ο => seen.now) same
          have callers : moment.cancellation = also.cancellation :=
            congrArg (fun seen : Moment ο => seen.cancellation) same
          rw [Activity.run, Activity.run, instants, callers]
          split
          · have worlds := givenUp moment.world also.world
              (congrArg (fun seen : Moment ο => seen.world) same)
            exact ⟨.none, congrArg₂ (fun seen moment => Moment.cancel moment fun _ => seen)
              worlds same⟩
          · exact ih (congrArg (Moment.moveTo · _) same)

/-! ### Jobs that are alike -/

namespace Job

variable {relates : Except Error α → Except Error β → Prop}

theorem alike_bind {first : Job σ α} {next : α → Job σ β} {job : Job σ α} {after : α → Job σ β}
    {ends : Except Error β → Except Error β → Prop}
    (alike : Activity.Alike view Eq first job) (fails : ∀ error, ends (.error error) (.error error))
    (onward : ∀ value, Activity.Alike view ends (next value) (after value)) :
    Activity.Alike view ends (first >>= next : Job σ β) (job >>= after : Job σ β) := by
  refine alike.bind ?_
  rintro result _ rfl
  cases result with
  | error error => exact .done (fails error)
  | ok value => exact onward value

theorem alike_look {f g : σ → Except Error α}
    (sees : ∀ world other, view world = view other → f world = g other) :
    Activity.Alike view Eq (look f) (look g) :=
  .act (fun _ _ same => same) fun world other same => .done (sees world other same)

theorem alike_change {update others : σ → σ}
    (updates : ∀ world other, view world = view other → view (update world) = view (others other)) :
    Activity.Alike view Eq (change update) (change others) :=
  .act updates fun _ _ _ => .done rfl

theorem alike_transact {f g : σ → Except Error (σ × α)}
    (sees : ∀ world other, view world = view other →
      (f world).map (Prod.map view id) = (g other).map (Prod.map view id)) :
    Activity.Alike view Eq (transact f) (transact g) := by
  have each : ∀ world other, view world = view other →
      view (((f world).map Prod.fst).toOption.getD world) =
        view (((g other).map Prod.fst).toOption.getD other) ∧
      (f world).map Prod.snd = (g other).map Prod.snd := by
    intro world other same
    have sees := sees world other same
    generalize f world = left, g other = right at sees
    cases left with
    | error error =>
        cases right with
        | error other => exact ⟨same, congrArg Except.error (Except.error.inj sees)⟩
        | ok changed => cases sees
    | ok changed =>
        cases right with
        | error other => cases sees
        | ok another =>
            obtain ⟨worlds, values⟩ := Prod.mk.inj (Except.ok.inj sees)
            exact ⟨worlds, congrArg Except.ok values⟩
  exact .act (fun _ _ same => (each _ _ same).1) fun _ _ same => .done (each _ _ same).2

theorem alike_sleep {span : Duration} :
    Activity.Alike view Eq (sleep span : Job σ Unit) (sleep span) :=
  .pause _ (fun _ _ same => same) (.done rfl)

end Job

end Alike

/-! ### Worlds without bound values -/

/-- The statement as it looks to one who sees no bound value. -/
def Statement.unbound (statement : Statement) : Statement := .plain statement.sql

def SimulatedShard.unbound (shard : SimulatedShard) : SimulatedShard :=
  { shard with log := shard.log.map Statement.unbound }

namespace Deployment

/-- The world as it looks to one who sees no value that a noted statement binds. -/
def unbound (world : Deployment) : Deployment :=
  world.onNetwork fun network =>
    { network with shards := network.shards.mapValues fun _ shard => shard.unbound }

/-- The texts that a shard has noted, oldest first. -/
def texts (world : Deployment) (id : ShardId) : List String :=
  (world.shard id).log.map Statement.sql

variable {world other : Deployment} {id : ShardId}

theorem shard_unbound (world : Deployment) (id : ShardId) :
    world.unbound.shard id = (world.shard id).unbound := by
  simp only [shard, unbound, onNetwork, Network.shard?, OrderedMap.get?_mapValues]
  cases world.network.shards.get? id <;> rfl

theorem refusal?_unbound (world : Deployment) (id : ShardId) :
    world.unbound.network.refusal? id = world.network.refusal? id := by
  simp only [Network.refusal?, unbound, onNetwork, OrderedMap.contains,
    OrderedMap.get?_mapValues, Option.isSome_map]
  rfl

/-- A change of a shard that looks the same is a change of the world that looks the same. -/
theorem unbound_onShard {f g : SimulatedShard → SimulatedShard}
    (same : ∀ shard, (f shard).unbound = g shard.unbound) (world : Deployment) (id : ShardId) :
    (world.onShard id f).unbound = world.unbound.onShard id g := by
  -- A shard is changed under its name and the view keeps names: the maps agree name by name.
  have shards : (((world.network.update id f).shards.mapValues fun _ shard => shard.unbound) :
      OrderedMap ShardId SimulatedShard) = (world.unbound.network.update id g).shards := by
    refine OrderedMap.ext_get? fun name => ?_
    simp only [Network.update, unbound, onNetwork, OrderedMap.get?_mapValues, Option.map_map]
    congr 1
    funext shard
    dsimp only [Function.comp_apply]
    split
    · exact same shard
    · rfl
  rw [unbound, onShard, onShard, onNetwork, onNetwork, onNetwork, shards]
  rfl

/-- Worlds that look the same go on looking the same if a shard is changed in ways that look the
same. -/
theorem onShard_looks {f g h : SimulatedShard → SimulatedShard}
    (first : ∀ shard, (f shard).unbound = h shard.unbound)
    (second : ∀ shard, (g shard).unbound = h shard.unbound) (world other : Deployment)
    (same : world.unbound = other.unbound) :
    (world.onShard id f).unbound = (other.onShard id g).unbound := by
  rw [unbound_onShard first, unbound_onShard second, same]

/-- What does not depend on the log of a shard is the same in worlds that look the same. -/
theorem eq_of_looks {β : Type} (f : SimulatedShard → β) (blind : ∀ shard, f shard.unbound = f shard)
    (same : world.unbound = other.unbound) : f (world.shard id) = f (other.shard id) := by
  rw [← blind, ← blind (other.shard id), ← shard_unbound, ← shard_unbound, same]

/-- Worlds that look the same have noted the same texts. -/
theorem texts_eq_of_unbound (same : world.unbound = other.unbound) (id : ShardId) :
    world.texts id = other.texts id := by
  have seen (world : Deployment) :
      world.texts id = (world.unbound.shard id).log.map Statement.sql := by
    rw [shard_unbound, SimulatedShard.unbound, List.map_map]
    rfl
  rw [seen, seen, same]

end Deployment

/-! ### Work over connections -/

namespace Connection

variable {α : Type} {id : ShardId} {statement other : Statement}

theorem alike_acquire : Activity.Alike Deployment.unbound Eq (acquire id) (acquire id) := by
  refine Job.alike_transact fun world another same => ?_
  rw [← Deployment.refusal?_unbound world, ← Deployment.refusal?_unbound another, same]
  cases another.unbound.network.refusal? id with
  | some error => rfl
  | none =>
      exact congrArg (fun seen => Except.ok (seen, ()))
        (Deployment.onShard_looks (h := .connect) (fun _ => rfl) (fun _ => rfl) world another same)

/-- Work over a connection of its own. -/
theorem alike_use {ends : Except Error α → Except Error α → Prop} {work others : Work α}
    (fails : ∀ error, ends (.error error) (.error error))
    (alike : Activity.Alike Deployment.unbound ends work others) :
    Activity.Alike Deployment.unbound ends (use id work) (use id others) :=
  Job.alike_bind alike_acquire fails fun _ =>
    alike.guarded (Deployment.onShard_looks (h := .disconnect) (fun _ => rfl) fun _ => rfl)

/-- A statement in place of another of the same text. -/
theorem alike_send (texts : statement.sql = other.sql) :
    Activity.Alike Deployment.unbound Eq (send id statement) (send id other) := by
  have awaits : Activity.Alike Deployment.unbound Eq (await id) (await id) := by
    refine Job.alike_bind (Job.alike_look fun world another same => ?_) (fun _ => rfl) fun _ =>
      Job.alike_sleep
    exact congrArg Except.ok (Deployment.eq_of_looks SimulatedShard.latency (fun _ => rfl) same)
  refine Job.alike_bind awaits (fun _ => rfl) fun _ =>
    Job.alike_bind (Job.alike_change ?_) (fun _ => rfl) fun _ => Job.alike_look ?_
  · refine Deployment.onShard_looks (h := (·.receive statement.unbound)) (fun shard => ?_)
      (fun shard => ?_)
    · simp [SimulatedShard.unbound, SimulatedShard.receive, Statement.unbound]
    · simp [SimulatedShard.unbound, SimulatedShard.receive, Statement.unbound, Statement.plain,
        texts]
  · intro world another same
    rw [SimulatedShard.verdict, Deployment.eq_of_looks SimulatedShard.failures (fun _ => rfl) same,
      SimulatedShard.verdict]
    simp only [SimulatedShard.mentions, texts]

theorem alike_execute (texts : statement.sql = other.sql) :
    Activity.Alike Deployment.unbound Eq (execute id statement) (execute id other) :=
  Job.alike_bind (alike_send texts) (fun _ => rfl) fun _ => Job.alike_look fun _ _ same =>
    congrArg Except.ok (Deployment.eq_of_looks SimulatedShard.affected (fun _ => rfl) same)

theorem alike_query (texts : statement.sql = other.sql) :
    Activity.Alike Deployment.unbound Eq (query id statement) (query id other) := by
  refine Job.alike_bind (alike_send texts) (fun _ => rfl) fun _ => Job.alike_look ?_
  intro world another same
  rw [SimulatedShard.response, Deployment.eq_of_looks SimulatedShard.responses (fun _ => rfl) same,
    SimulatedShard.response]
  simp only [SimulatedShard.mentions, texts]

end Connection

/-! ### Upserts -/

namespace Upsert

variable {options : StatementOptions} {table : ReferenceTable}
  {rows others kept alsoKept : List Row} {list another : List Statement}

/-- Lists of one length are cut at the same places. -/
theorem map_length_chunks {α β : Type} {size : Nat} {list : List α} {others : List β}
    (long : list.length = others.length) :
    (chunks size list).map List.length = (chunks size others).map List.length := by
  fun_induction chunks size list generalizing others with
  | case1 list none =>
      have nothing : size = 0 ∨ others = [] := by
        rwa [← List.length_eq_zero_iff, long, List.length_eq_zero_iff] at none
      rw [chunks, if_pos nothing]
      rfl
  | case2 list some ih =>
      have something : ¬ (size = 0 ∨ others = []) := by
        rwa [← List.length_eq_zero_iff, long, List.length_eq_zero_iff] at some
      rw [chunks.eq_def size others, if_neg something, List.map_cons, List.map_cons,
        List.length_take, List.length_take, long,
        ih (by rw [List.length_drop, List.length_drop, long])]

/-- The texts of an upsert depend on the rows only through the number of those that are kept. -/
theorem texts_eq (made : statements options table rows = .ok list)
    (alsoMade : statements options table others = .ok another) (keeps : table.kept rows = .ok kept)
    (alsoKeeps : table.kept others = .ok alsoKept) (long : kept.length = alsoKept.length) :
    list.map Statement.sql = another.map Statement.sql := by
  have texts (frame : Frame) (pieces : List (List Row)) :
      (pieces.map (chunkStatement frame options.style table)).map Statement.sql =
        (pieces.map List.length).map (frame.sql options.style) := by
    rw [List.map_map, List.map_map]
    rfl
  obtain ⟨-, size, frame, entries, admits, framed, keyed, rfl⟩ := statements_eq_ok_iff.mp made
  obtain ⟨-, _, _, alsoEntries, alsoAdmits, alsoFramed, alsoKeyed, rfl⟩ :=
    statements_eq_ok_iff.mp alsoMade
  obtain rfl := Except.ok.inj (admits.symm.trans alsoAdmits)
  obtain rfl := Except.ok.inj (framed.symm.trans alsoFramed)
  rw [kept_eq_ok_iff.mpr ⟨entries, keyed, rfl⟩] at keeps
  rw [kept_eq_ok_iff.mpr ⟨alsoEntries, alsoKeyed, rfl⟩] at alsoKeeps
  obtain rfl := Except.ok.inj keeps
  obtain rfl := Except.ok.inj alsoKeeps
  rw [texts, texts, map_length_chunks long]

end Upsert

/-! ### Stores -/

/-- The moments look the same to one who sees no bound value. -/
def Moment.LooksLike (moment other : Moment Deployment) : Prop :=
  moment.seen Deployment.unbound = other.seen Deployment.unbound

/-- Performed from moments that look the same to one who sees no bound value, the jobs lead to such
moments, and every shard has noted the same texts. -/
def Job.SameTexts {α : Type} (job other : Work α) : Prop :=
  ∀ moment also : Moment Deployment, moment.LooksLike also →
    (job.perform moment).2.LooksLike (other.perform also).2 ∧
      ∀ id, (job.perform moment).2.world.texts id = (other.perform also).2.world.texts id

theorem Job.sameTexts_of_alike {α : Type} {job other : Work α}
    {ends : Except Error α → Except Error α → Prop}
    (alike : Activity.Alike Deployment.unbound ends job other) : Job.SameTexts job other := by
  intro moment also same
  have ended : (job.perform moment).2.LooksLike (other.perform also).2 := (alike.run same).2
  have worlds := congrArg (fun seen : Moment Deployment => seen.world) ended
  exact ⟨ended, fun id => Deployment.texts_eq_of_unbound worlds id⟩

namespace LedgerStore

variable (table : LedgerTable) (shard : ShardId)

theorem alike_wallTime : Activity.Alike Deployment.unbound Eq wallTime wallTime := by
  refine Job.alike_look fun world another same => ?_
  have clocks : world.unbound.wallClock = another.unbound.wallClock := by rw [same]
  exact congrArg Except.ok clocks

theorem alike_recordApplied (migration other : Migration) (taken another : Duration) :
    Activity.Alike Deployment.unbound Eq ((onShards table).recordApplied shard migration taken)
      ((onShards table).recordApplied shard other another) := by
  refine Job.alike_bind alike_wallTime (fun _ => rfl) fun instant =>
    Connection.alike_use (fun _ => rfl) ?_
  exact Job.alike_bind (Connection.alike_execute rfl) (fun _ => rfl) fun _ => .done rfl

/-- The calls succeed or fail alike; where they fail, each names its own migration. -/
theorem alike_recordRolledBack (id other : String) :
    Activity.Alike Deployment.unbound (fun result another => result.toOption = another.toOption)
      ((onShards table).recordRolledBack shard id)
      ((onShards table).recordRolledBack shard other) := by
  refine Job.alike_bind alike_wallTime (fun _ => rfl) fun instant =>
    Connection.alike_use (fun _ => rfl) ?_
  refine Job.alike_bind (Connection.alike_execute rfl) (fun _ => rfl) fun affected => ?_
  split
  · exact .done rfl
  · exact .done rfl

end LedgerStore

theorem Introspector.alike_onShards (catalog : Catalog) (name other : String) (shard : ShardId) :
    Activity.Alike Deployment.unbound Eq
      (onShards { catalog with schemaName := name } shard)
      (onShards { catalog with schemaName := other } shard) := by
  refine Connection.alike_use (fun _ => rfl) ?_
  exact Job.alike_bind (Connection.alike_query rfl) (fun _ => rfl) fun rows => .done rfl

/-- Values never get into the texts of statements. Upserts of rows of which equally many are kept
have the same texts. A migration is noted, as applied or as rolled back, by the same texts as any
other, and a schema is read by the same texts whatever its name. -/
theorem texts_of_values :
    (∀ (options : StatementOptions) (table : ReferenceTable) (rows others : List Row)
      (list another : List Statement) (kept alsoKept : List Row),
      Upsert.statements options table rows = .ok list →
      Upsert.statements options table others = .ok another →
      table.kept rows = .ok kept → table.kept others = .ok alsoKept →
      kept.length = alsoKept.length → list.map Statement.sql = another.map Statement.sql) ∧
    (∀ (table : LedgerTable) (shard : ShardId) (migration other : Migration)
      (taken another : Duration),
      Job.SameTexts ((LedgerStore.onShards table).recordApplied shard migration taken)
        ((LedgerStore.onShards table).recordApplied shard other another)) ∧
    (∀ (table : LedgerTable) (shard : ShardId) (id other : String),
      Job.SameTexts ((LedgerStore.onShards table).recordRolledBack shard id)
        ((LedgerStore.onShards table).recordRolledBack shard other)) ∧
    ∀ (catalog : Catalog) (shard : ShardId) (name other : String),
      Job.SameTexts (Introspector.onShards { catalog with schemaName := name } shard)
        (Introspector.onShards { catalog with schemaName := other } shard) := by
  refine ⟨fun _ _ _ _ _ _ _ _ => Upsert.texts_eq, ?_, ?_, ?_⟩
  · intro table shard migration other taken another
    exact Job.sameTexts_of_alike
      (LedgerStore.alike_recordApplied table shard migration other taken another)
  · intro table shard id other
    exact Job.sameTexts_of_alike (LedgerStore.alike_recordRolledBack table shard id other)
  · intro catalog shard name other
    exact Job.sameTexts_of_alike (Introspector.alike_onShards catalog name other shard)

/-- Three rows and two, of which two each are kept, and two migrations noted on a shard. -/
theorem texts_of_values_countries :
    let table := ReferenceTable.new "countries" ["code"] ["name"]
    let country := fun code name : String =>
      (OrderedMap.ofList [("code", .text code), ("name", .text name)] : Row)
    let rows := [country "DE" "Germany", country "FR" "France", country "DE" "Deutschland"]
    let others := [country "IT" "x'; DROP TABLE countries; --", country "ES" "Spain"]
    let moment : Moment Deployment :=
      { now := 0, world := { network := Network.empty.add ⟨"eu-1"⟩, wallClock := 7 } }
    let noting := fun id : String => ((LedgerStore.onShards ⟨"\"ledger\"", .numbered⟩).recordApplied
      ⟨"eu-1"⟩ ⟨id, "", "", "", ""⟩ ⟨0⟩).perform moment
    (∃ list another, Upsert.statements ⟨.numbered, 5⟩ table rows = .ok list ∧
      Upsert.statements ⟨.numbered, 5⟩ table others = .ok another ∧
      list.map Statement.sql = another.map Statement.sql) ∧
    (noting "1").2.world.texts ⟨"eu-1"⟩ = (noting "2").2.world.texts ⟨"eu-1"⟩ ∧
    ((noting "1").2.world.texts ⟨"eu-1"⟩).length = 1 := by
  intro table country rows others moment noting
  obtain ⟨upserts, notes, -⟩ := texts_of_values
  refine ⟨?_, (notes _ _ _ _ _ _ moment moment rfl).2 _, by decide +kernel⟩
  obtain ⟨kept, keeps, two⟩ := exists_eq_ok
    (show (table.kept rows).toOption.map List.length = some 2 by decide +kernel)
  obtain ⟨alsoKept, alsoKeeps, alsoTwo⟩ := exists_eq_ok
    (show (table.kept others).toOption.map List.length = some 2 by decide +kernel)
  obtain ⟨list, made, -⟩ := exists_eq_ok
    (show (Upsert.statements ⟨.numbered, 5⟩ table rows).toOption.map List.length = some 1 by
      decide +kernel)
  obtain ⟨another, alsoMade, -⟩ := exists_eq_ok
    (show (Upsert.statements ⟨.numbered, 5⟩ table others).toOption.map List.length = some 1 by
      decide +kernel)
  exact ⟨list, another, made, alsoMade,
    upserts _ _ _ _ _ _ _ _ made alsoMade keeps alsoKeeps (two.trans alsoTwo.symm)⟩

end ShardFleet
