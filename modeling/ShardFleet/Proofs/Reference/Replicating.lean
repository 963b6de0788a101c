import Mathlib.Logic.Function.Basic
import ShardFleet.Proofs.Reference.Books
import ShardFleet.Proofs.Reference.Drift
import ShardFleet.Proofs.Scatter.Scripts

/-!
Replication in memory, shard by shard.

Writing rows to a shard touches only what the world holds for it, and either all of them are
written or none (`keeps_copying`). So a call leaves the shards that it reached with the rows of the
source over their own, and everything else as it was (`Replicator.spread_spreads`). A second
replication finds the same rows everywhere, and every shard that had no others has the digest of
the source (`Replicator.replicate_converges`).
-/

namespace ShardFleet

/-! ### What a world holds for a shard -/

/-- The tables of a shard, and what a world holds beside tables. -/
structure Holdings where
  tables : String → KeyedRows
  rest : Deployment

/-- What a world holds for a shard. -/
def Deployment.holdings (id : ShardId) (world : Deployment) : Holdings :=
  ⟨world.tables.rowsOf id, { world with tables := .empty }⟩

/-- What is held after rows were written to a table. -/
def Holdings.store (held : Holdings) (name : String) (entries : List (Digest.Bytes × Row)) :
    Holdings :=
  { held with
    tables := Function.update held.tables name (TableBook.store (held.tables name) entries) }

theorem Deployment.holdings_put (world : Deployment) (shard id : ShardId) (name : String)
    (entries : List (Digest.Bytes × Row)) :
    let tables := world.tables.put shard name
      (TableBook.store (world.tables.rowsOf shard name) entries)
    Deployment.holdings id { world with tables } =
      if id = shard then (world.holdings id).store name entries else world.holdings id := by
  intro tables
  have rows : tables.rowsOf id = if id = shard then Function.update (world.tables.rowsOf id) name
      (TableBook.store (world.tables.rowsOf id name) entries) else world.tables.rowsOf id := by
    funext other
    rw [TableBook.rowsOf_put]
    by_cases here : id = shard
    · by_cases same : other = name
      · simp [here, same]
      · simp [here, same]
    · simp [here]
  simp only [holdings, rows]
  split <;> rfl

/-- Worlds that differ in no more than their tables. -/
theorem Deployment.eq_of_rest {before after : Deployment} {id : ShardId}
    (same : (after.holdings id).rest = (before.holdings id).rest) :
    after = { before with tables := after.tables } := by
  cases before
  cases after
  simp_all [holdings]

/-- Rows are written with success, or not at all. -/
def Custody.copying (table : ReferenceTable) (rows : List Row) :
    Custody Deployment Holdings Nat where
  part := Deployment.holdings
  idle := fun _ found left => left = found
  ends := fun _ result found left =>
    match result with
    | .ok _ => ∃ entries, table.keyed rows = .ok entries ∧ left = found.store table.name entries
    | .error _ => left = found
  idle_refl := fun _ _ => rfl
  calledOff := id
  overdue := id
  stray := fun _ _ => rfl

theorem keeps_copying (options : ScatterOptions) (table : ReferenceTable) (rows : List Row)
    (shard : Shard) :
    (Custody.copying table rows).Keeps shard.id
      (Call.invocation ⟨fun shard => .ofJob (TableStore.inMemory.upsert shard.id table rows),
        options⟩ shard) := by
  refine Custody.Keeps.within (fun world => ?_) options.limit options.limit.ticks
  cases wrote : world.tables.upsert shard.id table rows with
  | error error =>
      refine (Job.tends_transact_error (?_ : _ = Except.error error)).mpr rfl
      rw [wrote]
      rfl
  | ok tables =>
      obtain ⟨-, entries, keyed, written⟩ := TableBook.upsert_eq_ok_iff.mp wrote
      have held : ∀ id, Deployment.holdings id { world with tables } =
          if id = shard.id then (world.holdings id).store table.name entries
          else world.holdings id := fun id =>
        written ▸ world.holdings_put shard.id id table.name entries
      refine (Job.tends_transact_ok { world with tables } rows.length ?_).mpr ⟨?_, ?_⟩
      · rw [wrote]
        rfl
      · exact fun other apart => (held other).trans (if_neg apart)
      · exact ⟨entries, keyed, (held shard.id).trans (if_pos rfl)⟩

namespace Custody.Settled

variable {table : ReferenceTable} {rows : List Row} {entries : List (Digest.Bytes × Row)}
  {before after : Deployment} {gathered : Gathered Nat} {id : ShardId}

/-- The rows lie over those of a shard that took them. -/
theorem reached (settled : (Custody.copying table rows).Settled before gathered after)
    (keyed : table.keyed rows = .ok entries) (mem : id ∈ gathered.successes.map Prod.fst) :
    after.holdings id = (before.holdings id).store table.name entries := by
  obtain ⟨⟨id, value⟩, success, rfl⟩ := List.mem_map.mp mem
  obtain ⟨own, alsoKeyed, left⟩ :=
    settled.outcomes _ (List.mem_append_left _ (Gathered.mem_successes.mp success))
  obtain rfl := Except.ok.inj (keyed.symm.trans alsoKeyed)
  exact left

/-- A shard that did not take the rows is as it was, whatever became of it. -/
theorem missed (settled : (Custody.copying table rows).Settled before gathered after)
    (absent : id ∉ gathered.successes.map Prod.fst) : after.holdings id = before.holdings id := by
  by_cases started : id ∈ gathered.outcomes.map Answer.shard
  · obtain ⟨⟨id, result⟩, outcome, rfl⟩ := List.mem_map.mp started
    have left := settled.outcomes _ outcome
    cases result with
    | error error => exact left
    | ok value =>
        rcases List.mem_append.mp outcome with answered | calledOff
        · have success : (id, value) ∈ gathered.successes := Gathered.mem_successes.mpr answered
          exact absurd (List.mem_map_of_mem success) absent
        · simp at calledOff
  · exact settled.others id started

end Custody.Settled

/-! ### What a call leaves -/

/-- What a replication leaves: the shards that it reached hold the rows of the source over their
own, and everything else is as it was, on the source too. -/
structure Spread (table : ReferenceTable) (source : ShardId) (reached : List ShardId)
    (before after : Deployment) : Prop where
  apart : source ∉ reached
  copied : ∀ id ∈ reached, ∀ key,
    (after.tables.rowsOf id table.name).get? key =
      ((before.tables.rowsOf source table.name).get? key).or
        ((before.tables.rowsOf id table.name).get? key)
  others : ∀ id name, id ∉ reached ∨ name ≠ table.name →
    after.tables.rowsOf id name = before.tables.rowsOf id name
  rest : after = { before with tables := after.tables }

namespace Spread

variable {table : ReferenceTable} {source id : ShardId} {reached again : List ShardId}
  {before between after : Deployment}

/-- The rows of the source were spread if the shards that were reached took them and no others
changed. -/
theorem of_holdings (apart : source ∉ reached)
    (taken : ∀ id ∈ reached, after.holdings id =
      (before.holdings id).store table.name (before.tables.rowsOf source table.name).entries)
    (missed : ∀ id ∉ reached, after.holdings id = before.holdings id) :
    Spread table source reached before after := by
  refine ⟨apart, fun id mem key => ?_, fun id name elsewhere => ?_, ?_⟩
  · have rows := congrArg (Holdings.tables · table.name) (taken id mem)
    simp only [Deployment.holdings, Holdings.store, Function.update_self] at rows
    rw [rows]
    exact TableBook.get?_store_entries _ _ key
  · by_cases mem : id ∈ reached
    · have other := elsewhere.resolve_left (not_not_intro mem)
      have rows := congrArg (Holdings.tables · name) (taken id mem)
      simpa [Deployment.holdings, Holdings.store, other] using rows
    · exact congrArg (Holdings.tables · name) (missed id mem)
  · exact Deployment.eq_of_rest (congrArg Holdings.rest (missed source apart))

theorem source_kept (spread : Spread table source reached before after) :
    after.tables.rowsOf source table.name = before.tables.rowsOf source table.name :=
  spread.others source table.name (.inl spread.apart)

/-- Rows keep their keys on the way. -/
theorem keyed (spread : Spread table source reached before after)
    (keyed : before.tables.Keyed table) : after.tables.Keyed table := by
  intro id key row found
  by_cases mem : id ∈ reached
  · rw [spread.copied id mem key] at found
    rcases Option.or_eq_some_iff.mp found with copied | ⟨-, own⟩
    · exact keyed source key row copied
    · exact keyed id key row own
  · rw [spread.others id table.name (.inl mem)] at found
    exact keyed id key row found

/-- Shards that were reached before hold nothing new when they are reached again. -/
theorem idle (first : Spread table source reached before between)
    (second : Spread table source again between after) (known : ∀ id ∈ again, id ∈ reached)
    (id : ShardId) : after.holdings id = between.holdings id := by
  have rows : after.tables.rowsOf id = between.tables.rowsOf id := by
    funext name
    by_cases mem : id ∈ again ∧ name = table.name
    · obtain ⟨mem, rfl⟩ := mem
      refine OrderedMap.ext_get? fun key => ?_
      rw [second.copied id mem key, first.source_kept, first.copied id (known id mem) key,
        ← Option.or_assoc, Option.or_self]
    · exact second.others id name (by tauto)
  rw [Deployment.holdings, Deployment.holdings, rows, second.rest]

/-- A shard that held no other keys than the source holds its rows when it was reached. -/
theorem rows_eq (spread : Spread table source reached before after) (mem : id ∈ reached)
    (covered : ∀ key, (before.tables.rowsOf source table.name).get? key = none →
      (before.tables.rowsOf id table.name).get? key = none) :
    after.tables.rowsOf id table.name = before.tables.rowsOf source table.name := by
  refine OrderedMap.ext_get? fun key => ?_
  rw [spread.copied id mem key]
  cases found : (before.tables.rowsOf source table.name).get? key with
  | none => rw [covered key found, Option.or_none]
  | some row => rfl

end Spread

namespace Replicator

variable {executor : Executor} {source : ShardId}
  {known : executor.topology.contains source = true} {table : ReferenceTable}
  {moment : Moment Deployment}

theorem mem_targets {replicator : Replicator Deployment} {id : ShardId} :
    id ∈ (Targets.some replicator.targets).ids replicator.executor.topology ↔
      id ∈ replicator.executor.topology.ids ∧ id ≠ replicator.source := by
  rw [Targets.mem_ids]
  simp [Targets.Covers, targets]

/-- The rows of the source are written to the shards that a call reaches, and to no others. -/
theorem spread_spreads (written : moment.world.tables.Keyed table) :
    let replicator : Replicator Deployment := ⟨executor, .inMemory, source, known⟩
    let gone := replicator.spread table (moment.world.tables.readAll source table) moment
    gone.1.roll.Perm ((Targets.some replicator.targets).ids executor.topology) ∧
      Spread table source (gone.1.successes.map Prod.fst) moment.world gone.2.world := by
  intro replicator gone
  have roll : gone.1.roll.Perm ((Targets.some replicator.targets).ids executor.topology) :=
    executor.scatterWith_roll executor.options _ _ moment
  have settled : (Custody.copying table (moment.world.tables.readAll source table)).Settled
      moment.world gone.1 gone.2.world :=
    Executor.scatterWith_settled (keeps_copying executor.options table _)
  have apart : source ∉ gone.1.successes.map Prod.fst := fun mem =>
    (mem_targets.mp (roll.mem_iff.mp ((gone.1.successes_sublist).mem mem))).2 rfl
  exact ⟨roll, .of_holdings apart (fun _ => settled.reached (written.keyed_values source))
    fun _ => settled.missed⟩

/-! ### Replication -/

theorem readSource_eq :
    (⟨executor, .inMemory, source, known⟩ : Replicator Deployment).readSource table moment =
      (if moment.cancellation.hasFired then .error .cancelled
        else .ok (Dataset.ofRows (moment.world.tables.readAll source table)), moment) := by
  let view : ShardId → Deployment → Except Error (List Row) :=
    fun id world => .ok (world.tables.readAll id table)
  have reads : (⟨executor, .inMemory, source, known⟩ : Replicator Deployment).readSource table
      moment = ((executor.on source (.looking view) moment).1.map Dataset.ofRows,
        (executor.on source (.looking view) moment).2) := rfl
  rw [reads, executor.on_looking known]
  cases moment.cancellation.hasFired <;> rfl

/-- Unless its caller has cancelled, a replication of a table with a key reads the source and
reports on the others. -/
theorem replicate_eq (keyed : table.primaryKey ≠ []) :
    let replicator : Replicator Deployment := ⟨executor, .inMemory, source, known⟩
    let rows := moment.world.tables.readAll source table
    replicator.replicate table moment =
      if moment.cancellation.hasFired then (.error .cancelled, moment)
      else (.ok ⟨source, ContentHash.ofRows rows, rows.length,
          (replicator.spread table rows moment).1⟩, (replicator.spread table rows moment).2) := by
  intro replicator rows
  unfold replicate
  rw [ReferenceTable.check_eq_ok_iff.mpr keyed]
  dsimp only
  rw [Timed.bind_apply, readSource_eq]
  cases moment.cancellation.hasFired <;> rfl

theorem replicate_of_no_key (unkeyed : table.primaryKey = []) :
    ∃ error, (⟨executor, .inMemory, source, known⟩ : Replicator Deployment).replicate table moment =
      (.error error, moment) := by
  cases checked : table.check with
  | ok done => exact absurd unkeyed (ReferenceTable.check_eq_ok_iff.mp checked)
  | error error =>
      refine ⟨error, ?_⟩
      unfold replicate
      rw [checked]
      rfl

/-- A replication fails without changing anything, or reports on a spread of the rows. -/
theorem replicate_cases (known : executor.topology.contains source = true)
    (keyed : moment.world.tables.Keyed table) :
    let ran := (⟨executor, .inMemory, source, known⟩ : Replicator Deployment).replicate table moment
    (∃ error, (table.primaryKey = [] ∨ moment.cancellation.hasFired = true) ∧
      ran = (.error error, moment)) ∨
    ∃ report, table.primaryKey ≠ [] ∧ moment.cancellation.hasFired = false ∧ ran.1 = .ok report ∧
      report.rows = (moment.world.tables.readAll source table).length ∧
      report.hash = ContentHash.ofRows (moment.world.tables.readAll source table) ∧
      (∀ id, id ∈ report.gathered.roll ↔ id ∈ executor.topology.ids ∧ id ≠ source) ∧
      Spread table source (report.gathered.successes.map Prod.fst) moment.world ran.2.world := by
  intro ran
  by_cases unkeyed : table.primaryKey = []
  · obtain ⟨error, failed⟩ := replicate_of_no_key unkeyed
    exact .inl ⟨error, .inl unkeyed, failed⟩
  · have whole : ran = _ := replicate_eq unkeyed
    cases fired : moment.cancellation.hasFired with
    | true =>
        rw [fired, if_pos rfl] at whole
        exact .inl ⟨_, .inr rfl, whole⟩
    | false =>
        rw [fired, if_neg Bool.false_ne_true] at whole
        obtain ⟨roll, spread⟩ := spread_spreads keyed
        rw [whole]
        refine .inr ⟨_, unkeyed, rfl, rfl, rfl, rfl, fun id => ?_, spread⟩
        exact roll.mem_iff.trans mem_targets

/-- Once every other shard was reached, to replicate again changes nothing. -/
theorem holdings_again (known : executor.topology.contains source = true) {reached : List ShardId}
    {before : Deployment} (keyed : before.tables.Keyed table)
    (spread : Spread table source reached before moment.world)
    (all : ∀ id ∈ executor.topology.ids, id ≠ source → id ∈ reached) (id : ShardId) :
    ((⟨executor, .inMemory, source, known⟩ : Replicator Deployment).replicate table
      moment).2.world.holdings id = moment.world.holdings id := by
  rcases replicate_cases known (spread.keyed keyed) with
    ⟨error, -, failed⟩ | ⟨report, -, -, -, -, -, roll, again⟩
  · rw [failed]
  · refine spread.idle again (fun other mem => ?_) id
    obtain ⟨listed, apart⟩ := (roll other).mp ((Gathered.successes_sublist _).mem mem)
    exact all other listed apart

/-- Once every other shard was reached, only shards that had keys of their own drift. -/
theorem drifted_of_spread (known : executor.topology.contains source = true)
    {reached : List ShardId} {before : Deployment}
    (spread : Spread table source reached before moment.world)
    (all : ∀ id ∈ executor.topology.ids, id ≠ source → id ∈ reached) {drift : DriftReport}
    (made : ((⟨executor, .inMemory, source, known⟩ : Replicator Deployment).detectDrift table
      moment).1 = .ok drift) {id : ShardId} (drifted : id ∈ drift.drifted) :
    ∃ key, (before.tables.rowsOf id table.name).get? key ≠ none ∧
      (before.tables.rowsOf source table.name).get? key = none := by
  obtain ⟨hashes, expected⟩ := hash_of_drift made
  obtain ⟨hash, there, different⟩ := DriftReport.mem_drifted.mp drifted
  obtain ⟨listed, rfl⟩ := hashes id hash there
  rw [expected] at different
  by_contra covered
  refine different ?_
  have rows : moment.world.tables.rowsOf id table.name =
      moment.world.tables.rowsOf source table.name := by
    by_cases same : id = source
    · rw [same]
    · rw [spread.source_kept]
      refine spread.rows_eq (all id listed same) fun key missing => ?_
      by_contra own
      exact covered ⟨key, own, missing⟩
  rw [hashOn, hashOn, TableBook.readAll, TableBook.readAll, rows]

/-- Replication converges. If it fails, nothing has changed. If it reports, the shards that it
reached hold the rows of the source over their own, and everything else is as it was. If the report
is complete, every other shard was reached; to replicate again changes nothing, and only shards
that had keys of their own can still drift. -/
theorem replicate_converges (known : executor.topology.contains source = true)
    (table : ReferenceTable) (moment : Moment Deployment)
    (written : moment.world.tables.WrittenBy table) :
    let replicator : Replicator Deployment := ⟨executor, .inMemory, source, known⟩
    let ran := replicator.replicate table moment
    ((∃ report, ran.1 = .ok report) ↔
      table.primaryKey ≠ [] ∧ moment.cancellation.hasFired = false) ∧
    (∀ error, ran.1 = .error error → ran.2.world = moment.world) ∧
    ∀ report, ran.1 = .ok report →
      report.rows = (moment.world.tables.readAll source table).length ∧
      report.hash = ContentHash.ofRows (moment.world.tables.readAll source table) ∧
      Spread table source (report.gathered.successes.map Prod.fst) moment.world ran.2.world ∧
      (report.gathered.isComplete = true →
        (∀ id ∈ executor.topology.ids, id ≠ source →
          id ∈ report.gathered.successes.map Prod.fst) ∧
        ∀ later : Moment Deployment, later.world = ran.2.world →
          (∀ id, (replicator.replicate table later).2.world.holdings id =
            later.world.holdings id) ∧
          (∀ drift, (replicator.detectDrift table later).1 = .ok drift →
            ∀ id ∈ drift.drifted, ∃ key,
              (moment.world.tables.rowsOf id table.name).get? key ≠ none ∧
                (moment.world.tables.rowsOf source table.name).get? key = none) ∧
          (later.cancellation = .never → ∃ drift,
            (replicator.detectDrift table later).1 = .ok drift ∧ drift.failures = [])) := by
  intro replicator ran
  rcases replicate_cases known written.keyed with
    ⟨error, cause, failed⟩ | ⟨report, keyed, unfired, reported, rows, hash, roll, spread⟩
  · have unreported : ∀ report, ran.1 ≠ .ok report := by
      intro report reported
      rw [show ran = (.error error, moment) from failed] at reported
      cases reported
    have refused : ¬(table.primaryKey ≠ [] ∧ moment.cancellation.hasFired = false) := by
      rintro ⟨keyed, unfired⟩
      rcases cause with unkeyed | fired
      · exact keyed unkeyed
      · rw [unfired] at fired
        cases fired
    refine ⟨iff_of_false (fun ⟨report, reported⟩ => unreported report reported) refused,
      fun _ _ => ?_, fun report reported => absurd reported (unreported report)⟩
    rw [show ran = (.error error, moment) from failed]
  · refine ⟨iff_of_true ⟨report, reported⟩ ⟨keyed, unfired⟩, fun error failed => ?_, ?_⟩
    · rw [show ran.1 = .ok report from reported] at failed
      cases failed
    · intro other same
      obtain rfl := Except.ok.inj ((show ran.1 = .ok report from reported).symm.trans same)
      refine ⟨rows, hash, spread, fun complete => ?_⟩
      have all : ∀ id ∈ executor.topology.ids, id ≠ source →
          id ∈ report.gathered.successes.map Prod.fst := by
        intro id listed apart
        obtain ⟨value, success⟩ :=
          Gathered.exists_success_of_complete complete ((roll id).mpr ⟨listed, apart⟩)
        exact List.mem_map_of_mem success
      refine ⟨all, fun later onwards => ?_⟩
      have spreadLater : Spread table source (report.gathered.successes.map Prod.fst)
          moment.world later.world := onwards ▸ spread
      exact ⟨holdings_again known written.keyed spreadLater all,
        fun drift made id drifted => drifted_of_spread known spreadLater all made drifted,
        fun patient => (exists_drift patient).imp fun drift made => ⟨made.1, made.2.1⟩⟩

/-- From one of two shards to the other, which has an old row of the source and a row of its
own. -/
theorem replicate_converges_pair :
    let table := ReferenceTable.new "countries" ["code"] ["name"]
    let country := fun code name : String =>
      (OrderedMap.ofList [("code", .text code), ("name", .text name)] : Row)
    let seeded := TableBook.empty.put Shard.first.id table.name
      (.ofList [(Wire.write [Value.text "DE"], country "DE" "Germany")])
    let stocked := seeded.put Shard.second.id table.name
      (.ofList [(Wire.write [Value.text "DE"], country "DE" "Prussia"),
        (Wire.write [Value.text "FR"], country "FR" "France")])
    let moment : Moment Deployment :=
      { now := 0, world := { network := .ofTopology .pair, tables := stocked, wallClock := 0 } }
    let replicator : Replicator Deployment :=
      ⟨⟨.pair, {}⟩, .inMemory, Shard.first.id, by decide⟩
    let ran := replicator.replicate table moment
    stocked.WrittenBy table ∧ ∃ report, ran.1 = .ok report ∧ report.gathered.isComplete = true ∧
      Spread table Shard.first.id [Shard.second.id] moment.world ran.2.world := by
  intro table country seeded stocked moment replicator ran
  have seeds : TableBook.empty.upsert Shard.first.id table [country "DE" "Germany"] =
      .ok seeded := by rfl
  have stocks : seeded.upsert Shard.second.id table
      [country "DE" "Prussia", country "FR" "France"] = .ok stocked := by rfl
  have written : stocked.WrittenBy table :=
    .upsert (.upsert .empty (fun _ => rfl) seeds) (fun _ => rfl) stocks
  obtain ⟨reports, -, spreads⟩ := replicate_converges replicator.known table moment written
  obtain ⟨report, reported⟩ := reports.mpr (by decide)
  have reached : ran.1.toOption.map (fun report =>
      (report.gathered.isComplete, report.gathered.successes.map Prod.fst)) =
        some (true, [Shard.second.id]) := by decide +kernel
  rw [show ran.1 = .ok report from reported] at reached
  obtain ⟨complete, second⟩ := Prod.mk.inj (Option.some.inj reached)
  obtain ⟨-, -, spread, -⟩ := spreads report reported
  exact ⟨written, report, reported, complete, second ▸ spread⟩

end Replicator

end ShardFleet
