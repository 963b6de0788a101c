import ShardFleet.Wire.Basic

/-!
Migrations and the records of their application.

A migration carries the script that makes a schema change and the script that undoes it. Its
checksum identifies the first of the two. A record is active until it is stamped as rolled back;
of the active records of a migration the latest counts.
-/

namespace ShardFleet

/-- A schema change with its reverse. -/
structure Migration where
  id : String
  description : String
  up : String
  down : String
  /-- The digest of the script that makes the change. -/
  checksum : String
  deriving DecidableEq, Repr, Inhabited

namespace Migration

/-- The digest of a script. -/
def checksumOf (script : String) : String := Digest.hex (Digest.xxh64 0 (Text.utf8 script))

/-- A migration with the checksum of its script. -/
def new (id description up down : String) : Migration :=
  ⟨id, description, up, down, checksumOf up⟩

/-- Migrations in the order of their ids; of equal ids the order given stays. -/
def sort (migrations : List Migration) : List Migration :=
  migrations.mergeSort fun a b => (compare a.id b.id).isLE

end Migration

/-- One entry of a ledger. Times are milliseconds since the epoch. -/
structure MigrationRecord where
  id : String
  description : String
  checksum : String
  appliedAt : UInt64
  /-- How long the script took, in milliseconds. -/
  duration : UInt64
  rolledBackAt : Option UInt64
  deriving DecidableEq, Repr, Inhabited

namespace MigrationRecord

/-- Whether the migration is still in effect. -/
def isActive (record : MigrationRecord) : Bool := record.rolledBackAt.isNone

/-- Whether the record is an active one of the migration `id`. -/
def isActiveOf (record : MigrationRecord) (id : String) : Bool := record.id = id && record.isActive

/-- The record of a migration applied just now. -/
def applied (migration : Migration) (instant : UInt64) (duration : Duration) : MigrationRecord :=
  ⟨migration.id, migration.description, migration.checksum, instant,
    UInt64.ofNat duration.wholeMillis, none⟩

/-- The latest active record of a migration. -/
def latestActive? (history : List MigrationRecord) (id : String) : Option MigrationRecord :=
  history.reverse.find? (·.isActiveOf id)

end MigrationRecord

instance : Wire.Form Migration where
  write m := Wire.write m.id ++ Wire.write m.description ++ Wire.write m.up ++ Wire.write m.down ++
    Wire.write m.checksum
  read := do
    let id ← Wire.read
    let description ← Wire.read
    let up ← Wire.read
    let down ← Wire.read
    let checksum ← Wire.read
    return ⟨id, description, up, down, checksum⟩

instance : Wire.Form MigrationRecord where
  write r := Wire.write r.id ++ Wire.write r.description ++ Wire.write r.checksum ++
    Wire.write r.appliedAt ++ Wire.write r.duration ++ Wire.write r.rolledBackAt
  read := do
    let id ← Wire.read
    let description ← Wire.read
    let checksum ← Wire.read
    let appliedAt ← Wire.read
    let duration ← Wire.read
    let rolledBackAt ← Wire.read
    return ⟨id, description, checksum, appliedAt, duration, rolledBackAt⟩

end ShardFleet
