import ShardFleet.Statement

/-!
Options of scatter-gather calls, replica selection and statement generation.

Each record of options has defaults and a check; a check names the first option that is zero
where it must not be.
-/

namespace ShardFleet

/-- What a scatter-gather call does when a shard fails. -/
inductive Tolerance where
  /-- The first failure stops the call. -/
  | failFast
  /-- Every shard runs to its end. -/
  | bestEffort
  deriving DecidableEq, Repr, Inhabited

/-- Options of a scatter-gather call. -/
structure ScatterOptions where
  /-- How many shards are invoked at once. -/
  maxConcurrency : Nat := 8
  /-- The time limit of each invocation. -/
  limit : Duration := Duration.ofSeconds 30
  tolerance : Tolerance := .bestEffort
  deriving DecidableEq, Repr, Inhabited

def ScatterOptions.check (options : ScatterOptions) : Except Error Unit :=
  if options.maxConcurrency = 0 then .error (.config "max_concurrency must be > 0")
  else if options.limit.nanos = 0 then .error (.config "per_shard_timeout must be > 0")
  else .ok ()

/-- How a replica is picked for reads. -/
inductive SelectionStrategy where
  | roundRobin
  | random
  | leastConnections
  deriving DecidableEq, Repr, Inhabited

/-- Options of replica selection. -/
structure ReplicaOptions where
  strategy : SelectionStrategy := .roundRobin
  /-- How long an endpoint stays out of use after a failure. -/
  recoveryDelay : Duration := Duration.ofSeconds 30
  deriving DecidableEq, Repr, Inhabited

def ReplicaOptions.check (options : ReplicaOptions) : Except Error Unit :=
  if options.recoveryDelay.nanos = 0 then .error (.config "recovery_delay must be > 0")
  else .ok ()

/-- Options of statement generation. -/
structure StatementOptions where
  style : PlaceholderStyle := .numbered
  /-- The most values that one statement binds. -/
  maxParameters : Nat := 2000
  deriving DecidableEq, Repr, Inhabited

def StatementOptions.check (options : StatementOptions) : Except Error Unit :=
  if options.maxParameters = 0 then .error (.config "max_parameters_per_statement must be > 0")
  else .ok ()

end ShardFleet
