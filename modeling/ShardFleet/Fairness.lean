/-!
What keeps tasks on one thread from starving each other.

Tasks take turns. Turns are given in batches; between two batches whoever began everything is
asked whether it can go on. In one turn a task may go on past a limited number of waits, however
many of them are over already; what is left goes on in another turn.
-/

namespace ShardFleet.Fairness

/-- How many turns make a batch. -/
def batch : Nat := 61

/-- How many waits may end in one turn. -/
def allowance : Nat := 128

end ShardFleet.Fairness
