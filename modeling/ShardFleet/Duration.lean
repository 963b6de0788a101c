/-!
Spans of time, counted in nanoseconds.

Timers tick in whole milliseconds. A span between two ticks ends at the later one, so a timer
never fires early; a measured span is reported in the whole milliseconds that have passed. A
sleep has a longest span (`Duration.longestSleep`).
-/

namespace ShardFleet

/-- A span of time. -/
structure Duration where
  nanos : Nat
  deriving DecidableEq, Repr, Inhabited

namespace Duration

def ofMillis (n : Nat) : Duration := ⟨n * 1000000⟩

def ofSeconds (n : Nat) : Duration := ⟨n * 1000000000⟩

/-- Timer ticks until the span is over. -/
def ticks (d : Duration) : Nat := (d.nanos + 999999) / 1000000

/-- The longest sleep that is granted: thirty years of 365 days. -/
def longestSleep : Duration := ofSeconds (30 * 365 * 24 * 60 * 60)

/-- Timer ticks that whoever sleeps for a span is asleep. Nobody sleeps longer than is granted;
a time limit, on the other hand, may be any span away. -/
def sleepTicks (d : Duration) : Nat := min d.ticks longestSleep.ticks

/-- Whole milliseconds contained in the span. -/
def wholeMillis (d : Duration) : Nat := d.nanos / 1000000

/-- The digits of a fraction with `places` decimal places, without trailing zeros. -/
def fractionDigits (places fraction : Nat) : List Char :=
  let digits := Nat.toDigits 10 fraction
  let padded := List.replicate (places - digits.length) '0' ++ digits
  (padded.reverse.dropWhile (· = '0')).reverse

/-- A number with `places` decimal places; a zero fraction is left out with its point. -/
def decimal (whole places fraction : Nat) : String :=
  if fraction = 0 then toString whole
  else toString whole ++ "." ++ String.ofList (fractionDigits places fraction)

/-- The span in its largest unit of at least one: seconds, milliseconds, microseconds or
nanoseconds. -/
def text (d : Duration) : String :=
  if 1000000000 ≤ d.nanos then decimal (d.nanos / 1000000000) 9 (d.nanos % 1000000000) ++ "s"
  else if 1000000 ≤ d.nanos then decimal (d.nanos / 1000000) 6 (d.nanos % 1000000) ++ "ms"
  else if 1000 ≤ d.nanos then decimal (d.nanos / 1000) 3 (d.nanos % 1000) ++ "µs"
  else toString d.nanos ++ "ns"

end Duration

end ShardFleet
