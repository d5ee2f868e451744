/-!
Spans of time, exact to the nanosecond, and the ticks of the clock that calls wait by.
-/

namespace Courier

structure Duration where
  nanoseconds : Nat
  deriving DecidableEq, Repr

namespace Duration

def ofSeconds (s : Nat) : Duration := ⟨s * 1000000000⟩

def ofMilliseconds (ms : Nat) : Duration := ⟨ms * 1000000⟩

def ofParts (seconds nanoseconds : Nat) : Duration := ⟨seconds * 1000000000 + nanoseconds⟩

def seconds (d : Duration) : Nat := d.nanoseconds / 1000000000

def subsecond (d : Duration) : Nat := d.nanoseconds % 1000000000

/-- The clock ticks once a millisecond, and a wait ends on the first tick that is not too early. -/
def ticks (d : Duration) : Nat := (d.nanoseconds + 999999) / 1000000

/-- The digits of `n < 10 ^ places` after a point, without trailing zeros. -/
def fraction (n places : Nat) : String :=
  if n = 0 then ""
  else
    let digits := (List.replicate (places - n.repr.length) '0' ++ n.repr.toList).reverse
    "." ++ String.ofList (digits.dropWhile (· == '0')).reverse

/-- In the largest unit of which there is at least one. -/
def render (d : Duration) : String :=
  if 1000000000 ≤ d.nanoseconds then d.seconds.repr ++ fraction d.subsecond 9 ++ "s"
  else if 1000000 ≤ d.nanoseconds then
    (d.nanoseconds / 1000000).repr ++ fraction (d.nanoseconds % 1000000) 6 ++ "ms"
  else if 1000 ≤ d.nanoseconds then
    (d.nanoseconds / 1000).repr ++ fraction (d.nanoseconds % 1000) 3 ++ "µs"
  else d.nanoseconds.repr ++ "ns"

end Duration

end Courier
