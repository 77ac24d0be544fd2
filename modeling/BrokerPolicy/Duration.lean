import BrokerPolicy.Text.Characters

set_option autoImplicit false

namespace BrokerPolicy

structure Duration where
  seconds : UInt64
  nanos : Fin 1000000000
deriving DecidableEq

namespace Duration

def ofSeconds (s : UInt64) : Duration := ⟨s, 0⟩

def ofMillis (ms : Nat) : Duration :=
  ⟨UInt64.ofNat (ms / 1000), ⟨ms % 1000 * 1000000, by omega⟩⟩

def isZero (d : Duration) : Bool := d.seconds == 0 && d.nanos == 0

/-- The part of a millisecond that is left is cut off. -/
def wholeMillis (d : Duration) : Nat := d.seconds.toNat * 1000 + d.nanos / 1000000

def word? (n : Nat) : Option UInt64 :=
  if n < UInt64.size then some (UInt64.ofNat n) else none

/-- Whole milliseconds where they fit 64 bits, else the largest number that does. -/
def millis (d : Duration) : Nat :=
  ((word? d.wholeMillis).getD (UInt64.ofNat (UInt64.size - 1))).toNat

/-- Seconds are compared first, and nanoseconds where they agree. -/
def reaches (d bound : Duration) : Bool :=
  bound.seconds < d.seconds || (bound.seconds == d.seconds && bound.nanos ≤ d.nanos)

/-- The largest unit of which there is at least one, with the rest as a fraction. -/
def text (d : Duration) : String :=
  let n := d.nanos.val
  if 0 < d.seconds.toNat then toString d.seconds.toNat ++ Text.fractionText n 9 ++ "s"
  else if 1000000 ≤ n then toString (n / 1000000) ++ Text.fractionText (n % 1000000) 6 ++ "ms"
  else if 1000 ≤ n then toString (n / 1000) ++ Text.fractionText (n % 1000) 3 ++ "µs"
  else toString n ++ "ns"

end Duration

end BrokerPolicy
