import Mathlib.Data.Int.Basic

/-!
# Go's clock

A `time.Time` is the `Int` number of nanoseconds since Go's zero time, so `IsZero` is `t = 0`, and
`Before` and `After` are `<` and `>`. A `time.Duration` is a 64-bit count of nanoseconds: `sub`
saturates.
-/

namespace GoTime

def second : Int := 1000000000
def minDuration : Int := -9223372036854775808
def maxDuration : Int := 9223372036854775807

def sub (t u : Int) : Int := max minDuration (min maxDuration (t - u))

/-- `t.Truncate(d)`: rounds down to a multiple of `d` since the zero time. -/
def truncate (t : Int) (d : Int) : Int := t - t % d

end GoTime
