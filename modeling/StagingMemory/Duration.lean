/-!
Spans of time in nanoseconds, and their text: the number in the largest unit that leaves a whole
part, with as many decimals as it needs.
-/
namespace StagingMemory

structure Duration where
  nanoseconds : Nat
  deriving DecidableEq, Repr

namespace Duration

def perSecond : Nat := 1000000000

def ofMicroseconds (n : Nat) : Duration := ⟨n * 1000⟩

def ofMilliseconds (n : Nat) : Duration := ⟨n * 1000000⟩

def ofSeconds (n : Nat) : Duration := ⟨n * perSecond⟩

def parts (d : Duration) : Nat × Nat :=
  (d.nanoseconds / perSecond, d.nanoseconds % perSecond)

def isZero (d : Duration) : Bool := d.nanoseconds == 0

def lastDigits : (places : Nat) → Nat → List Char
  | 0, _ => []
  | places + 1, n => lastDigits places (n / 10) ++ [Nat.digitChar (n % 10)]

def significant (digits : List Char) : List Char :=
  (digits.reverse.dropWhile (· == '0')).reverse

/-- The decimal with the digits of `n` and `places` of them after the point, without the zeros at
its end. -/
def renderDecimal (n places : Nat) : String :=
  let fraction := significant (lastDigits places (n % Nat.pow 10 places))
  toString (n / Nat.pow 10 places) ++
    (if fraction.isEmpty then "" else "." ++ String.ofList fraction)

def render (d : Duration) : String :=
  if perSecond ≤ d.nanoseconds then renderDecimal d.nanoseconds 9 ++ "s"
  else if 1000000 ≤ d.nanoseconds then renderDecimal d.nanoseconds 6 ++ "ms"
  else if 1000 ≤ d.nanoseconds then renderDecimal d.nanoseconds 3 ++ "µs"
  else renderDecimal d.nanoseconds 0 ++ "ns"

end Duration
end StagingMemory
