/-
A time in seconds with two places.

The milliseconds are turned into a binary fraction first, whole seconds and the rest apart, and it is
that fraction which is rounded: to the nearest hundredth, an exact tie going to the even one. So five
milliseconds are 0.01 seconds, being slightly more than half a hundredth, and fifteen are 0.01 too.
-/
namespace SnippetLint.Seconds

/-- A quotient rounded to the nearest whole number, a tie to the even one. -/
def roundHalfEven (numerator denominator : Nat) : Nat :=
  let whole := numerator / denominator
  let twice := 2 * (numerator % denominator)
  if twice < denominator then whole
  else if denominator < twice then whole + 1
  else whole + whole % 2

/-- The hundredths that are nearest to a binary fraction, which is not negative. -/
def hundredths (x : Float) : Nat :=
  let bits := x.toBits.toNat
  let exponent := bits / Nat.pow 2 52 % Nat.pow 2 11
  let fraction := bits % Nat.pow 2 52
  let mantissa := if exponent = 0 then fraction else fraction + Nat.pow 2 52
  let scale := max exponent 1
  roundHalfEven (100 * mantissa * Nat.pow 2 (scale - 1075)) (Nat.pow 2 (1075 - scale))

/-- Milliseconds as a binary fraction of seconds. -/
def ofMilliseconds (milliseconds : Nat) : Float :=
  Float.ofNat (milliseconds / 1000) + Float.ofNat (milliseconds % 1000 * 1000000) / Float.ofNat 1000000000

/-- A number of hundredths, written with a point. -/
def display (hundredths : Nat) : String :=
  let places := hundredths % 100
  toString (hundredths / 100) ++ "." ++ toString (places / 10) ++ toString (places % 10)

/-- Milliseconds as seconds with two places. -/
def render (milliseconds : Nat) : String := display (hundredths (ofMilliseconds milliseconds))

end SnippetLint.Seconds
