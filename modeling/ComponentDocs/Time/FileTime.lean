import ComponentDocs.Decimal.Shortest
import ComponentDocs.Time.Calendar

/-!
# File times

The moment at which a file was last changed.  It is kept as a double of seconds and shown rounded
to whole microseconds, so a time given in nanoseconds loses its last digits.
-/

namespace ComponentDocs.FileTime

/-- The seconds of a number of nanoseconds, as a double. -/
def seconds (nanoseconds : Int) : Float :=
  Float.ofInt (nanoseconds.fdiv 1000000000) +
    1e-9 * Float.ofInt (nanoseconds.fmod 1000000000)

/-- The whole number nearest to `num / den`, the even one on a tie. -/
def roundHalfEven (num den : Nat) : Nat :=
  let q := num / den
  let rest := 2 * (num % den)
  if rest < den || (rest == den && q % 2 == 0) then q else q + 1

/-- The microseconds of a double of seconds: whole seconds exactly, and the rest scaled as a
double and then rounded. -/
def microseconds (x : Float) : Int :=
  match Decimal.Parts.ofFloat x with
  | .finite negative m q =>
    let (num, den) := Decimal.powerOfTwo q
    let whole := m * num / den
    let rest := Float.ofInt (m * num % den : Nat) / Float.ofInt den
    let scaled := match Decimal.Parts.ofFloat (rest * 1e6) with
      | .finite _ m q =>
        let (num, den) := Decimal.powerOfTwo q
        roundHalfEven (m * num) den
      | _ => 0
    let n : Int := (whole * 1000000 + scaled : Nat)
    if negative then -n else n
  | _ => 0

/-- The moment of a file time in nanoseconds since the start of the year 1970. -/
def moment (nanoseconds : Int) : Except CalendarError DateTime :=
  Calendar.ofUnixMicroseconds (microseconds (seconds nanoseconds))

end ComponentDocs.FileTime
