/-!
# Shortest decimal text of a binary fraction

A finite double `m · 2 ^ q` is written with the fewest digits that read back as the same number;
of the decimals with that many digits the nearest is taken, and on a tie the even one.  All
arithmetic is exact, on natural numbers.
-/

namespace ComponentDocs.Decimal

/-- A power of two. -/
def twoTo (n : Nat) : Nat := Nat.pow 2 n

/-- A power of ten. -/
def tenTo (n : Nat) : Nat := Nat.pow 10 n

/-- A double taken apart. -/
inductive Parts where
  | nan
  | infinite (negative : Bool)
  /-- The number `mantissa * 2 ^ exponent`, with its sign. -/
  | finite (negative : Bool) (mantissa : Nat) (exponent : Int)

/-- Takes a double apart. -/
def Parts.ofFloat (x : Float) : Parts :=
  let bits := x.toBits.toNat
  let negative := bits / twoTo 63 == 1
  let field := bits / twoTo 52 % twoTo 11
  let fraction := bits % twoTo 52
  if field == 2047 then if fraction == 0 then .infinite negative else .nan
  else if field == 0 then .finite negative fraction (-1074)
  else .finite negative (twoTo 52 + fraction) (Int.ofNat field - 1075)

/-- The power of two with the given exponent as a fraction: numerator and denominator. -/
def powerOfTwo (q : Int) : Nat × Nat := if 0 ≤ q then (twoTo q.toNat, 1) else (1, twoTo (-q).toNat)

/-- The number of decimal digits; zero has none. -/
def digitCount (n : Nat) : Nat := if n = 0 then 0 else (Nat.toDigits 10 n).length

/-- The greatest `k` such that `10 ^ k` is at most the positive fraction `num / den`. -/
def log10Floor (num den : Nat) : Int :=
  if den ≤ num then Int.ofNat (digitCount (num / den)) - 1
  else
    -- the least `j` with `den ≤ num * 10 ^ j`
    -Int.ofNat (digitCount ((den + num - 1) / num - 1))

/-- The fraction `num / den` divided by `10 ^ k`. -/
def scaleDown (num den : Nat) (k : Int) : Nat × Nat :=
  if 0 ≤ k then (num, den * tenTo k.toNat) else (num * tenTo (-k).toNat, den)

/-- A decimal `digits * 10 ^ exponent`. -/
structure Numeral where
  digits : Nat
  exponent : Int

/-- The interval of the numbers that read back as `m · 2 ^ q`, as the numerators of its ends and
of the number itself over a common denominator, and whether the ends belong to it. -/
structure Interval where
  low : Nat
  value : Nat
  high : Nat
  den : Nat
  closed : Bool

/-- The interval of a double.  Below a power of two the gap to the next number is half as wide. -/
def Interval.of (m : Nat) (q : Int) : Interval :=
  let (num, den) := powerOfTwo (q - 2)
  let narrow := m == twoTo 52 && -1074 < q
  { low := (4 * m - if narrow then 1 else 2) * num
    value := 4 * m * num
    high := (4 * m + 2) * num
    den := den
    closed := m % 2 == 0 }

/-- Whether `digits * 10 ^ exponent` reads back as the number of the interval. -/
def Interval.holds (i : Interval) (d : Numeral) : Bool :=
  let (num, den) :=
    if 0 ≤ d.exponent then (d.digits * tenTo d.exponent.toNat * i.den, 1)
    else (d.digits * i.den, tenTo (-d.exponent).toNat)
  if i.closed then i.low * den ≤ num && num ≤ i.high * den
  else i.low * den < num && num < i.high * den

/-- The best decimal of the interval on the grid with the given exponent, if one lies in it. -/
def Interval.best? (i : Interval) (exponent : Int) : Option Numeral :=
  let (num, den) := scaleDown i.value i.den exponent
  let below : Numeral := ⟨num / den, exponent⟩
  let above : Numeral := ⟨num / den + 1, exponent⟩
  let rest := 2 * (num % den)
  match i.holds below, i.holds above with
  | true, true =>
    if rest < den || (rest == den && below.digits % 2 == 0) then some below else some above
  | true, false => some below
  | false, true => some above
  | false, false => none

/-- The first of the grids with `n`, `n + 1`, … digits that holds a decimal of the interval. -/
def Interval.shortest (i : Interval) (top : Int) : Nat → Nat → Numeral
  | 0, n => ⟨0, top - n⟩
  | fuel + 1, n => (i.best? (top + 1 - Int.ofNat n)).getD (i.shortest top fuel (n + 1))

/-- The shortest decimal of a positive double; seventeen digits are always enough. -/
def shortest (m : Nat) (q : Int) : Numeral :=
  let i := Interval.of m q
  i.shortest (log10Floor i.value i.den) 17 1

/-- The digits of a decimal as text, without trailing zeros, and the number of digits before the
decimal point. -/
def Numeral.layout (d : Numeral) : List Char × Int :=
  let digits := Nat.toDigits 10 d.digits
  let kept := (digits.reverse.dropWhile (· == '0')).reverse
  (if kept.isEmpty then ['0'] else kept, Int.ofNat digits.length + d.exponent)

/-- The exponent part of a number in scientific notation: sign and at least two digits. -/
def exponentText (e : Int) : String :=
  let digits := Nat.repr e.natAbs
  (if e < 0 then "e-" else "e+") ++ (if digits.length < 2 then "0" else "") ++ digits

/-- Digits with the decimal point after the given number of them: positional from `0.0001` up to
below `10 ^ 16`, with at least one digit after the point, and scientific outside. -/
def positioned (digits : List Char) (point : Int) : String :=
  if -4 < point && point ≤ 16 then
    if point ≤ 0 then
      "0." ++ String.ofList (List.replicate (-point).toNat '0' ++ digits)
    else
      let n := point.toNat
      let whole := digits.take n ++ List.replicate (n - digits.length) '0'
      let fraction := digits.drop n
      String.ofList whole ++ "." ++ (if fraction.isEmpty then "0" else String.ofList fraction)
  else
    let fraction := digits.drop 1
    String.ofList (digits.take 1) ++ (if fraction.isEmpty then "" else "." ++ String.ofList fraction) ++
      exponentText (point - 1)

/-- The text of a double: the shortest that reads back. -/
def text (x : Float) : String :=
  match Parts.ofFloat x with
  | .nan => "nan"
  | .infinite negative => if negative then "-inf" else "inf"
  | .finite negative m q =>
    let sign := if negative then "-" else ""
    if m == 0 then sign ++ "0.0"
    else
      let (digits, point) := (shortest m q).layout
      sign ++ positioned digits point

/-- The double nearest to `mantissa * 10 ^ exponent`.  Exponents far outside the range of doubles
decide the result by themselves. -/
def nearest (mantissa : Nat) (exponent : Int) : Float :=
  if mantissa == 0 then 0
  else
    let top := Int.ofNat (digitCount mantissa) + exponent
    if 400 < top then 1.0 / 0.0
    else if top < -400 then 0
    else if 0 ≤ exponent then Float.ofScientific (mantissa * tenTo exponent.toNat) false 0
    else Float.ofScientific mantissa true (-exponent).toNat

end ComponentDocs.Decimal
