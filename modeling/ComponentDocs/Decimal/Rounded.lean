import ComponentDocs.Decimal.Shortest

/-!
# Rounded decimal text

Numbers with a stated count of decimal places or of significant digits.  The exact value is
rounded to the nearest decimal on the grid, and a tie goes to the even one.
-/

namespace ComponentDocs.Decimal

/-- The natural number nearest to `num / den`; a tie goes to the even one. -/
def roundDiv (num den : Nat) : Nat :=
  let rest := 2 * (num % den)
  let below := num / den
  if rest < den || (rest == den && below % 2 == 0) then below else below + 1

/-- Digits around a decimal point; without digits after it the point is shown only on demand. -/
def pointed (whole fraction : List Char) (point : Bool) : String :=
  String.ofList (whole ++ (if fraction.isEmpty && !point then [] else '.' :: fraction))

/-- Leading zeros up to the given number of digits. -/
def padZeros (width : Nat) (digits : List Char) : List Char :=
  List.replicate (width - digits.length) '0' ++ digits

/-- The fraction `num / den` with the given number of decimal places. -/
def fixedText (num den places : Nat) (point : Bool) : String :=
  let digits := padZeros (places + 1) (Nat.toDigits 10 (roundDiv (num * tenTo places) den))
  pointed (digits.take (digits.length - places)) (digits.drop (digits.length - places)) point

/-- The fraction `num / den` rounded to the given number of significant digits, which is positive;
the exponent is that of the first digit. -/
def significant (num den count : Nat) : List Char × Int :=
  if num == 0 then (List.replicate count '0', 0)
  else
    let top := log10Floor num den
    let (n, d) := scaleDown num den (top + 1 - Int.ofNat count)
    let rounded := roundDiv n d
    if rounded == tenTo count then (Nat.toDigits 10 (rounded / 10), top + 1)
    else (Nat.toDigits 10 rounded, top)

/-- The digits without the zeros at their end. -/
def dropZeros (digits : List Char) : List Char := (digits.reverse.dropWhile (· == '0')).reverse

/-- The fraction `num / den` in scientific notation with the given number of digits after the
point. -/
def scientificText (num den places : Nat) (point : Bool) : String :=
  let (digits, exponent) := significant num den (places + 1)
  pointed (digits.take 1) (digits.drop 1) point ++ exponentText exponent

/-- The fraction `num / den` with the given number of significant digits, positional where its
first digit stands at most four places after the point or within the digits; zeros at the end of
the fraction are kept on demand, together with the point. -/
def generalText (num den count : Nat) (keep : Bool) : String :=
  let (digits, exponent) := significant num den count
  let trim (fraction : List Char) := if keep then fraction else dropZeros fraction
  if -4 ≤ exponent && exponent < Int.ofNat count then
    if exponent < 0 then
      pointed ['0'] (trim (List.replicate (-exponent - 1).toNat '0' ++ digits)) keep
    else
      let n := exponent.toNat + 1
      pointed (digits.take n) (trim (digits.drop n)) keep
  else pointed (digits.take 1) (trim (digits.drop 1)) keep ++ exponentText exponent

end ComponentDocs.Decimal
