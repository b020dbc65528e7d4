import TestCatalog.Text.Basic

/-!
# Decimal numerals of measured quantities

Sizes and rates are measured as binary numbers of 53 significant bits and written with a fixed
number of decimal places. Both roundings go to the nearest value and from a tie to the even one.
-/

namespace TestCatalog

/-- A quotient of natural numbers; the quotient by zero counts as zero. -/
structure Ratio where
  num : Nat
  den : Nat

namespace Ratio

/-- The natural number nearest to `num / den`; a tie goes to the even neighbour. -/
def roundDiv (num den : Nat) : Nat :=
  let quotient := num / den
  let rest := num % den
  if 2 * rest < den then quotient
  else if den < 2 * rest then quotient + 1
  else quotient + quotient % 2

/-- `num / den` times two to the power `-exponent`. -/
def scale (x : Ratio) (exponent : Int) : Ratio :=
  match exponent with
  | .ofNat e => ⟨x.num, x.den * Nat.pow 2 e⟩
  | .negSucc e => ⟨x.num * Nat.pow 2 (e + 1), x.den⟩

/-- The nearest number with at most 53 significant bits. -/
def toBinary (x : Ratio) : Ratio :=
  if x.num = 0 ∨ x.den = 0 then ⟨0, 1⟩
  else
    let guess : Int := (Nat.log2 x.num : Int) - (Nat.log2 x.den : Int) - 52
    let scaled := x.scale guess
    let exponent := if scaled.num < Nat.pow 2 52 * scaled.den then guess - 1 else guess
    let scaled := x.scale exponent
    (⟨roundDiv scaled.num scaled.den, 1⟩ : Ratio).scale (-exponent)

def ofNat (n : Nat) : Ratio :=
  toBinary ⟨n, 1⟩

instance : Add Ratio := ⟨fun x y => toBinary ⟨x.num * y.den + y.num * x.den, x.den * y.den⟩⟩

instance : Mul Ratio := ⟨fun x y => toBinary ⟨x.num * y.num, x.den * y.den⟩⟩

instance : Div Ratio := ⟨fun x y => toBinary ⟨x.num * y.den, x.den * y.num⟩⟩

/-- The numeral with exactly `places` decimal places. -/
def fixed (places : Nat) (x : Ratio) : Text :=
  let unit := Nat.pow 10 places
  let units := roundDiv (x.num * unit) x.den
  let fraction := Text.ofNat (units % unit)
  Text.ofNat (units / unit) ++ "." ++
    List.replicate (places - fraction.length) '0' ++ fraction

end Ratio

/-- The measured rate of `part` in `whole`, zero for an empty whole. -/
def rate (part whole : Nat) : Ratio :=
  Ratio.ofNat part / Ratio.ofNat whole

/-- A duration in seconds: whole seconds and their fraction are measured apart and added. -/
def seconds (milliseconds : Nat) : Ratio :=
  Ratio.ofNat (milliseconds / 1000) + Ratio.ofNat (milliseconds % 1000) / Ratio.ofNat 1000

/-- A size in the largest unit that leaves at least one, up to gigabytes of 1024 megabytes. -/
def humanSize (bytes : Nat) : Text :=
  let size := Ratio.ofNat bytes
  let reaches (unit : Nat) : Bool := unit * size.den ≤ size.num
  if reaches 1073741824 then (size / Ratio.ofNat 1073741824).fixed 2 ++ " GB"
  else if reaches 1048576 then (size / Ratio.ofNat 1048576).fixed 2 ++ " MB"
  else if reaches 1024 then (size / Ratio.ofNat 1024).fixed 2 ++ " KB"
  else Text.ofNat bytes ++ " B"

end TestCatalog
