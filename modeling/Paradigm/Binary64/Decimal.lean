/-
Module: Paradigm.Binary64.Decimal
Layer: Data
Purpose: Decimal text of floating-point numbers. Writing takes the fewest digits that read back
  as the same number, and of those the nearest; two layouts place the point. Reading takes a sign,
  digits with an optional point and exponent, or the words for infinity and NaN, and rounds to the
  nearest number.
Imports: Paradigm.Binary64
Main exports: Binary64.Digits, Binary64.shortest, Binary64.plainText, Binary64.documentText,
  Binary64.ofText?
-/
import Paradigm.Binary64

namespace Paradigm.Binary64

/-! ### The fewest digits -/

/-- Decimal digits without trailing zeros, and where the point stands: `digits` read after
`0.` times ten to the power `point`. -/
structure Digits where
  digits : List Char
  point : Int
deriving DecidableEq, Repr

/-- How many decimal digits a natural number has; none for zero. -/
def digitCount (n : Nat) : Nat := if n = 0 then 0 else (Nat.toDigits 10 n).length

/-- The power of ten just at or below a positive magnitude. -/
def decimalExponent (u : Nat) : Int :=
  if unitsPerOne ≤ u then (digitCount (u / unitsPerOne) : Int) - 1
  else -(digitCount ((unitsPerOne + u - 1) / u - 1) : Int)

/-- The reals that round to a magnitude, in quarter units: their ends, and whether the ends
themselves round to it. -/
structure Interval where
  low : Nat
  high : Nat
  closed : Bool

/-- The interval of a positive finite number. Below a power of two the numbers are half as far
apart, so the lower end is half as far away. -/
def interval (x : Binary64) : Interval :=
  let gap := Nat.pow 2 (x.exponent.val - 1)
  let below := if x.fraction.val = 0 && 1 < x.exponent.val then gap else 2 * gap
  { low := 4 * x.units - below
    high := 4 * x.units + 2 * gap
    closed := x.fraction.val % 2 == 0 }

/-- Whether `c · 10^k` lies in the interval. -/
def Interval.holds (i : Interval) (c : Nat) (k : Int) : Bool :=
  let num := c * Nat.pow 10 k.toNat * (4 * unitsPerOne)
  let den := Nat.pow 10 (-k).toNat
  if i.closed then i.low * den ≤ num && num ≤ i.high * den
  else i.low * den < num && num < i.high * den

/-- The number with `count` digits that reads back as a magnitude, if there is one: of the two
neighbours on that grid the one inside the interval, the nearer if both are. -/
def onGrid (u : Nat) (i : Interval) (count : Nat) : Option (Nat × Int) :=
  let k := decimalExponent u - count + 1
  let num := u * Nat.pow 10 (-k).toNat
  let den := unitsPerOne * Nat.pow 10 k.toNat
  let below := num / den
  let rest := num % den
  let first := if 2 * rest < den || (2 * rest == den && below % 2 == 0) then below else below + 1
  let second := if first = below then below + 1 else below
  if i.holds first k then some (first, k)
  else if i.holds second k then some (second, k)
  else none

/-- Drops the zeros at the end of a digit sequence. -/
def trimZeros (ds : List Char) : List Char :=
  (ds.reverse.dropWhile (· == '0')).reverse

/-- The shortest digits of a positive finite number. Seventeen digits always suffice. -/
def shortest (x : Binary64) : Digits :=
  match (List.range 17).findSome? fun n => onGrid x.units x.interval (n + 1) with
  | some (c, k) =>
      let ds := Nat.toDigits 10 c
      { digits := trimZeros ds, point := ds.length + k }
  | none => { digits := [], point := 0 }

/-! ### Layouts -/

/-- Digits around the point: zeros fill up to the point or after it. The flag asks for `.0`
behind a whole number. -/
def positional (d : Digits) (keepPoint : Bool) : String :=
  let count : Int := d.digits.length
  if d.point ≤ 0 then
    "0." ++ String.ofList (List.replicate (-d.point).toNat '0' ++ d.digits)
  else if count ≤ d.point then
    String.ofList (d.digits ++ List.replicate (d.point - count).toNat '0')
      ++ (if keepPoint then ".0" else "")
  else
    String.ofList (d.digits.take d.point.toNat) ++ "."
      ++ String.ofList (d.digits.drop d.point.toNat)

/-- One digit before the point and a signed power of ten. -/
def scientific (d : Digits) : String :=
  let power := d.point - 1
  let mantissa := match d.digits with
    | [] => "0"
    | [c] => String.ofList [c]
    | c :: rest => String.ofList (c :: '.' :: rest)
  mantissa ++ "e" ++ (if power < 0 then "-" else "+") ++ toString power.natAbs

/-- The sign of a number as text. -/
def signText (x : Binary64) : String := if x.negative then "-" else ""

/-- Always positional, without a point behind whole numbers: the form used in messages. -/
def plainText (x : Binary64) : String :=
  if x.isNaN then "NaN"
  else if !x.isFinite then x.signText ++ "inf"
  else if x.isZero then x.signText ++ "0"
  else x.signText ++ positional x.shortest false

/-- Positional from `0.00001` up to below `10^16` with `.0` behind whole numbers, and with a
power of ten outside: the form used in documents, where a number has to be finite. -/
def documentText (x : Binary64) : String :=
  if x.isZero then x.signText ++ "0.0"
  else
    let d := x.shortest
    x.signText ++ (if -5 < d.point && d.point ≤ 16 then positional d true else scientific d)

/-! ### Reading -/

/-- The value of decimal digits. -/
def digitsValue (ds : List Char) : Nat :=
  ds.foldl (fun n c => 10 * n + (c.toNat - '0'.toNat)) 0

/-- The number nearest to `mantissa · 10^power`. Far outside the range the answer is infinity or
zero whatever the exact power. -/
def ofDecimal (negative : Bool) (mantissa : Nat) (power : Int) : Binary64 :=
  let magnitude : Int := digitCount mantissa + power
  if mantissa = 0 || magnitude < -400 then zero negative
  else if 400 < magnitude then infinity negative
  else ofRatio negative (mantissa * Nat.pow 10 power.toNat) (Nat.pow 10 (-power).toNat)

/-- Takes an optional sign: whether it is a minus, and what follows it. -/
def takeSign : List Char → Bool × List Char
  | '+' :: rest => (false, rest)
  | '-' :: rest => (true, rest)
  | rest => (false, rest)

theorem length_takeSign_le (cs : List Char) : (takeSign cs).2.length ≤ cs.length := by
  unfold takeSign
  split <;> simp

/-- Reads the exponent behind the letter `e`. -/
def exponentOf? (cs : List Char) : Option Int :=
  let signed := takeSign cs
  if signed.2.isEmpty || !signed.2.all Char.isDigit then none
  else
    let n := digitsValue signed.2
    some (if signed.1 then -(n : Int) else n)

/-- Reads digits with an optional point and exponent. At least one digit stands before or after
the point. -/
def unsigned? (negative : Bool) (cs : List Char) : Option Binary64 :=
  let whole := cs.takeWhile Char.isDigit
  let afterWhole := cs.dropWhile Char.isDigit
  let pointed := match afterWhole with
    | '.' :: rest => (rest.takeWhile Char.isDigit, rest.dropWhile Char.isDigit)
    | rest => ([], rest)
  if whole.isEmpty && pointed.1.isEmpty then none
  else
    let mantissa := digitsValue (whole ++ pointed.1)
    let places : Int := pointed.1.length
    match pointed.2 with
    | [] => some (ofDecimal negative mantissa (-places))
    | c :: rest =>
        if c == 'e' || c == 'E' then
          (exponentOf? rest).map fun power => ofDecimal negative mantissa (power - places)
        else none

/-- Reads a number: an optional sign, then the word `inf`, `infinity` or `nan` in any case, or
decimal digits. -/
def ofText? (text : String) : Option Binary64 :=
  let signed := takeSign text.toList
  let word := String.ofList (signed.2.map Char.toLower)
  if word == "inf" || word == "infinity" then some (infinity signed.1)
  else if word == "nan" then some { nan with negative := signed.1 }
  else unsigned? signed.1 signed.2

/-! ### Examples -/

/-- A tenth needs one digit and the number after one needs seventeen. -/
example : (ofText? "0.1").map plainText = some "0.1"
    ∧ (ofText? "1.0000000000000002").map plainText = some "1.0000000000000002"
    ∧ (ofText? "1e16").map documentText = some "1e+16"
    ∧ (ofText? "1e-5").map documentText = some "0.00001" := by decide +kernel

end Paradigm.Binary64
