/-!
# Binary64 — floating-point numbers and their shortest decimal text

A finite number is `significand * 2 ^ exponent`.  Decimals are rounded to the nearest number, a
tie to the even significand.  The text of a number has the fewest digits that read back as it;
of the decimals with that many digits it is the nearest.
-/

namespace HtmlTemplate

/-- A double precision number.  Of a finite one the significand is below `2 ^ 53` and the exponent
at least `-1074`. -/
inductive Binary64 where
  | nan
  | infinite (negative : Bool)
  | finite (negative : Bool) (significand : Nat) (exponent : Int)
  deriving DecidableEq, Repr

namespace Binary64

/-! ## From decimals -/

/-- The quotient rounded to the nearest number, a tie to the even one. -/
def roundQuotient (num den : Nat) : Nat :=
  let q := num / den
  let r := num % den
  if 2 * r < den then q
  else if den < 2 * r then q + 1
  else if q % 2 = 0 then q else q + 1

/-- `num / den` as a quotient whose denominator took in `2 ^ e`. -/
def scaleDown (num den : Nat) (e : Int) : Nat × Nat :=
  if 0 ≤ e then (num, den <<< e.toNat) else (num <<< (-e).toNat, den)

/-- The number nearest to the positive quotient `num / den`. -/
def ofQuotient (negative : Bool) (num den : Nat) : Binary64 :=
  let least : Int := (num.log2 : Int) - den.log2 - 53
  let (n, d) := scaleDown num den least
  let e := max (if n / d < 1 <<< 53 then least else least + 1) (-1074)
  let (n, d) := scaleDown num den e
  let m := roundQuotient n d
  let (m, e) := if m = 1 <<< 53 then (1 <<< 52, e + 1) else (m, e)
  if 971 < e then infinite negative else finite negative m e

def zero (negative : Bool) : Binary64 := finite negative 0 (-1074)

/-- How many decimal digits a number has. -/
def digitCount (n : Nat) : Nat := (Nat.toDigits 10 n).length

/-- The number nearest to `digits * 10 ^ power`. -/
def ofDecimal (negative : Bool) (digits : Nat) (power : Int) : Binary64 :=
  let top := (digitCount digits : Int) + power
  if digits = 0 || top < -400 then zero negative
  else if 400 < top then infinite negative
  else if 0 ≤ power then ofQuotient negative (digits * Nat.pow 10 power.toNat) 1
  else ofQuotient negative digits (Nat.pow 10 (-power).toNat)

/-! ## To decimals -/

/-- The greatest `e` with `10 ^ e ≤ num / den`, for a positive quotient. -/
def decimalExponent (num den : Nat) : Int :=
  if den ≤ num then (digitCount (num / den) : Int) - 1 else -(digitCount ((den - 1) / num) : Int)

/-- The reals that round to one number, in units of a common denominator. -/
structure Interval where
  (low value high den : Nat)
  closed : Bool

/-- The reals that round to `m * 2 ^ e`.  Below a power of two the numbers lie twice as close. -/
def interval (m : Nat) (e : Int) : Interval :=
  let below := if m = 1 <<< 52 && -1074 < e then 1 else 2
  { low := (4 * m - below) <<< e.toNat
    value := (4 * m) <<< e.toNat
    high := (4 * m + 2) <<< e.toNat
    den := 4 <<< (-e).toNat
    closed := m % 2 == 0 }

/-- Whether `digits * 10 ^ power` lies in the interval. -/
def Interval.contains (i : Interval) (digits : Nat) (power : Int) : Bool :=
  let x := digits * Nat.pow 10 power.toNat * i.den
  let unit := Nat.pow 10 (-power).toNat
  if i.closed then i.low * unit ≤ x && x ≤ i.high * unit
  else i.low * unit < x && x < i.high * unit

/-- The digits of the decimal at `power` that lies in the interval and nearest to its value, of the
value's two neighbours on that grid. -/
def Interval.nearest? (i : Interval) (power : Int) : Option Nat :=
  let num := i.value * Nat.pow 10 (-power).toNat
  let den := i.den * Nat.pow 10 power.toNat
  let below := num / den
  match i.contains below power, i.contains (below + 1) power with
  | false, false => none
  | true, false => some below
  | false, true => some (below + 1)
  | true, true => some (roundQuotient num den)

/-- Tries one digit more at a time, `tries` being how many counts are left. -/
def Interval.shortestFrom (i : Interval) (top : Int) (count : Nat) : Nat → Nat × Int
  | 0 => (i.value / i.den, 0)
  | tries + 1 =>
    let power := top - count + 1
    match i.nearest? power with
    | some digits => (digits, power)
    | none => i.shortestFrom top (count + 1) tries

/-- The shortest decimal `digits * 10 ^ power` that reads back as `m * 2 ^ e`, for a positive
`m`. -/
def shortest (m : Nat) (e : Int) : Nat × Int :=
  let i := interval m e
  i.shortestFrom (decimalExponent i.value i.den) 1 17

/-! ## Text -/

/-- The digits without the zeros at their end, which go into the power. -/
def trimZeros (digits : List Char) : List Char :=
  match (digits.reverse.dropWhile (· == '0')).reverse with
  | [] => ['0']
  | trimmed => trimmed

def exponentText (e : Int) : String :=
  let size := Nat.toDigits 10 e.natAbs
  (if e < 0 then "e-" else "e+") ++ String.ofList (if size.length < 2 then '0' :: size else size)

/-- Positional notation for exponents from -4 to 15, with at least one digit on either side of the
point; scientific notation for all others. -/
def decimalText (digits : List Char) (exponent : Int) : String :=
  if exponent < -4 || 16 ≤ exponent then
    let fraction := digits.drop 1
    String.ofList (digits.take 1 ++ (if fraction.isEmpty then [] else '.' :: fraction)) ++
      exponentText exponent
  else if exponent < 0 then
    "0." ++ String.ofList (List.replicate ((-exponent).toNat - 1) '0' ++ digits)
  else
    let whole := exponent.toNat + 1
    let padded := digits ++ List.replicate (whole - digits.length) '0'
    let fraction := padded.drop whole
    String.ofList (padded.take whole ++ '.' :: (if fraction.isEmpty then ['0'] else fraction))

/-- The shortest text that reads back as the number. -/
def text : Binary64 → String
  | nan => "nan"
  | infinite negative => if negative then "-inf" else "inf"
  | finite negative m e =>
    let size :=
      if m = 0 then "0.0"
      else
        let (digits, power) := shortest m e
        let chars := Nat.toDigits 10 digits
        decimalText (trimZeros chars) (power + (chars.length : Int) - 1)
    if negative then "-" ++ size else size

/-- Whether the number is zero, of either sign. -/
def isZero : Binary64 → Bool
  | finite _ m _ => m == 0
  | _ => false

/-- The integer that the number is, if it is one. -/
def toInt? : Binary64 → Option Int
  | finite negative m e =>
    let size : Option Nat :=
      if 0 ≤ e then some (m <<< e.toNat)
      else
        let whole := m >>> (-e).toNat
        if whole <<< (-e).toNat = m then some whole else none
    size.map fun (n : Nat) => if negative then -(n : Int) else n
  | _ => none

/-- Equality as numbers: zeros of both signs agree, and what is not a number equals nothing. -/
def same : Binary64 → Binary64 → Bool
  | nan, _ => false
  | _, nan => false
  | a, b => a == b || (a.isZero && b.isZero)

/-! ## Reading -/

/-- A run of digits, appended to those in `acc`, and the rest. -/
def readDigits (acc : List Char) : List Char → List Char × List Char
  | c :: cs => if c.isDigit then readDigits (acc ++ [c]) cs else (acc, c :: cs)
  | [] => (acc, [])

def digitsValue (digits : List Char) : Nat :=
  digits.foldl (fun n c => 10 * n + (c.toNat - 0x30)) 0

/-- The exponent after its mark: an optional sign and digits up to the end. -/
def readExponent : List Char → Option Int
  | '-' :: cs => size cs |>.map fun n => -(n : Int)
  | '+' :: cs => size cs |>.map fun n => (n : Int)
  | cs => size cs |>.map fun n => (n : Int)
where
  size (cs : List Char) : Option Nat :=
    if !cs.isEmpty && cs.all Char.isDigit then some (digitsValue cs) else none

def readUnsigned (negative : Bool) (cs : List Char) : Option Binary64 :=
  match String.ofList (cs.map Char.toLower) with
  | "inf" | "infinity" => some (infinite negative)
  | "nan" => some nan
  | _ =>
    let (whole, rest) := readDigits [] cs
    let (all, rest) :=
      match rest with
      | '.' :: rest => readDigits whole rest
      | rest => (whole, rest)
    let places : Int := (all.length : Int) - whole.length
    if all.isEmpty then none
    else
      let decimal (e : Int) := ofDecimal negative (digitsValue all) (e - places)
      match rest with
      | [] => some (decimal 0)
      | c :: rest => if c == 'e' || c == 'E' then (readExponent rest).map decimal else none

/-- Reads a decimal, with or without sign, point and exponent, or the name of a special value. -/
def ofText? (s : String) : Option Binary64 :=
  match s.toList with
  | '-' :: cs => readUnsigned true cs
  | '+' :: cs => readUnsigned false cs
  | cs => readUnsigned false cs

end Binary64
end HtmlTemplate
