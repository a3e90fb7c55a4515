import Mathlib.Data.Nat.Log
import Mathlib.Data.BitVec

/-!
# Binary64 numbers

The bit patterns of IEEE 754 binary64, their partial order (NaN is
unordered and both zeros are equal) and correctly rounded decimal input.
-/

namespace DaemonEye

structure Binary64 where
  bits : BitVec 64
deriving DecidableEq

namespace Binary64

def isNegative (x : Binary64) : Bool := x.bits.msb

/-- The bits below the sign: exponent and fraction, ordered like the magnitude. -/
def magnitude (x : Binary64) : Nat := x.bits.toNat % 2 ^ 63

def infinityMagnitude : Nat := 2047 * 2 ^ 52

def isNaN (x : Binary64) : Bool := decide (infinityMagnitude < x.magnitude)

def infinity : Binary64 := ⟨BitVec.ofNat 64 infinityMagnitude⟩

def nan : Binary64 := ⟨BitVec.ofNat 64 (infinityMagnitude + 2 ^ 51)⟩

def neg (x : Binary64) : Binary64 := ⟨x.bits ^^^ BitVec.ofNat 64 (2 ^ 63)⟩

def orderKey (x : Binary64) : Int := if x.isNegative then -(x.magnitude : Int) else x.magnitude

/-- `f64::partial_cmp`. -/
def partialCmp (x y : Binary64) : Option Ordering :=
  if x.isNaN || y.isNaN then none else some (compare x.orderKey y.orderKey)

/-! ## Decimal input -/

/-- The binary64 nearest to `num / den`, ties to even. -/
def ofRatio (num den : Nat) : Binary64 :=
  if num = 0 then ⟨0⟩
  else
    let k₀ : Int := (Nat.log2 num : Int) - Nat.log2 den - 52
    let short : Bool := if 0 ≤ k₀ then num < den * 2 ^ (k₀.toNat + 52) else num * 2 ^ (-k₀).toNat < den * 2 ^ 52
    let k : Int := max (if short then k₀ - 1 else k₀) (-1074)
    let n := if 0 ≤ k then num else num * 2 ^ (-k).toNat
    let d := if 0 ≤ k then den * 2 ^ k.toNat else den
    let q := n / d
    let r := n % d
    let up := if 2 * r > d ∨ (2 * r = d ∧ q % 2 = 1) then q + 1 else q
    let (m, e) := if up = 2 ^ 53 then (2 ^ 52, k + 1) else (up, k)
    if e > 971 then infinity
    else if m < 2 ^ 52 then ⟨BitVec.ofNat 64 m⟩
    else ⟨BitVec.ofNat 64 ((e + 1075).toNat * 2 ^ 52 + (m - 2 ^ 52))⟩

def ofDecimal (m : Nat) (e : Int) : Binary64 :=
  if 0 ≤ e then ofRatio (m * 10 ^ e.toNat) 1 else ofRatio m (10 ^ (-e).toNat)

end Binary64

/-! ## Reading numbers -/

def digitsValue (cs : List Char) : Nat := cs.foldl (fun n c => 10 * n + (c.toNat - 48)) 0

def readDigits (cs : List Char) : Option Nat :=
  if cs ≠ [] ∧ cs.all Char.isDigit then some (digitsValue cs) else none

/-- `u64::from_str`: an optional plus sign and decimal digits in range. -/
def parseU64 (text : String) : Option UInt64 :=
  let read (cs : List Char) := (readDigits cs).bind fun n => if n < 2 ^ 64 then some (UInt64.ofNat n) else none
  match text.toList with
  | '+' :: cs => read cs
  | cs => read cs

/-- `i64::from_str`: an optional sign and decimal digits in range. -/
def parseI64 (text : String) : Option Int64 :=
  let read (cs : List Char) := (readDigits cs).bind fun n => if n < 2 ^ 63 then some (Int64.ofNat n) else none
  match text.toList with
  | '+' :: cs => read cs
  | '-' :: cs => (readDigits cs).bind fun n => if n ≤ 2 ^ 63 then some (-Int64.ofNat n) else none
  | cs => read cs

def readExponent : List Char → Option Int
  | '+' :: cs => (readDigits cs).map fun n => (n : Int)
  | '-' :: cs => (readDigits cs).map fun n => -(n : Int)
  | cs => (readDigits cs).map fun n => (n : Int)

/-- An unsigned decimal number: digits with an optional point, at least one
digit around it, and an optional exponent. -/
def readDecimal (cs : List Char) : Option (Nat × Int) :=
  let whole := cs.takeWhile Char.isDigit
  let rest := cs.dropWhile Char.isDigit
  let (fraction, tail) := match rest with
    | '.' :: r => (r.takeWhile Char.isDigit, r.dropWhile Char.isDigit)
    | r => ([], r)
  if whole = [] ∧ fraction = [] then none
  else
    let mantissa := digitsValue (whole ++ fraction)
    let shift : Int := -(fraction.length : Int)
    match tail with
    | [] => some (mantissa, shift)
    | c :: r => if c = 'e' ∨ c = 'E' then (readExponent r).map fun e => (mantissa, shift + e) else none

def readMagnitude (cs : List Char) : Option Binary64 :=
  let word := String.ofList (cs.map Char.toLower)
  if word = "inf" ∨ word = "infinity" then some .infinity
  else if word = "nan" then some .nan
  else (readDecimal cs).map fun p => .ofDecimal p.1 p.2

/-- `f64::from_str`. -/
def parseF64 (text : String) : Option Binary64 :=
  match text.toList with
  | '+' :: cs => readMagnitude cs
  | '-' :: cs => (readMagnitude cs).map .neg
  | cs => readMagnitude cs

end DaemonEye
