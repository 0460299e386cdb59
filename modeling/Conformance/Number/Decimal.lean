import Conformance.Number.Binary64

namespace Conformance

structure Decimal where
  negative : Bool
  digits : Nat
  scale : Int
  deriving DecidableEq

namespace Decimal

def toBinary (d : Decimal) : Binary64 :=
  if 0 ≤ d.scale then .ofRatio d.negative (d.digits * Nat.pow 10 d.scale.toNat) 1
  else .ofRatio d.negative d.digits (Nat.pow 10 (-d.scale).toNat)

def digitCount (n : Nat) : Nat := (Nat.toDigits 10 n).length

def leadingExponent (num den : Nat) : Int :=
  if den ≤ num then (digitCount (num / den) : Int) - 1
  else
    let d := digitCount (den / num)
    if num * Nat.pow 10 (d - 1) == den then 1 - (d : Int) else -(d : Int)

def dropZeros : Nat → Nat → Int → Nat × Int
  | 0, n, e => (n, e)
  | fuel + 1, n, e => if n != 0 && n % 10 == 0 then dropZeros fuel (n / 10) (e + 1) else (n, e)

/-- What reads back as one binary number: the number itself and the ends of the interval of
rationals nearest to it, all over one denominator. The ends belong to it iff the mantissa is
even. -/
structure Target where
  value : Nat
  low : Nat
  high : Nat
  den : Nat
  closed : Bool

def Target.ofBinary (mantissa : Nat) (scale : Int) : Target :=
  let narrow := mantissa == Nat.pow 2 (Binary64.mantissaBits - 1) && Binary64.leastScale < scale
  let up := if 2 ≤ scale then Nat.pow 2 (scale - 2).toNat else 1
  let den := if 2 ≤ scale then 1 else Nat.pow 2 (2 - scale).toNat
  { value := 4 * mantissa * up
    low := (4 * mantissa - if narrow then 1 else 2) * up
    high := (4 * mantissa + 2) * up
    den
    closed := mantissa % 2 == 0 }

def Target.holds (t : Target) (num den : Nat) : Bool :=
  let low := t.low * den
  let high := t.high * den
  let x := num * t.den
  if t.closed then low ≤ x && x ≤ high else low < x && x < high

/-- The best decimal with one digit at `10 ^ scale`, if one reads back as the target: of the two
neighbours of the target on that grid the nearer one, of two equally near the even one. -/
def Target.onGrid (t : Target) (scale : Int) : Option (Nat × Int) :=
  let up := if 0 ≤ scale then Nat.pow 10 scale.toNat else 1
  let den := if 0 ≤ scale then 1 else Nat.pow 10 (-scale).toNat
  let below := t.value * den / (t.den * up)
  let rest := t.value * den % (t.den * up)
  let lower := t.holds (below * up) den
  let upper := t.holds ((below + 1) * up) den
  let nearerBelow := 2 * rest < t.den * up || (2 * rest == t.den * up && below % 2 == 0)
  if lower && (!upper || nearerBelow) then some (below, scale)
  else if upper then some (below + 1, scale) else none

def mostDigits : Nat := 17

/-- The shortest decimal that reads back as `mantissa * 2 ^ scale`. -/
def shortest (mantissa : Nat) (scale : Int) : Nat × Int :=
  if mantissa == 0 then (0, 0)
  else
    let t := Target.ofBinary mantissa scale
    let top := leadingExponent t.value t.den
    match (List.range mostDigits).findSome? fun (k : Nat) ↦ t.onGrid (top - k) with
    | some (n, e) => dropZeros (digitCount n) n e
    | none => (0, 0)

def isPositional (leading : Int) : Bool := -4 ≤ leading && leading < 16

def layout (pointed : Bool) (digits : Nat) (scale : Int) : String :=
  let ds := Nat.toDigits 10 digits
  let leading : Int := if digits == 0 then 0 else scale + ds.length - 1
  let fraction (cs : List Char) : List Char := if cs.isEmpty then [] else '.' :: cs
  if isPositional leading then
    if 0 ≤ scale then
      String.ofList (ds ++ List.replicate scale.toNat '0' ++ if pointed then ['.', '0'] else [])
    else if leading < 0 then
      String.ofList ('0' :: '.' :: List.replicate (-leading - 1).toNat '0' ++ ds)
    else
      let whole := (leading + 1).toNat
      String.ofList (ds.take whole ++ fraction (ds.drop whole))
  else
    let sign := if leading < 0 then '-' else '+'
    let size := Nat.toDigits 10 leading.natAbs
    let size := if size.length < 2 then '0' :: size else size
    String.ofList (ds.take 1 ++ fraction (ds.drop 1) ++ 'e' :: sign :: size)

end Decimal

namespace Binary64

def magnitudeText (pointed : Bool) : Binary64 → String
  | .finite _ m q => let (n, e) := Decimal.shortest m q; Decimal.layout pointed n e
  | .infinite _ => "inf"
  | .undefined => "nan"

def isNegative : Binary64 → Bool
  | .finite s _ _ | .infinite s => s
  | .undefined => false

def text (x : Binary64) : String :=
  (if x.isNegative then "-" else "") ++ x.magnitudeText true

def takeDigits (cs : List Char) : List Char × List Char := cs.span Char.isDigit

def digitsValue (cs : List Char) : Nat := cs.foldl (fun n c ↦ 10 * n + (c.toNat - '0'.toNat)) 0

def readExponent : List Char → Option Int
  | [] => some 0
  | c :: cs =>
    if c == 'e' || c == 'E' then
      let (negative, cs) := match cs with
        | '-' :: ds => (true, ds)
        | '+' :: ds => (false, ds)
        | ds => (false, ds)
      let (ds, rest) := takeDigits cs
      if ds.isEmpty || !rest.isEmpty then none
      else some (if negative then -(digitsValue ds : Int) else digitsValue ds)
    else none

def readMagnitude (negative : Bool) (cs : List Char) : Option Binary64 :=
  match String.ofList (cs.map Char.toLower) with
  | "inf" | "infinity" => some (.infinite negative)
  | "nan" => some .undefined
  | _ =>
    let (whole, rest) := takeDigits cs
    let (fraction, rest) := match rest with
      | '.' :: ds => takeDigits ds
      | ds => ([], ds)
    if whole.isEmpty && fraction.isEmpty then none
    else (readExponent rest).map fun e ↦
      Decimal.toBinary ⟨negative, digitsValue (whole ++ fraction), e - fraction.length⟩

def read? (s : String) : Option Binary64 :=
  match s.toList with
  | '-' :: cs => readMagnitude true cs
  | '+' :: cs => readMagnitude false cs
  | cs => readMagnitude false cs

end Binary64

end Conformance
