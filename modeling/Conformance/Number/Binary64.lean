namespace Conformance

/-- A finite number is `± mantissa * 2 ^ scale`, with a mantissa of 53 bits or the least scale, so
that every number has one form; only zero has two, one per sign. -/
inductive Binary64
  | finite (negative : Bool) (mantissa : Nat) (scale : Int)
  | infinite (negative : Bool)
  | undefined
  deriving DecidableEq

namespace Binary64

def mantissaBits : Nat := 53
def leastScale : Int := -1074
def greatestScale : Int := 971

def zero : Binary64 := .finite false 0 leastScale

def isZero : Binary64 → Bool
  | .finite _ m _ => m == 0
  | _ => false

def eq : Binary64 → Binary64 → Bool
  | .finite s m q, .finite s' m' q' =>
    let least := min q q'
    m * Nat.pow 2 (q - least).toNat == m' * Nat.pow 2 (q' - least).toNat && (m == 0 || s == s')
  | .infinite s, .infinite s' => s == s'
  | _, _ => false

def eqInt : Binary64 → Int → Bool
  | .finite s m q, n =>
    let magnitudes :=
      if 0 ≤ q then m * Nat.pow 2 q.toNat == n.natAbs else m == n.natAbs * Nat.pow 2 (-q).toNat
    magnitudes && (m == 0 || s == decide (n < 0))
  | _, _ => false

def roundDiv (num den : Nat) : Nat :=
  let q := num / den
  let r := num % den
  if 2 * r < den || (2 * r == den && q % 2 == 0) then q else q + 1

/-- The number nearest to `± num / den`, a tie to the even mantissa. -/
def ofRatio (negative : Bool) (num den : Nat) : Binary64 :=
  let estimate : Int := (num.log2 : Int) - den.log2 - mantissaBits
  let at_ (scale : Int) : Nat :=
    if 0 ≤ scale then roundDiv num (den * Nat.pow 2 scale.toNat)
    else roundDiv (num * Nat.pow 2 (-scale).toNat) den
  let scale :=
    max leastScale (if at_ estimate < Nat.pow 2 mantissaBits then estimate else estimate + 1)
  let m := at_ scale
  let (m, scale) := if m == Nat.pow 2 mantissaBits then (m / 2, scale + 1) else (m, scale)
  if num == 0 then .finite negative 0 leastScale
  else if greatestScale < scale then .infinite negative
  else .finite negative m scale

end Binary64

end Conformance
