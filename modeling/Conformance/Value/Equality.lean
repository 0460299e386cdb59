import Conformance.Entries
import Conformance.Fault

namespace Conformance

inductive Number
  | int (n : Int)
  | float (x : Binary64)
  | complex (re im : Binary64)

def Number.eq : Number → Number → Bool
  | .int m, .int n => m == n
  | .int m, .float y => y.eqInt m
  | .float x, .int n => x.eqInt n
  | .float x, .float y => x.eq y
  | .int m, .complex re im => re.eqInt m && im.isZero
  | .complex re im, .int n => re.eqInt n && im.isZero
  | .float x, .complex re im => x.eq re && im.isZero
  | .complex re im, .float y => re.eq y && im.isZero
  | .complex re im, .complex re' im' => re.eq re' && im.eq im'

def Value.number? : Value → Option Number
  | .bool b => some (.int (if b then 1 else 0))
  | .int n => some (.int n)
  | .float x _ => some (.float x)
  | .complex re im _ => some (.complex re im)
  | _ => none

def rangeItems (start stop step : Int) : List Int :=
  let count :=
    if 0 < step then (stop - start + step - 1) / step else (start - stop - step - 1) / -step
  (List.range count.toNat).map fun (i : Nat) ↦ start + i * step

def Value.equalsAtom (deep : Value → Value → Except Fault Bool) (v w : Value) :
    Except Fault Bool :=
  match v.number?, w.number? with
  | some m, some n => pure (m.eq n)
  | _, _ =>
    match v, w with
    | .nil, .nil => pure true
    | .text s, .text t => pure (s == t)
    | .bytes b, .bytes c => pure (b == c)
    | .range a b c, .range a' b' c' => pure (rangeItems a b c == rangeItems a' b' c')
    | .ofClass c, .ofClass d => pure (c == d)
    | .operation o, .operation p => pure (o == p)
    | .property p, .property q => pure (p == q)
    | v, w => deep v w

@[macro_inline] def Value.orSame (v w : Value) (equal : Except Fault Bool) : Except Fault Bool :=
  if v.isSame w then pure true else equal

@[macro_inline] def bothEqual (first second : Except Fault Bool) : Except Fault Bool := do
  if ← first then second else return false

/-- Either, the second only if the first does not hold. A comparison that fails is no obstacle to
one that holds. -/
@[macro_inline] def eitherEqual (first second : Except Fault Bool) : Except Fault Bool :=
  match first with
  | .ok true => pure true
  | .ok false => second
  | .error e => match second with
    | .ok true => pure true
    | _ => throw e

def someEqual {α : Type} (p : α → Except Fault Bool) : List α → Except Fault Bool
  | [] => pure false
  | a :: l => eitherEqual (p a) (someEqual p l)

mutual
def Value.equals (deep : Value → Value → Except Fault Bool) : Value → Value → Except Fault Bool
  | .derived _ v _, w => v.equals deep w
  | .tuple vs, w => match w.plain with
    | .tuple ws => Value.equalLists deep vs ws
    | _ => pure false
  | .frozenSet vs, w => match w.plain with
    | .frozenSet ws =>
      if vs.length == ws.length then
        bothEqual (Value.includedIn deep ws vs) (ws.allM fun w ↦ Value.includes deep w vs)
      else pure false
    | w => deep (.frozenSet vs) w
  | v, w => v.equalsAtom deep w.plain
termination_by structural v => v
def Value.equalLists (deep : Value → Value → Except Fault Bool) :
    List Value → List Value → Except Fault Bool
  | [], ws => pure ws.isEmpty
  | v :: vs, ws => match ws with
    | [] => pure false
    | w :: ws => bothEqual (v.orSame w (v.equals deep w)) (Value.equalLists deep vs ws)
termination_by structural vs => vs
def Value.includedIn (deep : Value → Value → Except Fault Bool) (ws : List Value) :
    List Value → Except Fault Bool
  | [] => pure true
  | v :: vs =>
    bothEqual (someEqual (fun w ↦ v.orSame w (v.equals deep w)) ws) (Value.includedIn deep ws vs)
termination_by structural vs => vs
def Value.includes (deep : Value → Value → Except Fault Bool) (w : Value) :
    List Value → Except Fault Bool
  | [] => pure false
  | v :: vs => eitherEqual (v.orSame w (v.equals deep w)) (Value.includes deep w vs)
termination_by structural vs => vs
end

def Value.equalSets (deep : Value → Value → Except Fault Bool) (vs ws : List Value) :
    Except Fault Bool :=
  if vs.length == ws.length then
    bothEqual (Value.includedIn deep ws vs) (ws.allM fun w ↦ Value.includes deep w vs)
  else pure false

/-- Equality of names, and of keys that hold no cells; cells are told apart by identity. -/
instance : BEq Value where
  beq v w := match v.orSame w (v.equals (fun v w ↦ pure (v.isSame w)) w) with
    | .ok b => b
    | .error _ => false

end Conformance
