import Conformance.Store.Equality
import Conformance.Store.Written

namespace Conformance

namespace Store

variable (st : Store)

def pair (v : Value) : Except Fault (Value × Value) := do
  match st.yield? (← st.content v) with
  | some [a, b] => pure (a, b)
  | some vs => throw (.pairSize vs.length)
  | none => throw (.notAPair (st.typeName v))

def isInfix {α : Type} [BEq α] (as : List α) : List α → Bool
  | [] => as.isEmpty
  | b :: bs => as.isPrefixOf (b :: bs) || isInfix as bs

def byteOf (n : Int) : Except Fault UInt8 :=
  if 0 ≤ n ∧ n < 256 then pure (UInt8.ofNat n.toNat) else throw .notAByte

def integer? (v : Value) : Option Int :=
  match v.plain with
  | .int n => some n
  | .bool b => some (if b then 1 else 0)
  | _ => none

def containsKey (keys : List Value) (key : Value) : Except Fault Bool := do
  let key := match key.plain with
    | .set id => .frozenSet (st.setMembers id)
    | _ => key
  st.hash key
  return keys.any (st.sameKey key)

/-- The number that a key stands for as an index of a sequence. Ranges are the only sequences that
may be longer than 64 bits can tell. -/
def index (sequence : String) (key : Value) : Except Fault Int :=
  match integer? key with
  | some n =>
    if sequence = "range" ∨ (-Int.pow 2 63 ≤ n ∧ n < Int.pow 2 63) then pure n
    else throw (.indexTooLarge (st.typeName key))
  | none => throw (.indexNotInteger sequence (st.typeName key))

/-- The place that an index names among `size` places, counted from the end if it is negative. The
fault of a place that is not there starts with `whole`. -/
def place (whole : String) (size : Nat) (n : Int) : Except Fault Nat :=
  let i := if n < 0 then n + size else n
  if 0 ≤ i ∧ i < size then pure i.toNat else throw (.indexOutOfRange whole)

def sequenceNames? : Value → Option (String × String)
  | .list _ => some ("list", "list ")
  | .tuple _ => some ("tuple", "tuple ")
  | .range .. => some ("range", "range object ")
  | .text _ => some ("string", "string ")
  | .bytes _ => some ("byte", "")
  | .byteArray _ => some ("bytearray", "bytearray ")
  | _ => none

/-- What a collection holds under a key or at a place. A mapping may have nothing under a key. -/
def item? (container key : Value) : Except Fault (Option Value) := do
  let container ← st.content container
  match container.plain with
  | .dictionary id | .mappingView id => do
    st.hash key
    return st.valueAt? (st.entries id) key
  | .ofClass c =>
    if st.isEnum c then do
      st.hash key
      return (key.text?.bind (st.body c).get?).filter fun v ↦ st.typeOf v = c
    else throw (.classNotSubscriptable (st.className c))
  | plain =>
    match sequenceNames? plain, st.yield? plain with
    | some (name, whole), some vs => do
      let i ← st.index name key >>= place whole vs.length
      return some (vs[i]?.getD .nil)
    | _, _ => throw (.notSubscriptable (st.typeName container))

def item (container key : Value) : Except Fault Value := do
  match ← st.item? container key with
  | some v => return v
  | none => throw (.missingKey (← st.written key))

def containsIn (container key : Value) : Except Fault Bool :=
  match container.plain with
  | .dictionary id | .mappingView id => do
    st.hash key
    return (st.valueAt? (st.entries id) key).isSome
  | .set id => st.containsKey (st.setMembers id) key
  | .frozenSet vs => st.containsKey vs key
  | .text s =>
    match key.text? with
    | some t => pure (isInfix t.toList s.toList)
    | none => throw (.textMembership (st.typeName key))
  | .ofClass c =>
    match st.isEnum c, st.isEnum (st.typeOf key) with
    | true, true => pure (c == st.typeOf key)
    | true, false => throw (.noEnumMembership (st.typeName key))
    | false, _ => throw (.noMembership (st.typeName container))
  | plain =>
    match st.bytes? plain, integer? key, st.bytes? key, st.yield? plain with
    | some data, some n, _, _ => return data.contains (← byteOf n)
    | some data, none, some part, _ => pure (isInfix part data)
    | some _, none, none, _ => throw (.notBytes (st.typeName key))
    | none, _, _, some vs => vs.anyM fun v ↦ st.sameOrEqual v key
    | none, _, _, none => throw (.noMembership (st.typeName container))

/-- Whether a collection holds a value. A registry holds the keys under which it has something. -/
def contains (container key : Value) : Except Fault Bool :=
  if st.natureOf container = .registry then return (← st.item? container key).isSome
  else st.containsIn container key

def length (v : Value) : Except Fault Nat := do
  let v ← st.content v
  match v.plain with
  | .text s => pure s.length
  | plain =>
    match st.yield? plain with
    | some vs => pure vs.length
    | none => throw (.noLength (st.typeName v))

def isTrue (v : Value) : Except Fault Bool :=
  if st.natureOf v = .registry then return (← st.length v) != 0
  else match v.plain with
    | .nil => pure false
    | .bool b => pure b
    | .int n => pure (n != 0)
    | .float x _ => pure !x.isZero
    | .complex re im _ => pure !(re.isZero && im.isZero)
    | .ofClass _ => pure true
    | v => match st.yield? v with
      | some vs => pure !vs.isEmpty
      | none => pure true

def isMapping (v : Value) : Bool := (st.mapping? v).isSome || st.natureOf v = .registry

def entriesOf (v : Value) : Except Fault (Entries Value Value) := do
  match st.mapping? v with
  | some es => return es
  | none => (← st.iterate v).mapM fun key ↦ return (key, ← st.item v key)

def givenBy (es : Entries Value Value) (key : Value) : Except Fault Value := do
  st.hash key
  return (st.valueAt? es key).getD .nil

/-- What a mapping gives for a key when asked by its own operation. -/
def valueOrNil (v key : Value) : Except Fault Value := do
  st.offers v "get" (some key)
  match st.mapping? v with
  | some es => st.givenBy es key
  | none => return (← st.item? v key).getD .nil

def byteValue (v : Value) : Except Fault UInt8 :=
  match integer? v with
  | some n => byteOf n
  | none => throw (.notAnInteger (st.typeName v))

def append (list v : Value) : Except Fault Store := do
  st.offers list "append" (some v)
  match list.plain with
  | .list id => return st.setItems id (st.items id ++ [v])
  | .byteArray id => return st.setByteArray id (st.byteArray id ++ [← st.byteValue v])
  | _ => st.refusal list "append"

def addMember (set v : Value) : Except Fault Store := do
  match set.plain with
  | .set id =>
    st.hash v
    let vs := st.setMembers id
    return if vs.any (st.sameKey v) then st else st.setSet id (vs ++ [v])
  | _ => st.refusal set "add"

def putItem (container key v : Value) : Except Fault Store :=
  match container.plain with
  | .dictionary id => do
    st.hash key
    return st.setEntries id (st.putAt (st.entries id) key v)
  | .list id => do
    let i ← st.index "list" key >>= place "list assignment " (st.items id).length
    return st.setItems id ((st.items id).set i v)
  | .byteArray id => do
    let n ← st.index "bytearray" key
    let byte ← st.byteValue v
    let i ← place "bytearray " (st.byteArray id).length n
    return st.setByteArray id ((st.byteArray id).set i byte)
  | _ => throw (.noItemAssignment (st.typeName container))

end Store

end Conformance
