import Conformance.Store.Attribute

namespace Conformance

/-- The value of every name in the order of the names, nil where there is none. -/
def selectDeclared (names : List Value) (attributes : Entries Value Value) :
    Entries Value Value :=
  names.map fun name ↦ (name, (attributes.get? name).getD .nil)

namespace Store

variable (st : Store)

def contentWithin : Nat → Value → Except Fault Value
  | 0, _ => throw .tooDeep
  | depth + 1, v =>
    if st.natureOf v = .registry then
      st.found v "_fields" (st.plainAttribute? v "_fields") >>= contentWithin depth
    else pure v

/-- The collection that a value stands for: a registry for its fields, others for themselves. -/
def content (v : Value) : Except Fault Value := st.contentWithin (st.objects.size + 1) v

def members (enum : ClassId) : List Value :=
  ((st.body enum).map (·.2)).foldl (fun found v ↦
    if st.isEnum enum ∧ st.typeOf v = enum ∧ !found.any v.isSame then found ++ [v] else found) []

def yield? (v : Value) : Option (List Value) :=
  match v.plain with
  | .tuple vs | .frozenSet vs => some vs
  | .text s => some (s.toList.map fun c ↦ .text (String.singleton c))
  | .bytes data => some (data.map fun b ↦ .int b.toNat)
  | .range start stop step => some ((rangeItems start stop step).map .int)
  | .byteArray id => some ((st.byteArray id).map fun b ↦ .int b.toNat)
  | .list id => some (st.items id)
  | .set id => some (st.setMembers id)
  | .dictionary id | .mappingView id => some (st.entries id).keys
  | .ofClass c => if st.isEnum c then some (st.members c) else none
  | _ => none

def iterate (v : Value) : Except Fault (List Value) := do
  let v ← st.content v
  match st.yield? v with
  | some vs => return vs
  | none => throw (.notIterable (st.typeName v))

def mapping? (v : Value) : Option (Entries Value Value) :=
  match (st.content v).map Value.plain with
  | .ok (.dictionary id) | .ok (.mappingView id) => some (st.entries id)
  | _ => none

def registry (c : ClassId) : Except Fault Value := st.attributeOfClass c registryName

def attributesOf (v : Value) : Entries Value Value :=
  (attributesCell? v).elim [] fun id ↦ (st.object id).attributes

def declared (v : Value) : Except Fault (Entries Value Value) := do
  let names ← st.iterate (← st.registry (st.typeOf v))
  names.forM st.hash
  return Entries.ofList (selectDeclared names (st.attributesOf v))

/-- The declared values of an object, if its class can still tell them. -/
def reported (v : Value) : Except Fault (Entries Value Value) := do
  st.offers v "to_dict" none
  st.declared v

def parts (v : Value) (b : Builtin) : Except Fault (List Value) := b.parts.mapM (st.attributeOf v)

end Store

end Conformance
