import Conformance.Store.Basic

namespace Conformance

variable (st : Store)

mutual
def Value.unhashable? (deep : Value → Option String) : Value → Option String
  | .byteArray _ => some Builtin.byteArray.name
  | .list _ => some Builtin.list.name
  | .set _ => some Builtin.set.name
  | .dictionary _ => some Builtin.dictionary.name
  | .mappingView _ => some Builtin.mappingView.name
  | .tuple vs | .frozenSet vs => Value.firstUnhashable? deep vs
  | .derived c v _ => match v with
    | .byteArray _ | .list _ | .set _ | .dictionary _ => some (st.className c)
    | v => v.unhashable? deep
  | .object c id => deep (.object c id)
  | _ => none
termination_by structural v => v
def Value.firstUnhashable? (deep : Value → Option String) : List Value → Option String
  | [] => none
  | v :: vs => (v.unhashable? deep).or (Value.firstUnhashable? deep vs)
termination_by structural vs => vs
end

namespace Store

/-- The name of the type of the first part that keeps an object from being a key. Frozen records
are keys if their parts are. -/
def unhashableObject? : Nat → Value → Option String
  | 0, _ => none
  | depth + 1, v =>
    match st.natureOf v with
    | .validated | .registry => some (st.typeName v)
    | .record b =>
      if b.isFrozen then
        Value.firstUnhashable? st (unhashableObject? depth)
          (b.parts.filterMap fun part ↦ st.plainAttribute? v part)
      else some (st.typeName v)
    | _ => none

/-- Nothing, if the value may be a key. -/
def hash (v : Value) : Except Fault Unit :=
  match v.unhashable? st (st.unhashableObject? (st.objects.size + 1)) with
  | some typeName => throw (.unhashable typeName)
  | none => pure ()

end Store

end Conformance
