import Conformance.Store.Content

namespace Conformance

namespace Store

variable (st : Store)

def equalEntries (deep : Value → Value → Except Fault Bool) (es fs : Entries Value Value) :
    Except Fault Bool :=
  let same (v w : Value) : Except Fault Bool := v.orSame w (v.equals deep w)
  let sameEntry (e f : Value × Value) : Except Fault Bool :=
    bothEqual (same e.1 f.1) (same e.2 f.2)
  if es.length == fs.length then
    bothEqual (es.allM fun e ↦ someEqual (sameEntry e) fs)
      (fs.allM fun f ↦ someEqual (sameEntry · f) es)
  else pure false

/-- Equality of two objects: validated objects of one class by what they report, records of one
class by their parts, all others by identity. -/
def equalObjects (deep : Value → Value → Except Fault Bool) (v w : Value) :
    Except Fault Bool :=
  if st.typeOf v ≠ st.typeOf w then pure (v.isSame w)
  else match st.natureOf v with
    | .validated => do equalEntries deep (← st.reported v) (← st.reported w)
    | .record b => do Value.equalLists deep (← st.parts v b) (← st.parts w b)
    | _ => pure (v.isSame w)

/-- Equality of two cells, following references to the given depth. -/
def equalCells : Nat → Value → Value → Except Fault Bool
  | 0, _, _ => throw .tooDeep
  | depth + 1, v, w =>
    match st.mapping? v, st.mapping? w, st.setMembers? v, st.setMembers? w, st.bytes? v,
      st.bytes? w with
    | some es, some fs, _, _, _, _ => equalEntries (equalCells depth) es fs
    | _, _, some vs, some ws, _, _ => Value.equalSets (equalCells depth) vs ws
    | _, _, _, _, some a, some b => pure (a == b)
    | _, _, _, _, _, _ =>
      match v, w with
      | .list i, .list j =>
        let vs := st.items i
        let ws := st.items j
        if vs.length == ws.length then Value.equalLists (equalCells depth) vs ws else pure false
      | .object c i, .object d j => st.equalObjects (equalCells depth) (.object c i) (.object d j)
      | v, w => pure (v.isSame w)

def equal (v w : Value) : Except Fault Bool := v.equals (st.equalCells (st.cellCount + 1)) w

def sameOrEqual (v w : Value) : Except Fault Bool := v.orSame w (st.equal v w)

/-- A value is a literal if it is that very object, or of exactly its type and equal to it. So
neither `True` nor `1.0` is the literal `1`. -/
def isLiteral (v literal : Value) : Except Fault Bool :=
  if v.isSame literal then pure true
  else if st.typeOf v == st.typeOf literal then st.equal v literal
  else pure false

def sameKey (k k' : Value) : Bool := (st.sameOrEqual k k').toOption.getD false

def valueAt? (es : Entries Value Value) (k : Value) : Option Value :=
  @Entries.get? Value Value ⟨st.sameKey⟩ es k

def putAt (es : Entries Value Value) (k v : Value) : Entries Value Value :=
  @Entries.put Value Value ⟨st.sameKey⟩ es k v

def putAllAt (es new : Entries Value Value) : Entries Value Value :=
  new.foldl (fun es e ↦ st.putAt es e.1 e.2) es

def collect (pairs : List (Value × Value)) : Except Fault (Entries Value Value) :=
  pairs.foldlM (fun es (k, v) ↦ do
    st.hash k
    return st.putAt es k v) []

def distinct (vs : List Value) : Except Fault (List Value) :=
  vs.foldlM (fun ws v ↦ do
    st.hash v
    return if ws.any (st.sameKey v) then ws else ws ++ [v]) []

end Store

end Conformance
