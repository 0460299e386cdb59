import Conformance.Action
import Conformance.Computed

namespace Conformance

namespace Store

variable (st : Store)

def attributeName (name : Value) : Except Fault String :=
  match name.text? with
  | some s => pure s
  | none => throw (.nameNotText (st.typeName name))

def isFrozen (v : Value) (name : String) : Bool :=
  match st.natureOf v with
  | .record b => b.isFrozen && (st.typeOf v == .builtin b || b.parts.contains name)
  | _ => false

def refusedByField (v field : Value) : Except Fault Fault :=
  return .readOnlyField (st.typeName v) (← st.displayed (← st.attributeOf field "name"))

def noPlace (v : Value) (name : String) : Fault :=
  match st.classAttribute? (st.typeOf v) name with
  | some _ => .readOnlyAttribute (st.typeName v) name
  | none => .noAttribute (st.typeName v) name

def noSetter (v : Value) (name : String) : Property → Fault
  | .part .complex _ | .part .range _ => .fixedPart
  | .part owner name => .partNotWritable name owner.name
  | .memberName | .memberValue => .memberPartAssignment name
  | _ => .noSetter name (st.typeName v)

def noDeleter (v : Value) (name : String) : Property → Fault
  | .part .complex _ | .part .range _ => .fixedPart
  | .part owner name => .partNotWritable name owner.name
  | .memberName | .memberValue => .memberPartDeletion name
  | _ => .noDeleter name (st.typeName v)

/-- The cell of a value in which an attribute may be changed. -/
def placeFor (v : Value) (name : String) (computed : Property → Fault) : Except Fault ObjectId :=
  match st.classAttribute? (st.typeOf v) name with
  | some (.property p) => throw (computed p)
  | found =>
    if found.any st.isField then do throw (← st.refusedByField v (found.getD .nil))
    else match attributesCell? v with
      | some id => pure id
      | none => throw (st.noPlace v name)

def namesMember (c : ClassId) (name : String) : Bool :=
  st.isEnum c && ((st.body c).get? name).any fun v ↦ st.typeOf v = c

def openClass (c : ClassId) (name : String) : Except Fault Unit :=
  match c with
  | .builtin b => if b.isOpen then pure () else throw (.immutableClass name b.name)
  | .defined _ => pure ()

def rename (c : ClassId) (name : String) (w : Value) : Except Fault Store :=
  match name, w.text? with
  | "__name__", some s => pure (st.renameClass c s (st.fullName c))
  | _, some s => pure (st.renameClass c (st.className c) s)
  | _, none => throw (.classNameNotText (st.className c) name (st.typeName w))

def replaceAttributes (id : ObjectId) (w : Value) : Except Fault Store :=
  match w.plain with
  | .dictionary entries => pure (st.setAttributes id (st.entries entries))
  | _ => throw (.notADictionary (st.typeName w))

def writeAttribute (v : Value) (name : String) (w : Value) : Except Fault Store := do
  match v with
  | .ofClass c =>
    openClass c name
    if st.namesMember c name then throw (.memberReassignment name)
    if name == "__name__" || name == "__qualname__" then return ← st.rename c name w
    return st.putInBody c name w
  | v =>
    let id ← st.placeFor v name (st.noSetter v name)
    if name == "__dict__" then return ← st.replaceAttributes id w
    return st.setAttributes id ((st.object id).attributes.put (.text name) w)

def deleteAttribute (v : Value) (name : String) : Except Fault Store := do
  match v with
  | .ofClass c =>
    openClass c name
    if st.namesMember c name then throw (.memberDeletion (st.className c) name)
    if (st.body c).has name then return st.setBody c ((st.body c).erase name)
    throw (.noClassAttribute (st.className c) name)
  | v =>
    let id ← st.placeFor v name (st.noDeleter v name)
    if name == "__dict__" then return st.setAttributes id []
    let attributes := (st.object id).attributes
    if attributes.has (.text name) then
      return st.setAttributes id (attributes.erase (.text name))
    throw (st.missing v name)

def openAttributes (v : Value) : Except Fault DictionaryId :=
  match attributesCell? v, v with
  | some id, _ => pure (.attributes id)
  | none, .ofClass _ => throw (.noItemAssignment Builtin.mappingView.name)
  | none, v => throw (st.missing v "__dict__")

/-- A value with an attribute stored past the fields that guard it. -/
def storeAttribute (v name w : Value) : Except Fault Store := do
  let id ← st.openAttributes v
  st.hash name
  return st.setEntries id (st.putAt (st.entries id) name w)

end Store

namespace Action

def getAttribute (v name : Value) : Action Value := do
  let name ← ask (·.attributeName name)
  check (·.read v name)

def setAttribute (v name w : Value) : Action Unit := do
  let text ← ask (·.attributeName name)
  if ← ask fun st ↦ pure (st.isFrozen v text) then
    throw (.frozenAssignment (← ask (·.written name)))
  attempt (·.writeAttribute v text w)

def deleteAttribute (v name : Value) : Action Unit := do
  let text ← ask (·.attributeName name)
  if ← ask fun st ↦ pure (st.isFrozen v text) then
    throw (.frozenDeletion (← ask (·.written name)))
  attempt (·.deleteAttribute v text)

def pokeAttribute (v name w : Value) : Action Unit := attempt (·.storeAttribute v name w)

end Action

end Conformance
