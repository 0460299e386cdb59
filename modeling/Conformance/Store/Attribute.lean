import Conformance.Store.Hash

namespace Conformance

def Value.part? (v : Value) (name : String) : Option Value :=
  match v.plain, name with
  | .bool b, "real" | .bool b, "numerator" => some (.int (if b then 1 else 0))
  | .bool _, "imag" | .int _, "imag" => some (.int 0)
  | .bool _, "denominator" | .int _, "denominator" => some (.int 1)
  | .int n, "real" | .int n, "numerator" => some (.int n)
  | .float x t, "real" => some (.float x t)
  | .float _ t, "imag" => some (.float .zero t)
  | .complex re _ t, "real" => some (.float re t)
  | .complex _ im t, "imag" => some (.float im t)
  | .range start _ _, "start" => some (.int start)
  | .range _ stop _, "stop" => some (.int stop)
  | .range _ _ step, "step" => some (.int step)
  | _, _ => none

namespace Store

variable (st : Store)

def missing (v : Value) (name : String) : Fault :=
  match v with
  | .ofClass c => if st.isEnum c then .noMember name else .noClassAttribute (st.className c) name
  | v => .noAttribute (st.typeName v) name

def commonAttributeOfClass? (c : ClassId) (name : String) : Option Value :=
  match name with
  | "__class__" => some (.ofClass (st.typeOf (.ofClass c)))
  | "__name__" => some (.text (st.className c))
  | "__qualname__" => some (.text (st.fullName c))
  | "__mro__" => some (.tuple ((st.linearization c).map .ofClass))
  | "__bases__" => some (.tuple ((st.bases c).map .ofClass))
  | "__module__" => match c with
    | .builtin b => some (.text (b.home.getD "builtins"))
    | c => (st.body c).get? homeName
  | "__doc__" => (st.body c).get? name
  | _ => none

/-- What a value has under the names that all values know, unless its class says otherwise. -/
def commonAttribute? (v : Value) (name : String) : Option Value :=
  match name, v, attributesCell? v with
  | "__class__", v, _ => some (.ofClass (st.typeOf v))
  | "__dict__", _, some id => some (.dictionary (.attributes id))
  | "__module__", .object (.builtin b) _, _ => b.home.map .text
  | _, _, _ => none

def found (v : Value) (name : String) (w? : Option Value) : Except Fault Value :=
  match w? with
  | some w => pure w
  | none => throw (st.missing v name)

/-- What a class has under a name. What only its objects compute, an enumeration lacks. -/
def attributeOfClass (c : ClassId) (name : String) : Except Fault Value :=
  match (st.commonAttributeOfClass? c name).or (st.classAttribute? c name) with
  | some (.property .memberName) | some (.property .memberValue) =>
    throw (st.missing (.ofClass c) name)
  | v? => st.found (.ofClass c) name v?

def attributeOfProperty (v : Value) : Property → Except Fault Value
  | .part _ name => st.found v name (v.part? name)
  | .memberName => st.found v "_name_" (st.ownAttribute? v "_name_")
  | .memberValue => st.found v "_value_" (st.ownAttribute? v "_value_")
  | p => pure (.property p)

/-- What a field shows of a value: what it holds under the field's own name, or nil. -/
def attributeOfField (v field : Value) : Except Fault Value := do
  let name ← st.found field "name" (st.plainAttribute? field "name")
  st.hash name
  return ((attributesCell? v).bind fun id ↦ (st.object id).attributes.get? name).getD .nil

/-- What a value has under a name. Properties that depend on more than the value are left to be
computed. -/
def attributeOf (v : Value) (name : String) : Except Fault Value :=
  match v with
  | .ofClass c => st.attributeOfClass c name
  | v =>
    match st.classAttribute? (st.typeOf v) name with
    | some (.property p) => st.attributeOfProperty v p
    | some w =>
      if st.isField w then st.attributeOfField v w
      else pure ((st.ownAttribute? v name).getD w)
    | none => st.found v name ((st.commonAttribute? v name).or (st.ownAttribute? v name))

def hasOperation (v : Value) (name : String) : Except Fault Unit := do
  match ← st.attributeOf v name with
  | .operation _ => pure ()
  | w => throw (.notCallable (st.typeName w))

def ownerOf (c : ClassId) (name : String) : ClassId :=
  ((st.linearization c).find? fun d ↦ (st.body d).has name).getD c

/-- Nothing, if a value performs an operation itself. A class has the operations of its objects, but
takes an argument for the object that is to perform them. -/
def offers (v : Value) (name : String) (argument? : Option Value) : Except Fault Unit := do
  st.hasOperation v name
  match v, argument? with
  | .ofClass c, none => throw (.noPerformer (st.className (st.ownerOf c name)) name)
  | .ofClass c, some w =>
    throw (.wrongPerformer name (st.className (st.ownerOf c name)) (st.typeName w))
  | _, _ => pure ()

def refusal {α : Type} (v : Value) (name : String) : Except Fault α := do
  throw (.notCallable (st.typeName (← st.attributeOf v name)))

end Store

end Conformance
