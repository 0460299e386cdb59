import Conformance.Class.Linearization
import Conformance.Declaration

namespace Conformance

namespace Store

variable (st : Store)

def fieldsOf (body : Entries String Value) : Entries String Value :=
  body.filter fun e ↦ st.isField e.2

def collected (c : ClassId) : Entries String Value :=
  Entries.ofList ((st.linearization c).reverse.flatMap fun d ↦ st.fieldsOf (st.body d))

def dataClass (c : ClassId) : ClassId :=
  ((st.linearization c).find? carriesData).getD (.builtin .object)
where
  carriesData : ClassId → Bool
    | .builtin b => b.hasData
    | .defined _ => false

/-- The one data class of all bases, if the others are among its ancestors. -/
def commonData (bases : List ClassId) : Except Fault ClassId :=
  bases.foldlM (fun common base ↦
    let data := st.dataClass base
    if st.inherits common data then pure common
    else if st.inherits data common then pure data
    else throw .incompatibleBases) (.builtin .object)

def checkBase (name : String) (base : ClassId) : Except Fault Unit :=
  match base with
  | .builtin b => if b.isFinal then throw (.finalBase b.name) else pure ()
  | base =>
    if (st.members base).isEmpty then pure ()
    else throw (.populatedBase name (st.classText base))

def duplicate? (bases : List ClassId) : Option ClassId :=
  match bases with
  | [] => none
  | base :: bases => if bases.contains base then some base else duplicate? bases

def nextLinearization (name : String) (bases : List ClassId) : Except Fault (List ClassId) := do
  bases.forM (st.checkBase name)
  let _ ← st.commonData bases
  match duplicate? bases with
  | some base => throw (.duplicateBase (st.className base))
  | none =>
    match linearize (.defined st.classes.size) bases st.linearization with
    | some classes => pure classes
    | none => throw .inconsistentBases

def newClass (d : ClassDef) : ClassId × Store :=
  (.defined st.classes.size, { st with classes := st.classes.add d })

def nameField (field name : Value) : Store :=
  match attributesCell? field with
  | some id => st.setAttributes id ((st.object id).attributes.put (.text "name") name)
  | none => st

/-- Every field of a body takes the name under which it stands, the last one of several. -/
def nameFields (body : Entries String Value) : Store :=
  (st.fieldsOf body).foldl (fun st e ↦ st.nameField e.2 (.text e.1)) st

end Store

namespace Action

def register (c : ClassId) : Action Unit := do
  let fields ← ask fun st ↦ pure (st.collected c)
  let registry ← newRegistry (fields.map fun (name, field) ↦ (.text name, field))
  record (.fieldsRegistered (← ask fun st ↦ pure (st.className c)) fields.keys)
  update (·.putInBody c registryName registry)

/-- Defines a class. A class without bases is a validated class. -/
def defineClass (name home : String) (bases : List ClassId) (attributes : List (String × Value)) :
    Action ClassId := do
  let bases := if bases.isEmpty then [.root] else bases
  let linearization ← ask (·.nextLinearization name bases)
  let body := classBody home (Entries.ofList attributes)
  let c ← create (·.newClass { name, fullName := name, bases, linearization, body })
  update (·.nameFields body)
  if linearization.contains .root then register c
  return c

/-- Registers the fields of a class anew, then those of the classes that extend it. Each class is
defined after its bases, which bounds the depth. -/
def refreshWithin : Nat → ClassId → Action Unit
  | 0, _ => pure ()
  | depth + 1, c => do
    ask (·.hasOperation (.ofClass c) "_refresh_registry")
    register c
    (← ask fun st ↦ pure (st.subclasses c)).forM (refreshWithin depth)

def refresh (c : ClassId) : Action Unit := do
  refreshWithin (← ask fun st ↦ pure st.classes.size) c

/-- Records a declaration. The constraint is written for the log alone: if it cannot be, there is no
record, and the declaration stands. -/
def recordDeclared (c : ClassId) (name : String) (field : Value) : Action Unit := do
  let className ← ask fun st ↦ pure (st.className c)
  let constraint ← ask (·.attributeOf field "constraint")
  match ← ask fun st ↦ pure (st.written constraint) with
  | .ok text => record (.fieldDeclared className name text)
  | .error _ => pure ()

/-- Puts a field into a class under a name, where all classes that extend it see it. -/
def declare (c : ClassId) (name field : Value) : Action Unit := do
  match name.text? with
  | none => throw (.nameNotText (← ask fun st ↦ pure (st.typeName name)))
  | some text =>
    update (·.putInBody c text field)
    update (·.nameField field name)
    refresh c
    recordDeclared c text field

end Action

def memberAttributes (enum : ClassId) (name : String) (value : Value) (position : Nat) :
    Entries Value Value :=
  [ (.text "_value_", value), (.text "_name_", .text name), (.text "__objclass__", .ofClass enum),
    (.text "_sort_order_", .int position) ]

namespace Action

/-- Adds a name to an enumeration: a value that is there already gives its member another name. A
member of a `mixed` enumeration is a value of the type that the enumeration extends. -/
def addMember (enum : ClassId) (mixed : Bool) (name : String) (value : Value) : Action Unit := do
  let members ← ask fun st ↦ pure (st.members enum)
  let holder? ← ask fun st ↦ pure <| members.find? fun m ↦
    (st.ownAttribute? m "_value_").any (st.sameKey value)
  match holder? with
  | some member => update (·.putInBody enum name member)
  | none =>
    let attributes := memberAttributes enum name value members.length
    let id ← create (·.newObject ⟨"", attributes⟩)
    update (·.putInBody enum name (if mixed then .derived enum value id else .object enum id))

def defineEnumeration (name home : String) (bases : List ClassId)
    (values : List (String × Value)) : Action ClassId := do
  let linearization ← ask (·.nextLinearization name bases)
  let mixed := linearization.any fun c ↦ c = .builtin .integer ∨ c = .builtin .text
  let enum ← create (·.newClass
    { name, fullName := name, bases, linearization, body := classBody home [] })
  values.forM fun (name, value) ↦ addMember enum mixed name value
  return enum

end Action

end Conformance
