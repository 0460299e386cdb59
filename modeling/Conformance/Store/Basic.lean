import Conformance.Class.Body
import Conformance.Table
import Conformance.Value.Equality

namespace Conformance

/-- A label tells an object from others of its class that are written alike. -/
structure Object where
  label : String
  attributes : Entries Value Value
  deriving Inhabited

/-- A class is known by its name, and written by its full name. The two differ once it is
renamed. -/
structure ClassDef where
  name : String
  fullName : String
  bases : List ClassId
  linearization : List ClassId
  body : Entries String Value
  deriving Inhabited

/-- Builtin classes of the library can be given attributes: their bodies as changed. -/
structure Store where
  classes : Table ClassDef
  changedBodies : Entries Builtin (Entries String Value)
  byteArrays : Table (List UInt8)
  lists : Table (List Value)
  sets : Table (List Value)
  dictionaries : Table (Entries Value Value)
  objects : Table Object
  tags : Nat

def rootRegistry : Value := .object (.builtin .fieldRegistry) ⟨0⟩

def ClassDef.root : ClassDef where
  name := "ValidatedObject"
  fullName := "ValidatedObject"
  bases := [.builtin .object]
  linearization := [.root, .builtin .object]
  body := rootBody rootRegistry

namespace Store

def initial : Store where
  classes := ⟨#[.root]⟩
  changedBodies := []
  byteArrays := {}
  lists := {}
  sets := {}
  dictionaries := ⟨#[[]]⟩
  objects := ⟨#[⟨"", [(.text "_fields", .mappingView (.cell 0))]⟩]⟩
  tags := 0

variable (st : Store)

def byteArray (id : BytesId) : List UInt8 := st.byteArrays.get id.index
def items (id : ListId) : List Value := st.lists.get id.index
def setMembers (id : SetId) : List Value := st.sets.get id.index
def object (id : ObjectId) : Object := st.objects.get id.index

def entries : DictionaryId → Entries Value Value
  | .cell i => st.dictionaries.get i
  | .attributes owner => (st.object owner).attributes

def setByteArray (id : BytesId) (data : List UInt8) : Store :=
  { st with byteArrays := st.byteArrays.set id.index data }

def setItems (id : ListId) (vs : List Value) : Store :=
  { st with lists := st.lists.set id.index vs }

def setSet (id : SetId) (vs : List Value) : Store :=
  { st with sets := st.sets.set id.index vs }

def setAttributes (id : ObjectId) (es : Entries Value Value) : Store :=
  { st with objects := st.objects.set id.index { st.object id with attributes := es } }

def setEntries (id : DictionaryId) (es : Entries Value Value) : Store :=
  match id with
  | .cell i => { st with dictionaries := st.dictionaries.set i es }
  | .attributes owner => st.setAttributes owner es

def newByteArray (data : List UInt8) : BytesId × Store :=
  (⟨st.byteArrays.size⟩, { st with byteArrays := st.byteArrays.add data })

def newList (vs : List Value) : ListId × Store :=
  (⟨st.lists.size⟩, { st with lists := st.lists.add vs })

def newSet (vs : List Value) : SetId × Store :=
  (⟨st.sets.size⟩, { st with sets := st.sets.add vs })

def newDictionary (es : Entries Value Value) : DictionaryId × Store :=
  (.cell st.dictionaries.size, { st with dictionaries := st.dictionaries.add es })

def newObject (o : Object) : ObjectId × Store :=
  (⟨st.objects.size⟩, { st with objects := st.objects.add o })

def newTag : Nat × Store := (st.tags, { st with tags := st.tags + 1 })

def cellCount : Nat :=
  st.byteArrays.size + st.lists.size + st.sets.size + st.dictionaries.size + 2 * st.objects.size

def linearization : ClassId → List ClassId
  | .builtin b => b.linearization.map .builtin
  | .defined n => (st.classes.get n).linearization

def bases : ClassId → List ClassId
  | .builtin b => (b.linearization.drop 1).take 1 |>.map .builtin
  | .defined n => (st.classes.get n).bases

def className : ClassId → String
  | .builtin b => b.name
  | .defined n => (st.classes.get n).name

def fullName : ClassId → String
  | .builtin b => b.name
  | .defined n => (st.classes.get n).fullName

def body : ClassId → Entries String Value
  | .builtin b => if b.isOpen then (st.changedBodies.get? b).getD b.body else b.body
  | .defined n => (st.classes.get n).body

def home? (c : ClassId) : Option String :=
  match c with
  | .builtin b => b.home
  | c => ((st.body c).get? homeName).bind Value.text?

def setBody (c : ClassId) (body : Entries String Value) : Store :=
  match c with
  | .builtin b => { st with changedBodies := st.changedBodies.put b body }
  | .defined n => { st with classes := st.classes.set n { st.classes.get n with body } }

def renameClass (c : ClassId) (name fullName : String) : Store :=
  match c with
  | .builtin _ => st
  | .defined n => { st with classes := st.classes.set n { st.classes.get n with name, fullName } }

def putInBody (c : ClassId) (name : String) (v : Value) : Store :=
  st.setBody c ((st.body c).put name v)

def inherits (c d : ClassId) : Bool := (st.linearization c).contains d

def isEnum (c : ClassId) : Bool := st.inherits c (.builtin .enum)

def nature (c : ClassId) : Nature :=
  ((st.linearization c).findSome? ClassId.nature?).getD .plain

def classText (c : ClassId) : String :=
  if st.isEnum c then s!"<enum '{st.className c}'>"
  else match st.home? c with
    | some home => s!"<class '{home}.{st.fullName c}'>"
    | none => s!"<class '{st.fullName c}'>"

/-- The classes that list a class among their bases, in the order of their definition. -/
def subclasses (c : ClassId) : List ClassId :=
  (List.range st.classes.size).map ClassId.defined |>.filter fun d ↦ (st.bases d).contains c

/-- The value that a class has under a name, by the first class of its linearization that has it. -/
def classAttribute? (c : ClassId) (name : String) : Option Value :=
  (st.linearization c).findSome? fun d ↦ (st.body d).get? name

def typeOf : Value → ClassId
  | .nil => .builtin .nothing
  | .bool _ => .builtin .boolean
  | .int _ => .builtin .integer
  | .float .. => .builtin .float
  | .complex .. => .builtin .complex
  | .text _ => .builtin .text
  | .bytes _ => .builtin .bytes
  | .range .. => .builtin .range
  | .tuple _ => .builtin .tuple
  | .frozenSet _ => .builtin .frozenSet
  | .byteArray _ => .builtin .byteArray
  | .list _ => .builtin .list
  | .set _ => .builtin .set
  | .dictionary _ => .builtin .dictionary
  | .mappingView _ => .builtin .mappingView
  | .ofClass c => .builtin (if st.isEnum c then .enumMetaclass else .metaclass)
  | .derived c .. => c
  | .object c _ => c
  | .operation _ => .builtin .operation
  | .property _ => .builtin .property

def typeName (v : Value) : String := st.className (st.typeOf v)

def natureOf (v : Value) : Nature := st.nature (st.typeOf v)

def isConstraint (v : Value) : Bool := st.inherits (st.typeOf v) (.builtin .constraint)

def isField (v : Value) : Bool := st.inherits (st.typeOf v) (.builtin .field)

def arrayItems? (v : Value) : Option (List Value) :=
  match v.plain with
  | .list id => some (st.items id)
  | .tuple vs => some vs
  | _ => none

def setMembers? (v : Value) : Option (List Value) :=
  match v.plain with
  | .set id => some (st.setMembers id)
  | .frozenSet vs => some vs
  | _ => none

def bytes? (v : Value) : Option (List UInt8) :=
  match v.plain with
  | .byteArray id => some (st.byteArray id)
  | .bytes data => some data
  | _ => none

def attributesCell? : Value → Option ObjectId
  | .object (.builtin .object) _ | .object (.builtin .constraint) _ => none
  | .object _ id | .derived _ _ id => some id
  | _ => none

def ownAttribute? (v : Value) (name : String) : Option Value :=
  (attributesCell? v).bind fun id ↦ (st.object id).attributes.get? (.text name)

def plainAttribute? (v : Value) (name : String) : Option Value :=
  (st.ownAttribute? v name).or (st.classAttribute? (st.typeOf v) name)

end Store

end Conformance
