namespace Conformance

/-- The classes that exist without being defined. -/
inductive Builtin
  | object | metaclass | enumMetaclass
  | nothing | boolean | integer | float | complex | text | bytes | byteArray | range
  | list | tuple | dictionary | set | frozenSet | mappingView
  | enum | reprEnum | intEnum
  | booleanMarker
  | constraint | typeConstraint | literalConstraint | arrayConstraint | unionConstraint
  | field | fieldRegistry | violation | result | evaluator | settings
  | operation | property
  deriving DecidableEq

namespace Builtin

def name : Builtin → String
  | object => "object"
  | metaclass => "type"
  | enumMetaclass => "EnumType"
  | nothing => "NoneType"
  | boolean => "bool"
  | integer => "int"
  | float => "float"
  | complex => "complex"
  | text => "str"
  | bytes => "bytes"
  | byteArray => "bytearray"
  | range => "range"
  | list => "list"
  | tuple => "tuple"
  | dictionary => "dict"
  | set => "set"
  | frozenSet => "frozenset"
  | mappingView => "mappingproxy"
  | enum => "Enum"
  | reprEnum => "ReprEnum"
  | intEnum => "IntEnum"
  | booleanMarker => "Boolean"
  | constraint => "Constraint"
  | typeConstraint => "SimpleType"
  | literalConstraint => "LiteralSet"
  | arrayConstraint => "ArrayOf"
  | unionConstraint => "Union"
  | field => "Field"
  | fieldRegistry => "FieldRegistry"
  | violation => "ValidationViolation"
  | result => "ValidationResult"
  | evaluator => "ConstraintEvaluator"
  | settings => "Settings"
  | operation => "method"
  | property => "property"

def home : Builtin → Option String
  | enumMetaclass | enum | reprEnum | intEnum => some "enum"
  | booleanMarker | constraint | typeConstraint | literalConstraint | arrayConstraint
  | unionConstraint => some "validated_object.model"
  | field | fieldRegistry => some "validated_object.fields"
  | violation | result => some "validated_object.validation.base"
  | evaluator => some "validated_object.validation.constraints"
  | settings => some "validated_object.config"
  | _ => none

def linearization : Builtin → List Builtin
  | object => [object]
  | boolean => [boolean, integer, object]
  | enumMetaclass => [enumMetaclass, metaclass, object]
  | reprEnum => [reprEnum, enum, object]
  | intEnum => [intEnum, integer, reprEnum, enum, object]
  | typeConstraint => [typeConstraint, constraint, object]
  | literalConstraint => [literalConstraint, constraint, object]
  | arrayConstraint => [arrayConstraint, constraint, object]
  | unionConstraint => [unionConstraint, constraint, object]
  | b => [b, object]

def hasData : Builtin → Bool
  | metaclass | enumMetaclass | integer | float | complex | text | bytes | byteArray | list | tuple
  | dictionary | set | frozenSet => true
  | _ => false

def isFinal : Builtin → Bool
  | nothing | boolean | range | mappingView | operation => true
  | _ => false

def isOpen (b : Builtin) : Bool := b.home.isSome

def parts : Builtin → List String
  | typeConstraint => ["target"]
  | literalConstraint => ["values"]
  | arrayConstraint => ["element"]
  | unionConstraint => ["branches"]
  | violation => ["attribute", "constraint", "actual", "message"]
  | result => ["valid", "violations"]
  | settings => ["union_array_messages", "log_violations"]
  | _ => []

def isFrozen : Builtin → Bool
  | typeConstraint | literalConstraint | arrayConstraint | unionConstraint | violation
  | settings => true
  | _ => false

end Builtin

/-- A class, by identity: two defined classes of one name are different classes. -/
inductive ClassId
  | builtin (b : Builtin)
  | defined (index : Nat)
  deriving DecidableEq

def ClassId.root : ClassId := .defined 0

/-- How the objects of a class behave. -/
inductive Nature
  | plain | validated | enumeration | field | registry | evaluator
  | record (b : Builtin)
  deriving DecidableEq

def ClassId.nature? : ClassId → Option Nature
  | .defined 0 => some .validated
  | .defined _ => none
  | .builtin .enum => some .enumeration
  | .builtin .field => some .field
  | .builtin .fieldRegistry => some .registry
  | .builtin .evaluator => some .evaluator
  | .builtin b => if b.parts.isEmpty then none else some (.record b)

end Conformance
