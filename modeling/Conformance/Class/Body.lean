import Conformance.Entries
import Conformance.Policy
import Conformance.Value.Basic

namespace Conformance

def textOperations : List String :=
  [ "capitalize", "center", "count", "endswith", "expandtabs", "find", "index", "isalnum",
    "isalpha", "isascii", "isdigit", "islower", "isspace", "istitle", "isupper", "join", "ljust",
    "lower", "lstrip", "maketrans", "partition", "removeprefix", "removesuffix", "replace", "rfind",
    "rindex", "rjust", "rpartition", "rsplit", "rstrip", "split", "splitlines", "startswith",
    "strip", "swapcase", "title", "translate", "upper", "zfill" ]

def setOperations : List String :=
  [ "copy", "difference", "intersection", "isdisjoint", "issubset", "issuperset",
    "symmetric_difference", "union" ]

def Builtin.operationNames : Builtin → List String
  | text => textOperations ++
    [ "casefold", "encode", "format", "format_map", "isdecimal", "isidentifier", "isnumeric",
      "isprintable" ]
  | bytes => textOperations ++ ["decode", "fromhex", "hex"]
  | byteArray => textOperations ++
    [ "decode", "fromhex", "hex", "append", "clear", "copy", "extend", "insert", "pop", "remove",
      "reverse" ]
  | list =>
    [ "append", "clear", "copy", "count", "extend", "index", "insert", "pop", "remove", "reverse",
      "sort" ]
  | tuple | range => ["count", "index"]
  | dictionary =>
    [ "clear", "copy", "fromkeys", "get", "items", "keys", "pop", "popitem", "setdefault", "update",
      "values" ]
  | mappingView => ["copy", "get", "items", "keys", "values"]
  | fieldRegistry => ["for_class", "get", "items", "keys", "values"]
  | set => setOperations ++
    [ "add", "clear", "difference_update", "discard", "intersection_update", "pop", "remove",
      "update", "symmetric_difference_update" ]
  | frozenSet => setOperations
  | integer =>
    [ "as_integer_ratio", "bit_count", "bit_length", "conjugate", "from_bytes", "to_bytes" ]
  | float => ["as_integer_ratio", "conjugate", "fromhex", "hex", "is_integer"]
  | complex => ["conjugate"]
  | metaclass => ["mro"]
  | result => ["add", "merge"]
  | evaluator => ["evaluate", "matches", "offending_indexes", "_evaluate_array", "_evaluate_union"]
  | _ => []

def Builtin.partNames : Builtin → List String
  | integer => ["real", "imag", "numerator", "denominator"]
  | float | complex => ["real", "imag"]
  | range => ["start", "stop", "step"]
  | _ => []

def Builtin.properties : Builtin → Entries String Value
  | result => [("message", .property .message), ("valid", .bool true)]
  | evaluator => [("union_array_policy", .property .policy)]
  | settings =>
    [("union_array_messages", .text Policy.default.name), ("log_violations", .bool false)]
  | enum => [("name", .property .memberName), ("value", .property .memberValue)]
  | b => b.partNames.map fun name ↦ (name, .property (.part b name))

def Builtin.body (b : Builtin) : Entries String Value :=
  b.properties ++ b.operationNames.map fun name ↦ (name, .operation name)

/-- The attribute under which a class keeps the registry of its fields. -/
def registryName : String := "__validated_fields__"

def homeName : String := "__module__"

def classBody (home : String) (attributes : Entries String Value) : Entries String Value :=
  let body := attributes.put homeName (.text home)
  if body.has "__doc__" then body else body.put "__doc__" .nil

def rootBody (registry : Value) : Entries String Value :=
  [ (homeName, .text "validated_object.base"),
    ("validates", .operation "validates"), ("validated", .operation "validates"),
    ("_refresh_registry", .operation "_refresh_registry"), ("fields", .operation "fields"),
    ("validate", .operation "validate"), ("valid", .property .validity),
    ("to_dict", .operation "to_dict"), (registryName, registry) ]

end Conformance
