import Conformance.Policy
import Conformance.Text.Quoted
import Conformance.Value.Basic

namespace Conformance

/-- What can go wrong, by cause: in declarations and settings, in creations, and in the use of values
for what they cannot do. -/
inductive Fault
  | unknownPolicy (given : String)
  | notAClass (given : String)
  | notAShorthand (given : String)
  | shorthandSize (size : Nat)
  | noLiterals
  | noBranches
  | notAConstraint (given : String)
  | notAnArrayType (given : String)
  | notAMapping (typeName received : String)
  | unknownAttributes (typeName : String) (names : List String)
  | invalid (typeName : String) (violations : List Violation)
  | unsupportedConstraint (given : String)
  | notATypeTarget
  | markerInstance
  | unhashable (typeName : String)
  | notIterable (typeName : String)
  | notAPair (typeName : String)
  | pairSize (size : Nat)
  | notCallable (typeName : String)
  | noAttribute (typeName name : String)
  | noClassAttribute (className name : String)
  | noMember (name : String)
  | nameNotText (typeName : String)
  | classNameNotText (className name typeName : String)
  | notADictionary (typeName : String)
  | readOnlyField (typeName name : String)
  | readOnlyAttribute (typeName name : String)
  | noSetter (name typeName : String)
  | noDeleter (name typeName : String)
  | fixedPart
  | partNotWritable (name typeName : String)
  | memberPartAssignment (name : String)
  | memberPartDeletion (name : String)
  | frozenAssignment (written : String)
  | frozenDeletion (written : String)
  | immutableClass (name className : String)
  | missingKey (key : String)
  | noItemAssignment (typeName : String)
  | notSubscriptable (typeName : String)
  | classNotSubscriptable (className : String)
  | indexNotInteger (sequence typeName : String)
  | indexOutOfRange (sequence : String)
  | indexTooLarge (typeName : String)
  | noLength (typeName : String)
  | noMembership (typeName : String)
  | textMembership (typeName : String)
  | noEnumMembership (typeName : String)
  | notAByte
  | notBytes (typeName : String)
  | notAnInteger (typeName : String)
  | notJoinable (index : Nat) (typeName : String)
  | inconsistentBases
  | duplicateBase (className : String)
  | finalBase (className : String)
  | incompatibleBases
  | populatedBase (name baseText : String)
  | memberReassignment (name : String)
  | memberDeletion (className name : String)
  | noArguments (className : String)
  | missingArgument (operation name : String)
  | notAMember (given className : String)
  | noSubject (operation : String)
  | noPerformer (className operation : String)
  | wrongPerformer (operation className typeName : String)
  | positionalArguments (operation : String) (given : Nat)
  | tooDeep
  | unending

namespace Fault

def noAttributeText (owner name : String) : String := s!"{owner} has no attribute '{name}'"

def choices : String := ", ".intercalate (Policy.all.map Policy.name)

def message : Fault → String
  | unknownPolicy given =>
    s!"Unknown union array message policy '{given}'; expected one of {choices}"
  | notAClass given => s!"Type constraint requires a class, got {given}"
  | notAShorthand given => s!"Cannot build a type constraint from {given}"
  | shorthandSize size => s!"Array shorthand takes exactly one element type, got {size}"
  | noLiterals => "literal set requires at least one value"
  | noBranches => "union requires at least one type"
  | notAConstraint given => s!"Field requires a constraint, got {given}"
  | notAnArrayType given => s!"element_type requires an array type (list or tuple), got {given}"
  | notAMapping typeName received => s!"{typeName} expects a mapping of attributes, got {received}"
  | unknownAttributes typeName names =>
    s!"{typeName} has no declared attribute(s): " ++ ", ".intercalate names
  | invalid _ violations => "; ".intercalate (violations.map Violation.message)
  | unsupportedConstraint given => s!"Unsupported constraint: {given}"
  | notATypeTarget => "isinstance() arg 2 must be a type, a tuple of types, or a union"
  | markerInstance => "Boolean is a marker type and cannot be instantiated"
  | unhashable typeName => s!"unhashable type: '{typeName}'"
  | notIterable typeName => s!"'{typeName}' object is not iterable"
  | notAPair typeName => s!"cannot unpack non-iterable {typeName} object"
  | pairSize size =>
    if size < 2 then s!"not enough values to unpack (expected 2, got {size})"
    else "too many values to unpack (expected 2)"
  | notCallable typeName => s!"'{typeName}' object is not callable"
  | noAttribute typeName name => noAttributeText s!"'{typeName}' object" name
  | noClassAttribute className name => noAttributeText s!"type object '{className}'" name
  | noMember name => name
  | nameNotText typeName => s!"attribute name must be string, not '{typeName}'"
  | classNameNotText className name typeName =>
    s!"can only assign string to {className}.{name}, not '{typeName}'"
  | notADictionary typeName => s!"__dict__ must be set to a dictionary, not a '{typeName}'"
  | readOnlyField typeName name => s!"'{typeName}' attribute '{name}' is read-only"
  | readOnlyAttribute typeName name => s!"'{typeName}' object attribute '{name}' is read-only"
  | noSetter name typeName => s!"property '{name}' of '{typeName}' object has no setter"
  | noDeleter name typeName => s!"property '{name}' of '{typeName}' object has no deleter"
  | fixedPart => "readonly attribute"
  | partNotWritable name typeName => s!"attribute '{name}' of '{typeName}' objects is not writable"
  | memberPartAssignment name => s!"<enum 'Enum'> cannot set attribute '{name}'"
  | memberPartDeletion name => s!"<enum 'Enum'> cannot delete attribute '{name}'"
  | frozenAssignment written => s!"cannot assign to field {written}"
  | frozenDeletion written => s!"cannot delete field {written}"
  | immutableClass name className =>
    s!"cannot set '{name}' attribute of immutable type '{className}'"
  | missingKey key => key
  | noItemAssignment typeName => s!"'{typeName}' object does not support item assignment"
  | notSubscriptable typeName => s!"'{typeName}' object is not subscriptable"
  | classNotSubscriptable className => s!"type '{className}' is not subscriptable"
  | indexNotInteger sequence typeName =>
    if sequence == "string" then s!"string indices must be integers, not '{typeName}'"
    else s!"{sequence} indices must be integers or slices, not {typeName}"
  | indexOutOfRange sequence => s!"{sequence}index out of range"
  | indexTooLarge typeName => s!"cannot fit '{typeName}' into an index-sized integer"
  | noLength typeName => s!"object of type '{typeName}' has no len()"
  | noMembership typeName => s!"argument of type '{typeName}' is not iterable"
  | textMembership typeName => s!"'in <string>' requires string as left operand, not {typeName}"
  | noEnumMembership typeName =>
    s!"unsupported operand type(s) for 'in': '{typeName}' and 'EnumType'"
  | notAByte => "byte must be in range(0, 256)"
  | notBytes typeName => s!"a bytes-like object is required, not '{typeName}'"
  | notAnInteger typeName => s!"'{typeName}' object cannot be interpreted as an integer"
  | notJoinable index typeName => s!"sequence item {index}: expected str instance, {typeName} found"
  | inconsistentBases => "MRO"
  | duplicateBase className => s!"duplicate base class {className}"
  | finalBase className => s!"type '{className}' is not an acceptable base type"
  | incompatibleBases => "multiple bases have instance lay-out conflict"
  | populatedBase name baseText => s!"<enum '{name}'> cannot extend {baseText}"
  | memberReassignment name => s!"cannot reassign member {Text.quote name}"
  | memberDeletion className name => s!"'{className}' cannot delete member '{name}'."
  | notAMember given className => s!"{given} is not a valid {className}"
  | noArguments className => s!"{className}() takes no arguments"
  | missingArgument operation name =>
    s!"{operation}() missing 1 required positional argument: '{name}'"
  | noSubject operation =>
    s!"ValidatedObject.{operation}() missing 1 required positional argument: 'self'"
  | noPerformer className operation =>
    s!"unbound method {className}.{operation}() needs an argument"
  | wrongPerformer operation className typeName =>
    s!"descriptor '{operation}' for '{className}' objects doesn't apply to a '{typeName}' object"
  | positionalArguments operation given =>
    s!"{operation} takes from 1 to 2 positional arguments but {given} were given"
  | tooDeep => "maximum recursion depth exceeded"
  | unending => "the merge never ends"

end Fault

end Conformance
