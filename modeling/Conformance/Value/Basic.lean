import Conformance.Class.Builtin
import Conformance.Number.Binary64

namespace Conformance

structure BytesId where
  index : Nat
  deriving DecidableEq

structure ListId where
  index : Nat
  deriving DecidableEq

structure SetId where
  index : Nat
  deriving DecidableEq

structure ObjectId where
  index : Nat
  deriving DecidableEq

inductive DictionaryId
  | cell (index : Nat)
  | attributes (owner : ObjectId)
  deriving DecidableEq

/-- What is computed when an attribute is read. A `part` is fixed with the value that has it. -/
inductive Property
  | validity | message | policy
  | memberName | memberValue
  | part (owner : Builtin) (name : String)
  deriving DecidableEq

/-- Numbers that may differ from themselves carry a tag that tells one occurrence from another. A
`derived` value is an object of a class that extends the type of `base`. An `operation` is what a
class can do under a name. -/
inductive Value
  | nil
  | bool (b : Bool)
  | int (n : Int)
  | float (x : Binary64) (tag : Nat)
  | complex (re im : Binary64) (tag : Nat)
  | text (s : String)
  | bytes (data : List UInt8)
  | range (start stop step : Int)
  | tuple (items : List Value)
  | frozenSet (members : List Value)
  | byteArray (id : BytesId)
  | list (id : ListId)
  | set (id : SetId)
  | dictionary (id : DictionaryId)
  | mappingView (id : DictionaryId)
  | ofClass (c : ClassId)
  | derived (c : ClassId) (base : Value) (id : ObjectId)
  | object (c : ClassId) (id : ObjectId)
  | operation (name : String)
  | property (p : Property)

instance : Inhabited Value := ⟨.nil⟩

def Value.plain : Value → Value
  | .derived _ v _ => v.plain
  | v => v

def Value.text? (v : Value) : Option String :=
  match v.plain with
  | .text s => some s
  | _ => none

mutual
/-- Whether two values are built alike, out of the same data and the same cells. -/
def Value.isTwin : Value → Value → Bool
  | .nil, .nil => true
  | .bool b, .bool c => b == c
  | .int m, .int n => m == n
  | .float x t, .float y u => x == y && t == u
  | .complex re im t, .complex re' im' u => re == re' && im == im' && t == u
  | .text s, .text t => s == t
  | .bytes b, .bytes c => b == c
  | .range a b c, .range a' b' c' => a == a' && b == b' && c == c'
  | .tuple vs, .tuple ws => Value.areTwins vs ws
  | .frozenSet vs, .frozenSet ws => Value.areTwins vs ws
  | .byteArray i, .byteArray j => i == j
  | .list i, .list j => i == j
  | .set i, .set j => i == j
  | .dictionary i, .dictionary j => i == j
  | .mappingView i, .mappingView j => i == j
  | .ofClass c, .ofClass d => c == d
  | .derived c v i, .derived d w j => c == d && i == j && v.isTwin w
  | .object c i, .object d j => c == d && i == j
  | .operation n, .operation m => n == m
  | .property p, .property q => p == q
  | _, _ => false
termination_by structural v => v
def Value.areTwins : List Value → List Value → Bool
  | [], [] => true
  | v :: vs, w :: ws => v.isTwin w && Value.areTwins vs ws
  | _, _ => false
termination_by structural vs => vs
end

mutual
theorem Value.eq_of_isTwin {v w : Value} (h : v.isTwin w = true) : v = w := by
  cases v with
  | tuple vs =>
    cases w with
    | tuple ws => rw [Value.eq_of_areTwins h]
    | _ => cases h
  | frozenSet vs =>
    cases w with
    | frozenSet ws => rw [Value.eq_of_areTwins h]
    | _ => cases h
  | derived c v i =>
    cases w with
    | derived d w j =>
      simp only [Value.isTwin, Bool.and_eq_true, beq_iff_eq] at h
      rw [h.1.1, h.1.2, Value.eq_of_isTwin h.2]
    | _ => cases h
  | _ => cases w <;> first | cases h; done | rfl | simpa [Value.isTwin, and_assoc] using h
termination_by structural v
theorem Value.eq_of_areTwins {vs ws : List Value} (h : Value.areTwins vs ws = true) : vs = ws := by
  cases vs with
  | nil =>
    cases ws with
    | nil => rfl
    | cons w ws => cases h
  | cons v vs =>
    cases ws with
    | nil => cases h
    | cons w ws =>
      simp only [Value.areTwins, Bool.and_eq_true] at h
      rw [Value.eq_of_isTwin h.1, Value.eq_of_areTwins h.2]
termination_by structural vs
end

mutual
@[simp] theorem Value.isTwin_self (v : Value) : v.isTwin v = true := by
  cases v with
  | tuple vs => exact Value.areTwins_self vs
  | frozenSet vs => exact Value.areTwins_self vs
  | derived c v i => simp [Value.isTwin, Value.isTwin_self v]
  | _ => simp [Value.isTwin]
termination_by structural v
@[simp] theorem Value.areTwins_self (vs : List Value) : Value.areTwins vs vs = true := by
  cases vs with
  | nil => rfl
  | cons v vs => simp [Value.areTwins, Value.isTwin_self v, Value.areTwins_self vs]
termination_by structural vs
end

@[simp] theorem Value.isTwin_iff {v w : Value} : v.isTwin w = true ↔ v = w := by
  constructor
  · exact Value.eq_of_isTwin
  · rintro rfl
    exact v.isTwin_self

instance : DecidableEq Value := fun _ _ ↦ decidable_of_iff _ Value.isTwin_iff

/-- Whether a value is told from others that are built alike but are not it: cells, and numbers that
may differ from themselves. -/
def Value.showsIdentity : Value → Bool
  | .float .. | .complex .. | .byteArray _ | .list _ | .set _ | .dictionary _ | .mappingView _
  | .derived .. | .object .. => true
  | _ => false

def Value.isSame (v w : Value) : Bool := v.showsIdentity && v.isTwin w

structure Violation where
  name : Value
  constraint : Value
  actual : Value
  message : String

end Conformance
