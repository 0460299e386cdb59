import Conformance.Proofs.Registry
import Conformance.Proofs.Registration.Collection
import Conformance.Proofs.Registration.Hierarchy
import Mathlib.Order.Defs.Unbundled

namespace Conformance

namespace Store

def Knows (st : Store) : Value → Prop
  | .object c _ | .derived c _ _ => st.HasClass c
  | _ => True

/-- The same classes, each with the bases and the linearization that it had. -/
structure SameHierarchy (st st' : Store) : Prop where
  size_eq : st'.classes.size = st.classes.size
  bases_eq : st'.bases = st.bases
  linearization_eq : st'.linearization = st.linearization
  changedBodies_eq : st'.changedBodies = st.changedBodies

def KeepsLists (st st' : Store) : Prop :=
  ∀ registry fields, st.Lists registry fields → st'.Lists registry fields

/-- The classes are as they were, and the registries list what they did. -/
structure Keeps (st st' : Store) : Prop where
  classes_eq : st'.classes = st.classes
  changedBodies_eq : st'.changedBodies = st.changedBodies
  lists : st.KeepsLists st'

/-- Nothing has changed, but there may be new dictionaries and objects. -/
structure Grows (st st' : Store) : Prop where
  classes_eq : st'.classes = st.classes
  changedBodies_eq : st'.changedBodies = st.changedBodies
  objects_le : st.objects.size ≤ st'.objects.size
  object_eq (id : ObjectId) (h : id.index < st.objects.size) : st'.object id = st.object id
  dictionaries_le : st.dictionaries.size ≤ st'.dictionaries.size
  dictionary_eq (i : Nat) (h : i < st.dictionaries.size) :
    st'.dictionaries.get i = st.dictionaries.get i

/-- A class whose registry lists fields under their names. -/
def Registers (st : Store) (c : ClassId) (fields : Entries String Value) : Prop :=
  ∃ registry, (st.body c).get? registryName = some registry ∧ st.Lists registry fields

variable {st st' st'' : Store} {c d e : ClassId} {k : Nat}

namespace SameHierarchy

theorem trans (h : SameHierarchy st st') (h' : SameHierarchy st' st'') : SameHierarchy st st'' where
  size_eq := h'.size_eq.trans h.size_eq
  bases_eq := h'.bases_eq.trans h.bases_eq
  linearization_eq := h'.linearization_eq.trans h.linearization_eq
  changedBodies_eq := h'.changedBodies_eq.trans h.changedBodies_eq

variable (h : SameHierarchy st st')

include h

theorem isEnum_eq : st'.isEnum = st.isEnum := by
  funext c
  simp only [isEnum, inherits, h.linearization_eq]

theorem typeOf_eq : st'.typeOf = st.typeOf := by
  funext v
  cases v <;> simp only [typeOf, h.isEnum_eq]

theorem isField_eq : st'.isField = st.isField := by
  funext v
  simp only [isField, inherits, h.typeOf_eq, h.linearization_eq]

theorem fieldsOf_eq : st'.fieldsOf = st.fieldsOf := by
  funext body
  simp only [fieldsOf, h.isField_eq]

theorem subclasses_eq : st'.subclasses = st.subclasses := by
  funext c
  simp only [subclasses, h.size_eq, h.bases_eq]

theorem inReach_eq : st'.InReach k = st.InReach k := by
  induction k with
  | zero => rfl
  | succ k ih =>
    funext c e
    simp only [InReach, h.subclasses_eq, ih]

theorem hasClass_eq : st'.HasClass = st.HasClass := by
  funext c
  cases c with
  | builtin b => rfl
  | defined n => simp only [HasClass, h.size_eq]

theorem knows_eq : st'.Knows = st.Knows := by
  funext v
  cases v <;> simp only [Knows, h.hasClass_eq]

theorem hasHierarchy (hst : st.HasHierarchy) : st'.HasHierarchy where
  size_pos := h.size_eq ▸ hst.size_pos
  root := h.linearization_eq ▸ hst.root
  isLinear n hn := by
    have hlinear := hst.isLinear n (h.size_eq ▸ hn)
    simpa only [IsLinear, h.bases_eq, h.linearization_eq] using hlinear

end SameHierarchy

namespace KeepsLists

theorem refl (st : Store) : st.KeepsLists st := fun _ _ h ↦ h

theorem trans (h : st.KeepsLists st') (h' : st'.KeepsLists st'') : st.KeepsLists st'' :=
  fun registry fields hlists ↦ h' registry fields (h registry fields hlists)

theorem of_cells (hd : st'.dictionaries = st.dictionaries) (ho : st'.objects = st.objects) :
    st.KeepsLists st' := by
  rintro registry fields ⟨id, i, rfl, hfields, hi, hentries⟩
  refine ⟨id, i, rfl, ?_, hd ▸ hi, hd ▸ hentries⟩
  simpa only [object, ho] using hfields

theorem registers (h : st.KeepsLists st') (hbody : st'.body c = st.body c)
    {fields : Entries String Value} (hc : st.Registers c fields) : st'.Registers c fields := by
  obtain ⟨registry, hregistry, hlists⟩ := hc
  exact ⟨registry, hbody ▸ hregistry, h registry fields hlists⟩

end KeepsLists

namespace Keeps

theorem refl (st : Store) : st.Keeps st := ⟨rfl, rfl, .refl st⟩

theorem trans (h : st.Keeps st') (h' : st'.Keeps st'') : st.Keeps st'' where
  classes_eq := h'.classes_eq.trans h.classes_eq
  changedBodies_eq := h'.changedBodies_eq.trans h.changedBodies_eq
  lists := h.lists.trans h'.lists

variable (h : st.Keeps st')

include h

theorem sameHierarchy : SameHierarchy st st' where
  size_eq := by rw [h.classes_eq]
  bases_eq := by
    funext c
    cases c <;> simp only [bases, h.classes_eq]
  linearization_eq := by
    funext c
    cases c <;> simp only [linearization, h.classes_eq]
  changedBodies_eq := h.changedBodies_eq

theorem body_eq : st'.body = st.body := by
  funext c
  cases c <;> simp only [body, h.classes_eq, h.changedBodies_eq]

end Keeps

namespace Grows

theorem refl (st : Store) : st.Grows st :=
  ⟨rfl, rfl, Nat.le_refl _, fun _ _ ↦ rfl, Nat.le_refl _, fun _ _ ↦ rfl⟩

theorem trans (h : st.Grows st') (h' : st'.Grows st'') : st.Grows st'' where
  classes_eq := h'.classes_eq.trans h.classes_eq
  changedBodies_eq := h'.changedBodies_eq.trans h.changedBodies_eq
  objects_le := Nat.le_trans h.objects_le h'.objects_le
  object_eq id hid :=
    (h'.object_eq id (Nat.lt_of_lt_of_le hid h.objects_le)).trans (h.object_eq id hid)
  dictionaries_le := Nat.le_trans h.dictionaries_le h'.dictionaries_le
  dictionary_eq i hi :=
    (h'.dictionary_eq i (Nat.lt_of_lt_of_le hi h.dictionaries_le)).trans (h.dictionary_eq i hi)

theorem keeps (h : st.Grows st') : st.Keeps st' := by
  refine ⟨h.classes_eq, h.changedBodies_eq, ?_⟩
  rintro registry fields ⟨id, i, rfl, hfields, hi, hentries⟩
  refine ⟨id, i, rfl, ?_, Nat.lt_of_lt_of_le hi h.dictionaries_le, ?_⟩
  · rwa [h.object_eq id (lt_size_of_named? hfields)]
  · rwa [h.dictionary_eq i hi]

end Grows

instance : IsPreorder Store Grows where
  refl := Grows.refl
  trans _ _ _ := Grows.trans

theorem grows_of_eq (hclasses : st'.classes = st.classes)
    (hbodies : st'.changedBodies = st.changedBodies) (hobjects : st'.objects = st.objects)
    (hdictionaries : st'.dictionaries = st.dictionaries) : st.Grows st' where
  classes_eq := hclasses
  changedBodies_eq := hbodies
  objects_le := Nat.le_of_eq (congrArg Table.size hobjects.symm)
  object_eq id _ := congrArg (Table.get · id.index) hobjects
  dictionaries_le := Nat.le_of_eq (congrArg Table.size hdictionaries.symm)
  dictionary_eq i _ := congrArg (Table.get · i) hdictionaries

theorem grows_newList (st : Store) (vs : List Value) : st.Grows (st.newList vs).2 :=
  grows_of_eq rfl rfl rfl rfl

theorem grows_newDictionary (st : Store) (es : Entries Value Value) :
    st.Grows (st.newDictionary es).2 := by
  refine ⟨rfl, rfl, Nat.le_refl _, fun _ _ ↦ rfl, ?_, fun i hi ↦ Table.get_add_of_lt hi es⟩
  exact Nat.le_of_lt (Nat.lt_of_lt_of_eq (Nat.lt_succ_self _) (Table.size_add _ _).symm)

theorem grows_newObject (st : Store) (o : Object) : st.Grows (st.newObject o).2 := by
  refine ⟨rfl, rfl, ?_, fun id hid ↦ Table.get_add_of_lt hid o, Nat.le_refl _, fun _ _ ↦ rfl⟩
  exact Nat.le_of_lt (Nat.lt_of_lt_of_eq (Nat.lt_succ_self _) (Table.size_add _ _).symm)

theorem keeps_nameField (st : Store) (field name : Value) : st.Keeps (st.nameField field name) := by
  unfold nameField
  split
  · next id _ =>
    refine ⟨rfl, rfl, ?_⟩
    rintro registry fields ⟨id', i, rfl, hfields, hi, hentries⟩
    refine ⟨id', i, rfl, ?_, hi, hentries⟩
    have hsize := lt_size_of_named? hfields
    by_cases hid : id = id'
    · subst hid
      have hobject : (st.setAttributes id ((st.object id).attributes.put (.text "name") name)).object
          id = { st.object id with
            attributes := (st.object id).attributes.put (.text "name") name } :=
        Table.get_set_self hsize _
      rw [hobject]
      exact ((st.object id).attributes.named?_put Value.comparesNames "name" "_fields" name).trans
        hfields
    · have hindex : id.index ≠ id'.index := fun h ↦ hid (by cases id; cases id'; cases h; rfl)
      have hobject : (st.setAttributes id ((st.object id).attributes.put (.text "name") name)).object
          id' = st.object id' :=
        Table.get_set_of_ne hindex st.objects _
      rwa [hobject]
  · exact .refl st

theorem keeps_nameFields (st : Store) (body : Entries String Value) :
    st.Keeps (st.nameFields body) := by
  unfold nameFields
  induction st.fieldsOf body generalizing st with
  | nil => exact .refl st
  | cons e es ih => exact (st.keeps_nameField e.2 (.text e.1)).trans (ih _)

theorem classAttribute?_grown (hgrows : st.Grows st') : st'.classAttribute? = st.classAttribute? := by
  funext d n
  rw [classAttribute?, hgrows.keeps.sameHierarchy.linearization_eq, hgrows.keeps.body_eq,
    classAttribute?]

end Store

end Conformance
