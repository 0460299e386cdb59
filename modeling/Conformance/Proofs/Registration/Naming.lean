import Conformance.Proofs.Access.Reading
import Conformance.Proofs.Registration.Declaration

namespace Conformance

theorem findSome?_or {α β : Type} {P : β → Prop} {f g : α → Option β} {l : List α}
    (h : ∀ a ∈ l, g a = f a ∨ ∃ b, g a = some b ∧ P b) :
    l.findSome? g = l.findSome? f ∨ ∃ b, l.findSome? g = some b ∧ P b := by
  induction l with
  | nil => exact .inl rfl
  | cons a l ih =>
    rw [List.findSome?_cons, List.findSome?_cons]
    rcases h a List.mem_cons_self with ha | ⟨b, hb, hP⟩
    · rw [ha]
      cases f a with
      | some b => exact .inl rfl
      | none => exact ih fun a' ha' ↦ h a' (List.mem_cons_of_mem a ha')
    · rw [hb]
      exact .inr ⟨b, rfl, hP⟩

namespace Store

/-- A field that was not there before, and goes by a name. -/
def NewField (st st' : Store) (n : String) (f : Value) : Prop :=
  ∃ id, f = .object (.builtin .field) id ∧ st.objects.size ≤ id.index ∧ st'.GoesBy f n

/-- What a class has under a name may have become a new field of that name. All objects are as they
were, and so are the classes, but for their registries. -/
structure Rebinds (c : ClassId) (n : String) (st st' : Store) : Prop where
  linearization_eq : st'.linearization = st.linearization
  objects_le : st.objects.size ≤ st'.objects.size
  object_eq (id : ObjectId) (h : id.index < st.objects.size) : st'.object id = st.object id
  get?_body (d : ClassId) (k : String) (hk : k ≠ registryName) :
    (st'.body d).get? k = (st.body d).get? k ∨
      (d = c ∧ k = n ∧ ∃ f, (st'.body d).get? k = some f ∧ st.NewField st' n f)

variable {st st' st'' : Store} {c d : ClassId} {k n : String} {f v : Value}

theorem isField_of_linearization (h : st'.linearization = st.linearization) (v : Value) :
    st'.isField v = st.isField v := by
  have henum : st'.isEnum = st.isEnum := by
    funext c
    simp only [isEnum, inherits, h]
  have htype : st'.typeOf v = st.typeOf v := by
    cases v <;> simp only [typeOf, henum]
  simp only [isField, inherits, htype, h]

theorem goesBy_of_object (h : st.GoesBy f n)
    (hobject : ∀ id : ObjectId, id.index < st.objects.size → st'.object id = st.object id) :
    st'.GoesBy f n := by
  obtain ⟨id, rfl, hname⟩ := h
  refine ⟨id, rfl, ?_⟩
  rwa [hobject id (lt_size_of_named? hname)]

section Naming

variable {id i : ObjectId} {name : Value}

@[simp] theorem size_nameField (st : Store) (f name : Value) :
    (st.nameField f name).objects.size = st.objects.size := by
  unfold nameField
  split
  · exact Table.size_set _ _ _
  · rfl

theorem object_nameField_of_ne (h : id ≠ i) :
    (st.nameField (.object (.builtin .field) id) name).object i = st.object i := by
  refine Table.get_set_of_ne ?_ st.objects _
  intro hindex
  exact h (by cases id; cases i; cases hindex; rfl)

theorem goesBy_nameField (h : id.index < st.objects.size) (n : String) :
    (st.nameField (.object (.builtin .field) id) (.text n)).GoesBy (.object (.builtin .field) id) n := by
  have hrenamed : (st.nameField (.object (.builtin .field) id) (.text n)).object id =
      { st.object id with attributes := (st.object id).attributes.put (.text "name") (.text n) } :=
    Table.get_set_self h _
  refine ⟨id, rfl, ?_⟩
  rw [hrenamed]
  have hput := (st.object id).attributes.named?_put Value.comparesNames "name" "name" (.text n)
  simpa using hput

end Naming

theorem body_putInBody_or (st : Store) (c : ClassId) (k : String) (v : Value) (d : ClassId) :
    (st.putInBody c k v).body d = st.body d ∨
      d = c ∧ (st.putInBody c k v).body d = (st.body d).put k v := by
  cases c with
  | defined m =>
    cases d with
    | builtin b => exact .inl rfl
    | defined l =>
      have hget := st.classes.get_set m
        { st.classes.get m with body := (st.classes.get m).body.put k v } l
      simp only [putInBody, setBody, body, hget, ClassId.defined.injEq]
      split
      · next h => exact .inr ⟨h.1, by rw [h.1]⟩
      · exact .inl rfl
  | builtin b =>
    cases d with
    | defined l => exact .inl rfl
    | builtin b' =>
      simp only [putInBody, setBody, body, ClassId.builtin.injEq]
      by_cases hb : b = b'
      · subst hb
        by_cases hopen : b.isOpen
        · simp [hopen, Entries.get?_put]
        · simp [hopen]
      · simp [Entries.get?_put, hb]

theorem get?_body_putInBody (st : Store) (c : ClassId) (k : String) (v : Value) (d : ClassId)
    (k' : String) : ((st.putInBody c k v).body d).get? k' = (st.body d).get? k' ∨
      d = c ∧ k' = k ∧ ((st.putInBody c k v).body d).get? k' = some v := by
  rcases st.body_putInBody_or c k v d with hsame | ⟨hd, hput⟩
  · exact .inl (by rw [hsame])
  · rw [hput, Entries.get?_put]
    by_cases hk : k = k'
    · exact .inr ⟨hd, hk.symm, by simp [hk]⟩
    · exact .inl (by simp [hk])

@[simp] theorem linearization_putInBody (st : Store) (c : ClassId) (k : String) (v : Value) :
    (st.putInBody c k v).linearization = st.linearization := by
  cases c with
  | defined m => exact (st.sameHierarchy_putInBody m k v).linearization_eq
  | builtin b => rfl

namespace Rebinds

theorem of_grows (h : st.Grows st') (c : ClassId) (n : String) : Rebinds c n st st' where
  linearization_eq := h.keeps.sameHierarchy.linearization_eq
  objects_le := h.objects_le
  object_eq := h.object_eq
  get?_body d k _ := .inl (by rw [h.keeps.body_eq])

theorem refl (c : ClassId) (n : String) (st : Store) : Rebinds c n st st := of_grows (.refl st) c n

theorem trans (h : Rebinds c n st st') (h' : Rebinds c n st' st'') : Rebinds c n st st'' where
  linearization_eq := h'.linearization_eq.trans h.linearization_eq
  objects_le := Nat.le_trans h.objects_le h'.objects_le
  object_eq id hid :=
    (h'.object_eq id (Nat.lt_of_lt_of_le hid h.objects_le)).trans (h.object_eq id hid)
  get?_body d k hk := by
    rcases h'.get?_body d k hk with hsame' | ⟨hd, hkn, f, hf, id, rfl, hid, hname⟩
    · rcases h.get?_body d k hk with hsame | ⟨hd, hkn, f, hf, id, rfl, hid, hname⟩
      · exact .inl (hsame'.trans hsame)
      · refine .inr ⟨hd, hkn, _, hsame'.trans hf, id, rfl, hid, ?_⟩
        exact goesBy_of_object hname h'.object_eq
    · exact .inr ⟨hd, hkn, _, hf, id, rfl, Nat.le_trans h.objects_le hid, hname⟩

instance (c : ClassId) (n : String) : IsPreorder Store (Rebinds c n) where
  refl := refl c n
  trans _ _ _ := trans

theorem of_registry (st : Store) (d : ClassId) (v : Value) (c : ClassId) (n : String) :
    Rebinds c n st (st.putInBody d registryName v) where
  linearization_eq := linearization_putInBody st d registryName v
  objects_le := by cases d <;> exact Nat.le_refl _
  object_eq id _ := by cases d <;> rfl
  get?_body e k hk := by
    rcases get?_body_putInBody st d registryName v e k with hsame | ⟨-, hk', -⟩
    · exact .inl hsame
    · exact absurd hk' hk

theorem of_withRegistry (st : Store) (d c : ClassId) (n : String) :
    Rebinds c n st (st.withRegistry d) :=
  (of_grows (grows_newRegistry st _) c n).trans (of_registry _ d _ c n)

theorem of_field (h : st.Grows st') {id : ObjectId} (hid : st.objects.size ≤ id.index)
    (hid' : id.index < st'.objects.size) (c : ClassId) (n : String) :
    Rebinds c n st ((st'.putInBody c n (.object (.builtin .field) id)).nameField
      (.object (.builtin .field) id) (.text n)) := by
  let f := Value.object (.builtin .field) id
  let st₁ := st'.putInBody c n f
  have hobjects : st₁.objects = st'.objects := by cases c <;> rfl
  have hkeeps := keeps_nameField st₁ f (.text n)
  have hname : (st₁.nameField f (.text n)).GoesBy f n := goesBy_nameField (hobjects ▸ hid') n
  refine ⟨?_, ?_, ?_, ?_⟩
  · rw [hkeeps.sameHierarchy.linearization_eq, linearization_putInBody]
    exact h.keeps.sameHierarchy.linearization_eq
  · rw [size_nameField, hobjects]
    exact h.objects_le
  · intro i hi
    have hne : id ≠ i := by
      rintro rfl
      exact Nat.lt_irrefl _ (Nat.lt_of_lt_of_le hi hid)
    rw [object_nameField_of_ne hne, object, hobjects]
    exact h.object_eq i hi
  · intro d k _
    rw [hkeeps.body_eq, ← h.keeps.body_eq]
    rcases st'.get?_body_putInBody c n f d k with hsame | ⟨hd, hk, hf⟩
    · exact .inl hsame
    · exact .inr ⟨hd, hk, f, hf, id, rfl, hid, hname⟩

/-- What a class has under a name is as it was, or is a new field of that name. -/
theorem classAttribute?_or (h : Rebinds c n st st') (d : ClassId) (hk : k ≠ registryName) :
    st'.classAttribute? d k = st.classAttribute? d k ∨
      ∃ f, st'.classAttribute? d k = some f ∧ st.NewField st' k f := by
  unfold classAttribute?
  rw [h.linearization_eq]
  apply findSome?_or
  intro e _
  rcases h.get?_body e k hk with hsame | ⟨-, rfl, hnew⟩
  · exact .inl hsame
  · exact .inr hnew

theorem shows (h : Rebinds c n st st') (hk : k ≠ registryName) (hd : st.Shows d k) :
    st'.Shows d k := by
  obtain ⟨f, hf, hname⟩ := hd
  rcases h.classAttribute?_or d hk with hsame | ⟨f', hf', hnew⟩
  · exact ⟨f, hsame.trans hf, goesBy_of_object hname h.object_eq⟩
  · obtain ⟨id, rfl, -, hname'⟩ := hnew
    exact ⟨_, hf', hname'⟩

end Rebinds

end Store

namespace Action

open Store

variable {α β : Type} {c : ClassId} {n : String}

def Rebinding (c : ClassId) (n : String) (x : Action α) : Prop :=
  ∀ s, Rebinds c n s.store (after x s).store

namespace Rebinding

theorem bind {x : Action α} {f : α → Action β} (hx : Rebinding c n x)
    (hf : ∀ a, Rebinding c n (f a)) : Rebinding c n (x >>= f) := Within.bind hx hf

theorem pure (a : α) : Rebinding c n (Pure.pure a) := Within.pure a

theorem throw (e : Fault) : Rebinding c n (MonadExcept.throw e : Action α) := Within.throw e

theorem ask (q : Store → Except Fault α) : Rebinding c n (Action.ask q) := Within.ask q

theorem check (q : Store → Check α) : Rebinding c n (Action.check q) := Within.check q

theorem newObject (d : ClassId) (attributes : Entries Value Value) :
    Rebinding c n (Action.newObject d attributes) :=
  fun s ↦ .of_grows (grows_newObject s.store _) c n

end Rebinding

theorem rebinding_declareOn (c : ClassId) (n : String) (operation : String)
    (spec elementType : Value) (allowNil : Bool) :
    Rebinding c n (declareOn (.ofClass c) operation (.text n) spec elementType allowNil) := by
  refine Within.declareOn (fun st st' h ↦ .of_grows h c n) ?_
    (fun st d ↦ .of_withRegistry st d c n) operation spec elementType allowNil
  intro st id m hm hid st₀ hgrows hid₀
  cases hm
  exact .of_field hgrows hid₀ hid c n

end Action

end Conformance
