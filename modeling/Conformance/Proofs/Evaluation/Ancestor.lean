import Conformance.Proofs.Creation.Reconstruction
import Conformance.Proofs.Evaluation.Alternatives

open Conformance.Action

namespace Conformance

/-- A constraint with holes, any number of them, at which other constraints may stand. -/
inductive Constraint.Context
  | hole
  | fixed (c : Constraint)
  | array (element : Context)
  | union (branches : List Context)

namespace Constraint.Context

mutual
def fill (t : Constraint) : Context → Constraint
  | .hole => t
  | .fixed c => c
  | .array element => .array (fill t element)
  | .union branches => .union (fillAll t branches)
termination_by structural k => k
def fillAll (t : Constraint) : List Context → List Constraint
  | [] => []
  | k :: ks => fill t k :: fillAll t ks
termination_by structural ks => ks
end

mutual
theorem isProper_fill (k : Context) {t u : Constraint} (hu : u.IsProper)
    (h : (fill t k).IsProper) : (fill u k).IsProper := by
  cases k with
  | hole => exact hu
  | fixed c => exact h
  | array element => exact isProper_fill element hu h
  | union branches => exact areProper_fillAll branches hu h
termination_by structural k
theorem areProper_fillAll (ks : List Context) {t u : Constraint} (hu : u.IsProper)
    (h : LeavesOfAll IsBasic (fillAll t ks)) : LeavesOfAll IsBasic (fillAll u ks) := by
  cases ks with
  | nil => trivial
  | cons k ks => exact ⟨isProper_fill k hu h.1, areProper_fillAll ks hu h.2⟩
termination_by structural ks
end

end Constraint.Context

namespace Store

def isBoolean (st : Store) (v : Value) : Bool := st.inherits (st.typeOf v) (.builtin .boolean)

def ExtendsArrays (st : Store) (c : ClassId) : Prop :=
  ∃ b ∈ [Builtin.list, .tuple], st.inherits c (.builtin b) = true

instance (st : Store) (c : ClassId) : Decidable (st.ExtendsArrays c) :=
  inferInstanceAs (Decidable (∃ b ∈ _, _))

/-- An object as classes make them: it carries the items of an array exactly if its class extends
the lists or the tuples. -/
def CarriesItems (st : Store) : Value → Prop
  | .derived c data _ => (st.arrayItems? data).isSome = true ↔ st.ExtendsArrays c
  | .object c _ => ¬ st.ExtendsArrays c
  | _ => True

/-- A value for which a class does not stand, even if the class of the value extends it. -/
def IsException (st : Store) (d : ClassId) (v : Value) : Prop :=
  d = .builtin .integer ∧ st.isBoolean v = true ∨
    d = .builtin .booleanMarker ∧ st.isBoolean v = false

instance (st : Store) (d : ClassId) (v : Value) : Decidable (st.IsException d v) :=
  inferInstanceAs (Decidable (_ ∨ _))

/-- A value comprises itself and what its items comprise. -/
inductive Comprises (st : Store) : Value → Value → Prop
  | self (v : Value) : Comprises st v v
  | item {v item w : Value} {items : List Value} (hv : st.arrayItems? v = some items)
      (hitem : item ∈ items) (h : Comprises st item w) : Comprises st v w

/-- A value that one constraint judges is judged by another one too, and accepted if it is by the
first. -/
def TakesOver (st : Store) (t u : Constraint) (v : Value) : Prop :=
  st.CanCompare t v → st.CanCompare u v ∧ (st.fits t v = true → st.fits u v = true)

variable {st : Store} {ev : Evaluator} {c d e : ClassId} {v : Value}

theorem hasClass_of_mem_linearization (h : d ∈ st.linearization c) : st.HasClass c := by
  cases c with
  | builtin b => trivial
  | defined n => exact lt_size_of_mem h

theorem HasHierarchy.inherits_trans (hst : st.HasHierarchy) (h : st.inherits e c = true)
    (hd : d ∈ st.linearization c) : st.inherits e d = true := by
  have hc : c ∈ st.linearization e := by simpa [inherits] using h
  have he := hst.linearization_subset (hasClass_of_mem_linearization hc) c hc d hd
  simpa [inherits] using he

theorem arrayItems?_isSome_iff (hv : st.CarriesItems v) :
    (st.arrayItems? v).isSome = true ↔ st.ExtendsArrays (st.typeOf v) := by
  cases v with
  | derived c data id => exact hv
  | object c id => exact iff_of_false nofun hv
  | ofClass c =>
    cases hc : st.isEnum c <;>
      simp [arrayItems?, Value.plain, ExtendsArrays, typeOf, hc, inherits, linearization,
        Builtin.linearization]
  | _ =>
    simp [arrayItems?, Value.plain, ExtendsArrays, typeOf, inherits, linearization,
      Builtin.linearization]

theorem hasType_iff_of_inherits (hv : st.CarriesItems v) (h : st.inherits (st.typeOf v) d = true) :
    st.hasType (.ofClass d) v = .ok true ↔ ¬ st.IsException d v := by
  cases d with
  | defined n => simp [hasType, isOf, h, IsException, pure, Except.pure]
  | builtin b =>
    have hitems (hb : b ∈ [Builtin.list, .tuple]) : (st.arrayItems? v).isSome = true :=
      (arrayItems?_isSome_iff hv).2 ⟨b, hb, h⟩
    cases b with
    | list | tuple => simp [hasType, hitems, IsException, pure, Except.pure]
    | boolean => simp [hasType, h, IsException, pure, Except.pure]
    | booleanMarker => simp [hasType, IsException, isBoolean, pure, Except.pure]
    | integer =>
      cases hbool : st.inherits (st.typeOf v) (.builtin .boolean) <;>
        simp [hasType, isOf, h, IsException, hbool, isBoolean, pure, Except.pure]
    | _ => simp [hasType, isOf, h, IsException, pure, Except.pure]

theorem inherits_of_hasType (h : st.hasType (.ofClass c) v = .ok true) :
    st.inherits (st.typeOf v) c = true ∨
      (c = .builtin .booleanMarker ∧ st.isBoolean v = true) ∨
      ∃ b ∈ [Builtin.list, .tuple], c = .builtin b ∧ (st.arrayItems? v).isSome = true := by
  cases c with
  | defined n => exact .inl (Except.ok.inj h)
  | builtin b =>
    cases b with
    | list => exact .inr (.inr ⟨.list, by simp, rfl, Except.ok.inj h⟩)
    | tuple => exact .inr (.inr ⟨.tuple, by simp, rfl, Except.ok.inj h⟩)
    | booleanMarker => exact .inr (.inl ⟨rfl, Except.ok.inj h⟩)
    | integer =>
      refine .inl ?_
      simp only [hasType] at h
      split at h
      · cases h
      · exact Except.ok.inj h
    | _ => exact .inl (Except.ok.inj h)

theorem object_mem_linearization (b : Builtin) :
    .builtin .object ∈ st.linearization (.builtin b) := by
  cases b <;> simp [linearization, Builtin.linearization]

theorem eq_or_eq_object {b : Builtin} (hb : b ∈ [Builtin.booleanMarker, .list, .tuple])
    (hd : d ∈ st.linearization (.builtin b)) : d = .builtin b ∨ d = .builtin .object := by
  simp only [List.mem_cons, List.not_mem_nil, or_false] at hb
  rcases hb with rfl | rfl | rfl <;> simpa [linearization, Builtin.linearization] using hd

theorem hasType_ancestor_iff (hst : st.HasHierarchy) (hv : st.CarriesItems v)
    (hd : d ∈ st.linearization c) (h : st.hasType (.ofClass c) v = .ok true) :
    st.hasType (.ofClass d) v = .ok true ↔ ¬ st.IsException d v := by
  have hobject {b : Builtin} (hb : st.inherits (st.typeOf v) (.builtin b) = true) :
      st.hasType (.ofClass (.builtin .object)) v = .ok true ↔
        ¬ st.IsException (.builtin .object) v :=
    hasType_iff_of_inherits hv (hst.inherits_trans hb (object_mem_linearization b))
  rcases inherits_of_hasType h with hinherits | ⟨rfl, hbool⟩ | ⟨b, hb, rfl, hitems⟩
  · exact hasType_iff_of_inherits hv (hst.inherits_trans hinherits hd)
  · rcases eq_or_eq_object (by simp) hd with rfl | rfl
    · exact iff_of_true h (by simp [IsException, hbool])
    · exact hobject hbool
  · -- an array is one of the lists and one of the tuples, whichever of the two its class extends
    rcases eq_or_eq_object (List.mem_cons_of_mem _ hb) hd with rfl | rfl
    · have hexception : ¬ st.IsException (.builtin b) v := by
        simp only [List.mem_cons, List.not_mem_nil, or_false] at hb
        rcases hb with rfl | rfl <;> simp [IsException]
      exact iff_of_true h hexception
    · obtain ⟨b', -, hb'⟩ := (arrayItems?_isSome_iff hv).1 hitems
      exact hobject hb'

mutual
/-- One constraint may stand in place of another if it takes over all that it is asked about. -/
theorem takesOver_fill {t u : Constraint} (k : Constraint.Context) (v : Value)
    (h : ∀ w, st.Comprises v w → st.TakesOver t u w) : st.TakesOver (k.fill t) (k.fill u) v := by
  cases k with
  | hole => exact h v (.self v)
  | fixed c => exact fun hcompare ↦ ⟨hcompare, id⟩
  | array element =>
    intro hcompare
    simp only [Constraint.Context.fill, CanCompare, fits] at hcompare ⊢
    have hitem (items : List Value) (hv : st.arrayItems? v = some items) (item : Value)
        (hi : item ∈ items) := takesOver_fill element item
      (fun w hw ↦ h w (.item hv hi hw)) (hcompare items hv item hi)
    refine ⟨fun items hv item hi ↦ (hitem items hv item hi).1, ?_⟩
    cases hv : st.arrayItems? v with
    | none => exact id
    | some items =>
      simp only [Option.any_some, List.all_eq_true]
      exact fun hfits item hi ↦ (hitem items hv item hi).2 (hfits item hi)
  | union branches => exact takesOver_fillAll branches v h
termination_by structural k
theorem takesOver_fillAll {t u : Constraint} (ks : List Constraint.Context) (v : Value)
    (h : ∀ w, st.Comprises v w → st.TakesOver t u w) :
    st.CanCompareAll (Constraint.Context.fillAll t ks) v →
      st.CanCompareAll (Constraint.Context.fillAll u ks) v ∧
      (st.fitsAny (Constraint.Context.fillAll t ks) v = true →
        st.fitsAny (Constraint.Context.fillAll u ks) v = true) := by
  cases ks with
  | nil => exact fun hcompare ↦ ⟨hcompare, id⟩
  | cons k ks =>
    intro hcompare
    obtain ⟨hk, hfits⟩ := takesOver_fill k v h hcompare.1
    obtain ⟨hks, hfitsAny⟩ := takesOver_fillAll ks v h hcompare.2
    refine ⟨⟨hk, hks⟩, ?_⟩
    simp only [Constraint.Context.fillAll, fitsAny, Bool.or_eq_true]
    exact Or.imp hfits hfitsAny
termination_by structural ks
end

theorem fits_type_iff : st.fits (.type (.ofClass c)) v = true ↔
    st.hasType (.ofClass c) v = .ok true := by
  obtain ⟨b, hb⟩ := st.exists_hasType c v
  simp [fits, hb, Except.toOption]

theorem accepts_type_iff (hev : ev.IsIntact) (s : Session) :
    (∃ t, st.accepts ev (.type (.ofClass c)) v s = .ok true t) ↔
      st.hasType (.ofClass c) v = .ok true := by
  rw [accepts_eq_ok_iff hev (c := .type (.ofClass c)) trivial, fits_type_iff]
  exact and_iff_right trivial

/-- What the type of a class accepts, that of a class which it extends accepts as well, but for the
exceptions, which it rejects. Within arrays and unions the one type can take the place of the other
wherever it stands: a value that comprises no exception and is accepted remains so. -/
theorem accepts_ancestor (st : Store) (hst : st.HasHierarchy) (hev : ev.IsIntact)
    (hd : d ∈ st.linearization c) (v : Value) (s : Session) :
    (st.CarriesItems v → (∃ t, st.accepts ev (.type (.ofClass c)) v s = .ok true t) →
      ((∃ t, st.accepts ev (.type (.ofClass d)) v s = .ok true t) ↔ ¬ st.IsException d v)) ∧
    ∀ k : Constraint.Context, (k.fill (.type (.ofClass c))).IsProper →
      (∀ w, st.Comprises v w → st.CarriesItems w ∧
        (st.hasType (.ofClass c) w = .ok true → ¬ st.IsException d w)) →
      (∃ t, st.accepts ev (k.fill (.type (.ofClass c))) v s = .ok true t) →
      ∃ t, st.accepts ev (k.fill (.type (.ofClass d))) v s = .ok true t := by
  refine ⟨fun hv h ↦ ?_, fun k hk hw h ↦ ?_⟩
  · rw [accepts_type_iff hev] at h ⊢
    exact hasType_ancestor_iff hst hv hd h
  · have htypes (w : Value) (hvw : st.Comprises v w) :
        st.TakesOver (.type (.ofClass c)) (.type (.ofClass d)) w := by
      obtain ⟨hitems, hexception⟩ := hw w hvw
      refine fun _ ↦ ⟨trivial, fun hc ↦ ?_⟩
      have hc := fits_type_iff.1 hc
      exact fits_type_iff.2 ((hasType_ancestor_iff hst hitems hd hc).2 (hexception hc))
    obtain ⟨hcompare, hfits⟩ := (accepts_eq_ok_iff hev hk v s true).1 h
    obtain ⟨hcompare', hfits'⟩ := takesOver_fill k v htypes hcompare
    have hk' := Constraint.Context.isProper_fill k (u := .type (.ofClass d)) trivial hk
    exact (accepts_eq_ok_iff hev hk' v s true).2 ⟨hcompare', hfits' hfits⟩

def tagsDefined : State := after (defineClass "Tags" "store" [.builtin .list] []) .initial

def labelsDefined : State := after (defineClass "Labels" "store" [.defined 1] []) tagsDefined

def labelsMade : State := after (instantiate (.defined 2) [] []) labelsDefined

def labels : Value := .derived (.defined 2) (.list ⟨0⟩) ⟨1⟩

theorem hasHierarchy_labelsMade : labelsMade.store.HasHierarchy := by
  have htags : Change .initial tagsDefined := by
    refine .define ?_ "Tags" "store"
    exact List.forall_mem_singleton.2 trivial
  have hlabels : Change tagsDefined labelsDefined := by
    refine .define ?_ "Labels" "store"
    exact List.forall_mem_singleton.2 (by decide +kernel : 1 < tagsDefined.store.classes.size)
  have hmade : Change labelsDefined labelsMade :=
    .other (grows_instantiate _ _ _ labelsDefined).keeps
  exact (hasRegistries_of_changes (.tail (.tail (.single htags) hlabels) hmade)).hierarchy

/-- Of a text or an array of labels, the labels can be replaced by lists. -/
theorem accepts_ancestor_labels :
    let st := labelsMade.store
    let k := Constraint.Context.union [.fixed (.type (.ofClass (.builtin .text))), .array .hole]
    let v := Value.tuple [labels]
    instantiate (.defined 2) [] [] labelsDefined = .ok labels labelsMade ∧
      st.HasHierarchy ∧ Evaluator.shared.IsIntact ∧ .builtin .list ∈ st.linearization (.defined 2) ∧
      st.CarriesItems labels ∧
      (∃ t, st.accepts .shared (.type (.ofClass (.builtin .list))) labels .initial = .ok true t) ∧
      (k.fill (.type (.ofClass (.defined 2)))).IsProper ∧
      (∀ w, st.Comprises v w → st.CarriesItems w ∧
        (st.hasType (.ofClass (.defined 2)) w = .ok true → ¬ st.IsException (.builtin .list) w)) ∧
      ∃ t, st.accepts .shared (k.fill (.type (.ofClass (.builtin .list)))) v .initial =
        .ok true t := by
  intro st k v
  have hst : st.HasHierarchy := hasHierarchy_labelsMade
  have hev : Evaluator.shared.IsIntact := Evaluator.isIntact_ofPolicy none
  have hd : .builtin .list ∈ st.linearization (.defined 2) := by decide +kernel
  have hlabels : st.CarriesItems labels := by
    change _ ↔ _
    decide +kernel
  have hk : (k.fill (.type (.ofClass (.defined 2)))).IsProper := ⟨trivial, trivial, trivial⟩
  have hcomprised (w : Value) (hw : st.Comprises v w) : st.CarriesItems w ∧
      (st.hasType (.ofClass (.defined 2)) w = .ok true → ¬ st.IsException (.builtin .list) w) := by
    refine ⟨?_, fun _ hw ↦ by rcases hw with ⟨hw, -⟩ | ⟨hw, -⟩ <;> cases hw⟩
    cases hw with
    | self => trivial
    | item hv hitem hw =>
      cases hv
      obtain rfl := List.mem_singleton.1 hitem
      cases hw with
      | self => exact hlabels
      | item hv hitem hw =>
        cases hv
        cases hitem
  obtain ⟨htype, hreplaced⟩ := accepts_ancestor st hst hev hd v .initial
  obtain ⟨htype', -⟩ := accepts_ancestor st hst hev hd labels .initial
  refine ⟨rfl, hst, hev, hd, hlabels, ?_, hk, hcomprised, ?_⟩
  · exact (htype' hlabels ⟨_, rfl⟩).2 (by decide +kernel)
  · exact hreplaced k hk hcomprised ⟨_, rfl⟩

def flagsDefined : State :=
  after (defineClass "Flag" "flags" [.builtin .text, .builtin .booleanMarker] []) .initial

def flagsMade : State := after (instantiate (.defined 1) [] []) flagsDefined

def flag : Value := .derived (.defined 1) (.text "") ⟨1⟩

example : instantiate (.defined 1) [] [] flagsDefined = .ok flag flagsMade := rfl

/-- A new object of flags is accepted by their type, but it is no truth value. -/
theorem not_accepts_ancestor :
    ¬ ∀ (st : Store) (ev : Evaluator) (c d : ClassId) (v : Value) (s : Session), st.HasHierarchy →
      ev.IsIntact → d ∈ st.linearization c → st.CarriesItems v →
      (∃ t, st.accepts ev (.type (.ofClass c)) v s = .ok true t) →
      ¬ (d = .builtin .integer ∧ st.isBoolean v = true) →
      ∃ t, st.accepts ev (.type (.ofClass d)) v s = .ok true t := by
  intro h
  have hst : flagsMade.store.HasHierarchy := by
    have hflags : Change .initial flagsDefined := by
      refine .define ?_ "Flag" "flags"
      exact List.forall_mem_cons.2 ⟨trivial, List.forall_mem_singleton.2 trivial⟩
    have hmade : Change flagsDefined flagsMade :=
      .other (grows_instantiate _ _ _ flagsDefined).keeps
    exact (hasRegistries_of_changes (.tail (.single hflags) hmade)).hierarchy
  have hitems : flagsMade.store.CarriesItems flag := by
    change _ ↔ _
    decide +kernel
  have hmarker : .builtin .booleanMarker ∈ flagsMade.store.linearization (.defined 1) := by
    decide +kernel
  obtain ⟨t, ht⟩ := h flagsMade.store .shared (.defined 1) (.builtin .booleanMarker) flag .initial
    hst (Evaluator.isIntact_ofPolicy none) hmarker hitems ⟨_, rfl⟩ fun hd ↦ by cases hd.1
  cases ht

end Store

end Conformance
