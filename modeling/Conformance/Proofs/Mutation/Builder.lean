import Conformance.Proofs.Mutation.Judgement
import Conformance.Proofs.Name
import Conformance.Proofs.Registration.Declaration
import Conformance.Proofs.Shorthand.Groups

namespace Conformance

namespace Store

def IsArrayShorthand (st : Store) (spec : Value) (id : ListId) : Prop :=
  st.isConstraint spec = false ∧ spec.plain = .list id

/-- What a shorthand passes on to the constraint that is built from it: itself, or if it is a list
what its elements pass on. -/
inductive PassesOn (st : Store) : Value → Value → Prop
  | itself {spec : Value} (h : ∀ id, ¬ st.IsArrayShorthand spec id) : PassesOn st spec spec
  | element {spec element w : Value} {id : ListId} (hspec : st.IsArrayShorthand spec id)
      (h : element ∈ st.items id) (hw : PassesOn st element w) : PassesOn st spec w

theorem eq_of_passesOn {st : Store} {spec w : Value} (h : ∀ id, spec.plain ≠ .list id)
    (hw : st.PassesOn spec w) : w = spec := by
  cases hw with
  | itself _ => rfl
  | element hspec _ _ => exact (h _ hspec.2).elim

end Store

/-- A request for a constraint: of literals, of an array, of a shorthand, of a union, or of the
constructors that are given all values at once. -/
inductive Building
  | literalSet (values : List Value)
  | arrayOf (spec : Value)
  | coercion (spec : Value)
  | unionOf (specs : List Value)
  | literalsFrom (values : Value)
  | unionFrom (branches : Value)

namespace Building

def run : Building → Action Value
  | literalSet values => Action.built fun _ ↦ literalBlueprint values
  | arrayOf spec => Action.built (·.arrayBlueprint spec)
  | coercion spec => Action.built (·.shorthand spec)
  | unionOf specs => Action.built (·.unionBlueprint specs)
  | literalsFrom values => Action.literalsFrom values
  | unionFrom branches => Action.unionFrom branches

def PassesOn (st : Store) : Building → Value → Prop
  | literalSet values, w => w ∈ values
  | arrayOf spec, w | coercion spec, w => st.PassesOn spec w
  | unionOf specs, w => ∃ spec ∈ specs, st.PassesOn spec w
  | literalsFrom all, w | unionFrom all, w => ∃ ws, st.iterate all = .ok ws ∧ w ∈ ws

end Building

mutual
/-- What a blueprint takes from elsewhere has a property. -/
def Blueprint.Takes (P : Value → Prop) : Blueprint → Prop
  | .given c => P c
  | .type target => ∃ c, target = .ofClass c
  | .literals values => ∀ v ∈ values, P v
  | .array element => element.Takes P
  | .union branches => Blueprint.AllTake P branches
termination_by structural b => b
def Blueprint.AllTake (P : Value → Prop) : List Blueprint → Prop
  | [] => True
  | b :: bs => b.Takes P ∧ Blueprint.AllTake P bs
termination_by structural bs => bs
end

section Reading

variable {st : Store} {P : Value → Prop}

theorem takes_of_literalBlueprint {values : List Value} {b : Blueprint}
    (h : literalBlueprint values = .ok b) (hP : ∀ v ∈ values, P v) : b.Takes P := by
  unfold literalBlueprint at h
  split at h
  · cases h
  · cases h
    exact hP

namespace Store

theorem takes_of_shorthandWithin (depth : Nat) {spec : Value} {b : Blueprint}
    (h : st.shorthandWithin depth spec = .ok b) (hP : ∀ w, st.PassesOn spec w → P w) :
    b.Takes P := by
  -- a list passes on what its element passes on, one level further down
  induction depth generalizing spec b with
  | zero => cases h
  | succ depth ih =>
    unfold shorthandWithin at h
    split at h
    · next hconstraint =>
      cases h
      refine hP spec (.itself fun id hlist ↦ ?_)
      rw [hlist.1] at hconstraint
      cases hconstraint
    · next hconstraint =>
      split at h
      · next c _ =>
        cases h
        exact ⟨c, rfl⟩
      · next id hlist =>
        have hspec : st.IsArrayShorthand spec id := ⟨Bool.eq_false_iff.2 hconstraint, hlist⟩
        split at h
        · next element hitems =>
          obtain ⟨b', hb', h⟩ := answer_of_bind h
          cases h
          have htakes : b'.Takes P := by
            refine ih hb' fun w hw ↦ hP w (.element hspec ?_ hw)
            rw [hitems]
            exact List.mem_singleton_self element
          exact htakes
        · cases h
      · obtain ⟨s, -, h⟩ := answer_of_bind h
        cases h

theorem passesOn_of_literal {spec : Value} (h : st.standsForConstraint spec = false) :
    st.PassesOn spec spec := by
  refine .itself fun id hlist ↦ ?_
  rw [standsForConstraint, hlist.2] at h
  simp at h

theorem takes_of_groupBlueprint {specs group : List Value} (hgroup : group ∈ st.unionGroups specs)
    {b : Blueprint} (h : st.groupBlueprint group = .ok b)
    (hP : ∀ spec ∈ group, ∀ w, st.PassesOn spec w → P w) : b.Takes P := by
  rcases group_cases hgroup with ⟨-, hrun, hread⟩ | ⟨spec, rfl, -, hread⟩
  · cases hread.symm.trans h
    exact fun v hv ↦ hP v hv v (passesOn_of_literal (hrun v hv))
  · exact takes_of_shorthandWithin _ (hread.symm.trans h) (hP spec (List.mem_singleton_self spec))

theorem allTake_of_mapM {groups : List (List Value)} {f : List Value → Except Fault Blueprint}
    {bs : List Blueprint} (h : groups.mapM f = .ok bs)
    (hP : ∀ group ∈ groups, ∀ b, f group = .ok b → b.Takes P) : Blueprint.AllTake P bs := by
  have hall : ∀ b ∈ bs, b.Takes P := fun b hb ↦
    let ⟨group, hgroup, hb⟩ := exists_of_mem_mapM h b hb
    hP group hgroup b hb
  clear h
  induction bs with
  | nil => trivial
  | cons b bs ih =>
    obtain ⟨hb, hbs⟩ := List.forall_mem_cons.1 hall
    exact ⟨hb, ih hbs⟩

theorem takes_of_unionBlueprint {specs : List Value} {b : Blueprint}
    (h : st.unionBlueprint specs = .ok b) (hP : ∀ spec ∈ specs, ∀ w, st.PassesOn spec w → P w) :
    b.Takes P := by
  cases specs with
  | nil => cases h
  | cons spec specs =>
    rw [unionBlueprint_eq (List.cons_ne_nil spec specs), map_eq_pure_bind] at h
    obtain ⟨bs, hbs, h⟩ := answer_of_bind h
    cases h
    exact allTake_of_mapM hbs fun group hgroup b hb ↦
      takes_of_groupBlueprint hgroup hb fun spec hspec ↦ hP spec (mem_of_mem_group hgroup hspec)

end Store

end Reading

namespace Store

variable {st : Store}

section Single

variable {c : ClassId} {id : ObjectId} {part : String} {v w : Value}
  (hcell : attributesCell? (.object c id) = some id)
  (hattributes : (st.object id).attributes = [(.text part, v)])

include hcell hattributes

theorem ownAttribute?_single : st.ownAttribute? (.object c id) part = some v := by
  rw [ownAttribute?, hcell, Option.bind_some, Entries.get?_text _ Value.comparesNames, hattributes,
    Entries.named?_cons]
  simp [Value.text?, Value.plain]

theorem plainAttribute?_single : st.plainAttribute? (.object c id) part = some v := by
  rw [plainAttribute?, ownAttribute?_single hcell hattributes]
  rfl

theorem attributeOfProperty_single {p : Property}
    (h : st.attributeOfProperty (.object c id) p = .ok w) : w = v ∨ ∃ p, w = .property p := by
  have hown {name : String}
      (h : st.found (.object c id) name (st.ownAttribute? (.object c id) name) = .ok w) : w = v := by
    unfold found at h
    rw [ownAttribute?, hcell, Option.bind_some, hattributes] at h
    split at h
    · next w' hw =>
      cases h
      exact Entries.eq_of_get?_single hw
    · cases h
  cases p with
  | part owner name => cases h
  | memberName => exact .inl (hown h)
  | memberValue => exact .inl (hown h)
  | validity | message | policy =>
    cases h
    exact .inr ⟨_, rfl⟩

theorem attributeOfField_single {field : Value}
    (h : st.attributeOfField (.object c id) field = .ok w) : w = v ∨ w = .nil := by
  obtain ⟨name, -, h⟩ := answer_of_bind h
  obtain ⟨-, -, h⟩ := answer_of_bind h
  rw [hcell, Option.bind_some, hattributes] at h
  cases hget : Entries.get? [(Value.text part, v)] name with
  | some w' =>
    rw [hget] at h
    cases h
    exact .inl (Entries.eq_of_get?_single hget)
  | none =>
    rw [hget] at h
    cases h
    exact .inr rfl

/-- An object with a single attribute of its own shows this attribute, or what stands for it not
being there. -/
theorem attributeOf_single (hcommon : st.commonAttribute? (.object c id) part = none)
    (h : st.attributeOf (.object c id) part = .ok w) :
    w = v ∨ w = .nil ∨ ∃ p, w = .property p := by
  have hown := ownAttribute?_single hcell hattributes
  rw [attributeOf] at h
  · split at h
    · rcases attributeOfProperty_single hcell hattributes h with hw | hw
      · exact .inl hw
      · exact .inr (.inr hw)
    · split at h
      · rcases attributeOfField_single hcell hattributes h with hw | hw
        · exact .inl hw
        · exact .inr (.inl hw)
      · rw [hown] at h
        cases h
        exact .inl rfl
    · rw [hcommon, hown] at h
      cases h
      exact .inl rfl
  · intro d hd
    cases hd

end Single

theorem fixed_of_attributes {b : Builtin} {id : ObjectId} {part : String} {v : Value}
    (hb : b = .typeConstraint ∨ b = .literalConstraint ∨ b = .arrayConstraint ∨ b = .unionConstraint)
    (hpart : b.parts = [part]) (hattributes : (st.object id).attributes = [(.text part, v)])
    (hv : st.Fixed v) (htype : b = .typeConstraint → ∃ c, v = .ofClass c)
    (hitems : b = .literalConstraint ∨ b = .unionConstraint →
      ∀ ws, st.iterate v = .ok ws → ∀ w ∈ ws, st.Fixed w) :
    st.Fixed (.object (.builtin b) id) := by
  have hcell : attributesCell? (.object (.builtin b) id) = some id := by
    rcases hb with rfl | rfl | rfl | rfl <;> rfl
  have hcommon : st.commonAttribute? (.object (.builtin b) id) part = none := by
    rcases hb with rfl | rfl | rfl | rfl <;> cases hpart <;> rfl
  have hnature : st.natureOf (.object (.builtin b) id) = .record b := by
    rcases hb with rfl | rfl | rfl | rfl <;> rfl
  have henum : st.isEnum (st.typeOf (.object (.builtin b) id)) = false := by
    rcases hb with rfl | rfl | rfl | rfl <;> rfl
  have hkey : (st.nature (.builtin b)).MayBeKey := by
    rcases hb with rfl | rfl | rfl | rfl <;> exact rfl
  have hshown {name : String} (hname : name ∈ b.parts) {w : Value}
      (hw : st.attributeOf (.object (.builtin b) id) name = .ok w) :
      w = v ∨ w = .nil ∨ ∃ p, w = .property p := by
    rw [hpart] at hname
    cases List.mem_singleton.1 hname
    exact attributeOf_single hcell hattributes hcommon hw
  -- whatever is read of the object comes down to its only part
  refine .object hkey fun w hread ↦ ?_
  cases hread with
  | part hv' hname hw =>
    cases hnature.symm.trans hv'
    rcases hshown hname hw with rfl | rfl | ⟨p, rfl⟩
    · exact hv
    · exact .atom trivial
    · exact .atom trivial
  | keyPart hv' hname hw =>
    cases hnature.symm.trans hv'
    rw [hpart] at hname
    cases List.mem_singleton.1 hname
    cases (plainAttribute?_single hcell hattributes).symm.trans hw
    exact hv
  | item hv' hb' hname hw hws hx =>
    cases hnature.symm.trans hv'
    rcases hshown hname hw with rfl | rfl | ⟨p, rfl⟩
    · exact hitems hb' _ hws _ hx
    · cases hws
    · cases hws
  | targetName hv' htarget hw =>
    cases hnature.symm.trans hv'
    rcases hshown (List.mem_singleton_self _) htarget with rfl | rfl | ⟨p, rfl⟩
    · obtain ⟨k, rfl⟩ := htype rfl
      cases hw
      exact .atom trivial
    · cases hw
    · cases hw
  | fieldPart hv' => cases hnature.symm.trans hv'
  | memberPart hv' => cases henum.symm.trans hv'
  | memberName hv' => cases henum.symm.trans hv'

end Store

namespace Action

variable {s s₁ : State} {st : Store} {c : Value}

theorem newObject_eq_ok {k : ClassId} {attributes : Entries Value Value}
    (h : newObject k attributes s = .ok c s₁) : ∃ id, c = .object k id ∧
      s.store.Grows s₁.store ∧ ∀ st, s₁.store.Grows st → (st.object id).attributes = attributes := by
  have hrun : newObject k attributes s = .ok (.object k ⟨s.store.objects.size⟩)
      { s with store := (s.store.newObject ⟨"", attributes⟩).2 } := rfl
  cases hrun.symm.trans h
  refine ⟨_, rfl, Store.grows_newObject _ _, fun st hgrows ↦ ?_⟩
  have hlt : s.store.objects.size < (s.store.newObject ⟨"", attributes⟩).2.objects.size :=
    Nat.lt_of_lt_of_eq (Nat.lt_succ_self _) (Table.size_add _ _).symm
  have hobject : st.object ⟨s.store.objects.size⟩ = ⟨"", attributes⟩ :=
    (hgrows.object_eq _ hlt).trans (Table.get_add_size _ _)
  exact congrArg Object.attributes hobject

theorem fixed_of_newType {k : ClassId} (h : newType (.ofClass k) s = .ok c s₁)
    (hgrows : s₁.store.Grows st) : st.Fixed c := by
  obtain ⟨id, rfl, -, hattributes⟩ := newObject_eq_ok h
  exact Store.fixed_of_attributes (.inl rfl) rfl (hattributes st hgrows) (.atom trivial)
    (fun _ ↦ ⟨k, rfl⟩) (by simp)

theorem fixed_of_newLiterals {literals : List Value} (h : newLiterals literals s = .ok c s₁)
    (hgrows : s₁.store.Grows st) (hliterals : ∀ v ∈ literals, st.Fixed v) : st.Fixed c := by
  obtain ⟨id, rfl, -, hattributes⟩ := newObject_eq_ok h
  refine Store.fixed_of_attributes (.inr (.inl rfl)) rfl (hattributes st hgrows) (.tuple hliterals)
    (by simp) fun _ ws hws ↦ ?_
  cases hws
  exact hliterals

theorem fixed_of_newArray {element : Value} (h : newArray element s = .ok c s₁)
    (hgrows : s₁.store.Grows st) (helement : st.Fixed element) : st.Fixed c := by
  obtain ⟨id, rfl, -, hattributes⟩ := newObject_eq_ok h
  exact Store.fixed_of_attributes (.inr (.inr (.inl rfl))) rfl (hattributes st hgrows) helement
    (by simp) (by simp)

theorem fixed_of_newUnion {branches : List Value} (h : newUnion branches s = .ok c s₁)
    (hgrows : s₁.store.Grows st) (hbranches : ∀ v ∈ branches, st.Fixed v) : st.Fixed c := by
  obtain ⟨id, rfl, -, hattributes⟩ := newObject_eq_ok h
  refine Store.fixed_of_attributes (.inr (.inr (.inr rfl))) rfl (hattributes st hgrows)
    (.tuple hbranches) (by simp) fun _ ws hws ↦ ?_
  cases hws
  exact hbranches

mutual
theorem fixed_of_build (b : Blueprint) {s s₁ : State} {c : Value} (h : build b s = .ok c s₁)
    (hgrows : s₁.store.Grows st) (hb : b.Takes st.Fixed) : st.Fixed c := by
  cases b with
  | given c' =>
    cases h
    exact hb
  | type target =>
    obtain ⟨k, rfl⟩ := hb
    exact fixed_of_newType h hgrows
  | literals values => exact fixed_of_newLiterals h hgrows hb
  | array element =>
    obtain ⟨v, s', hbuild, hnew⟩ := bind_eq_ok h
    obtain ⟨id, rfl, hgrows', -⟩ := newObject_eq_ok hnew
    exact fixed_of_newArray hnew hgrows (fixed_of_build element hbuild (hgrows'.trans hgrows) hb)
  | union branches =>
    obtain ⟨vs, s', hbuild, hnew⟩ := bind_eq_ok h
    obtain ⟨id, rfl, hgrows', -⟩ := newObject_eq_ok hnew
    exact fixed_of_newUnion hnew hgrows (fixed_of_buildAll branches hbuild (hgrows'.trans hgrows) hb)
termination_by structural b
theorem fixed_of_buildAll (bs : List Blueprint) {s s₁ : State} {vs : List Value}
    (h : buildAll bs s = .ok vs s₁) (hgrows : s₁.store.Grows st)
    (hbs : Blueprint.AllTake st.Fixed bs) : ∀ v ∈ vs, st.Fixed v := by
  cases bs with
  | nil =>
    cases h
    intro v hv
    cases hv
  | cons b bs =>
    obtain ⟨v, s', hv, h⟩ := bind_eq_ok h
    obtain ⟨vs', s'', hvs, h⟩ := bind_eq_ok h
    cases h
    obtain ⟨vs'', t, hrun, hgrows'⟩ := buildAll_run bs s'
    cases hrun.symm.trans hvs
    exact List.forall_mem_cons.2 ⟨fixed_of_build b hv (hgrows'.trans hgrows) hbs.1,
      fixed_of_buildAll bs hvs hgrows hbs.2⟩
termination_by structural bs
end

/-- A constraint is fixed from when it is built, wherever what is passed on to it is. -/
theorem fixed_of_building {b : Building} (hrun : b.run s = .ok c s₁) (hgrows : s₁.store.Grows st)
    (hpassed : ∀ w, b.PassesOn s.store w → st.Fixed w) : st.Fixed c := by
  have hbuilt {read : Store → Except Fault Blueprint} (h : built read s = .ok c s₁)
      (htakes : ∀ b, read s.store = .ok b → b.Takes st.Fixed) : st.Fixed c := by
    obtain ⟨blueprint, s', hask, hbuild⟩ := bind_eq_ok h
    obtain ⟨hread, rfl⟩ := ask_eq_ok hask
    exact fixed_of_build blueprint hbuild hgrows (htakes blueprint hread)
  cases b with
  | literalSet values =>
    exact hbuilt hrun fun b hb ↦ takes_of_literalBlueprint hb hpassed
  | arrayOf spec =>
    refine hbuilt hrun fun b hb ↦ ?_
    obtain ⟨element, helement, hb⟩ := answer_of_bind hb
    cases hb
    have htakes : element.Takes st.Fixed := Store.takes_of_shorthandWithin _ helement hpassed
    exact htakes
  | coercion spec =>
    exact hbuilt hrun fun b hb ↦ Store.takes_of_shorthandWithin _ hb hpassed
  | unionOf specs =>
    exact hbuilt hrun fun b hb ↦
      Store.takes_of_unionBlueprint hb fun spec hspec w hw ↦ hpassed w ⟨spec, hspec, hw⟩
  | literalsFrom values =>
    obtain ⟨ws, s', hask, hnew⟩ := bind_eq_ok hrun
    obtain ⟨hws, rfl⟩ := ask_eq_ok hask
    exact fixed_of_newLiterals hnew hgrows fun w hw ↦ hpassed w ⟨ws, hws, hw⟩
  | unionFrom branches =>
    obtain ⟨isTrue, s', hask, h⟩ := bind_eq_ok hrun
    obtain ⟨-, rfl⟩ := ask_eq_ok hask
    split at h
    · obtain ⟨ws, s', hask, hnew⟩ := bind_eq_ok h
      obtain ⟨hws, rfl⟩ := ask_eq_ok hask
      exact fixed_of_newUnion hnew hgrows fun w hw ↦ hpassed w ⟨ws, hws, hw⟩
    · cases h

/-- A constraint that is built of what carries no state carries none either: after any appends and
puts it may still be a key, it has the name that it had, and it judges all values as before that
hold in the places where it looks what they held. The lists of which it was built do not matter. -/
theorem built_constraint_lasts (b : Building) (hrun : b.run s = .ok c s₁)
    (hpassed : ∀ w, b.PassesOn s.store w → s₁.store.Fixed w)
    (hst : Relation.ReflTransGen Store.Mutation s₁.store st) :
    st.hash c = .ok () ∧
    st.constraintName (st.constraint c) = s₁.store.constraintName (s₁.store.constraint c) ∧
    ∀ (ev : Evaluator) (v : Value), s₁.store.SeesAlike st (s₁.store.constraint c) v →
      st.accepts ev (st.constraint c) v = s₁.store.accepts ev (s₁.store.constraint c) v := by
  have hrefills := Store.refills_of_mutations hst
  have hc : s₁.store.Fixed c := fixed_of_building hrun (.refl _) hpassed
  have hleaves := Store.leaves_constraint hc
  rw [Store.constraint_congr hrefills hc]
  exact ⟨(hc.refill hrefills).hash_eq_ok, Store.constraintName_congr hrefills _ hleaves,
    fun ev v hv ↦ Store.accepts_congr hrefills ev _ hleaves v hv⟩

def withShorthand : Store :=
  { Store.initial with lists := ⟨#[[.ofClass (.builtin .integer)]]⟩ }

/-- A text, an array of integers or one of two labels. That a second element is appended to the list
that has told what arrays hold does not change the constraint. -/
theorem built_constraint_lasts_labels :
    let label := Building.unionOf [.ofClass (.builtin .text), .list ⟨0⟩, .text "draft",
      .tuple [.text "final", .int 1]]
    ∃ c s₁ st r, label.run ⟨withShorthand, .initial⟩ = .ok c s₁ ∧
      (∀ w, label.PassesOn withShorthand w → s₁.store.Fixed w) ∧
      s₁.store.append (.list ⟨0⟩) (.ofClass (.builtin .float)) = .ok st ∧
      st.hash c = .ok () ∧
      st.constraintName (st.constraint c) =
        .ok "String or Array of Integer or :draft, ('final', 1)" ∧
      st.accepts .shared (st.constraint c) (.tuple [.text "final"]) .initial = .ok false r := by
  intro label
  have hpassed {st : Store} (w : Value) (hw : label.PassesOn withShorthand w) : st.Fixed w := by
    obtain ⟨spec, hspec, hw⟩ := hw
    simp only [List.mem_cons, List.not_mem_nil, or_false] at hspec
    rcases hspec with rfl | rfl | rfl | rfl
    · cases Store.eq_of_passesOn (by simp [Value.plain]) hw
      exact .atom trivial
    · cases hw with
      | itself h => exact (h ⟨0⟩ ⟨rfl, rfl⟩).elim
      | element hlist helement hw =>
        cases hlist.2
        cases List.mem_singleton.1 helement
        cases Store.eq_of_passesOn (by simp [Value.plain]) hw
        exact .atom trivial
    · cases Store.eq_of_passesOn (by simp [Value.plain]) hw
      exact .atom trivial
    · cases Store.eq_of_passesOn (by simp [Value.plain]) hw
      refine .tuple fun v hv ↦ ?_
      simp only [List.mem_cons, List.not_mem_nil, or_false] at hv
      rcases hv with rfl | rfl <;> exact .atom trivial
  have hrun : ∃ c s₁ st, label.run ⟨withShorthand, .initial⟩ = .ok c s₁ ∧
      s₁.store.append (.list ⟨0⟩) (.ofClass (.builtin .float)) = .ok st ∧
      s₁.store.constraintName (s₁.store.constraint c) =
        .ok "String or Array of Integer or :draft, ('final', 1)" ∧
      (∃ r, s₁.store.accepts .shared (s₁.store.constraint c) (.tuple [.text "final"]) .initial =
        .ok false r) ∧
      s₁.store.SeesAlike st (s₁.store.constraint c) (.tuple [.text "final"]) :=
    ⟨_, _, _, rfl, rfl, eq_ok_of_toOption (by decide +kernel), ⟨_, rfl⟩,
      trivial, ⟨rfl, fun _ _ _ _ ↦ trivial⟩, trivial, trivial⟩
  obtain ⟨c, s₁, st, hrun, happend, hname, ⟨r, hr⟩, hsees⟩ := hrun
  obtain ⟨hhash, hsame, haccepts⟩ :=
    built_constraint_lasts label hrun hpassed (.single (.append rfl happend))
  exact ⟨c, s₁, st, r, hrun, hpassed, happend, hhash, hsame.trans hname,
    (congrFun (haccepts _ _ hsees) _).trans hr⟩

def withEntries : Store :=
  { Store.initial with
    dictionaries := ⟨#[[], [(.text "a", .int 1)], [(.text "a", .int 1)]]⟩ }

/-- A dictionary is passed on as it is, so that a constraint with a dictionary for a literal cannot
be a key, and has another name and another verdict as soon as something is put into the dictionary.
-/
theorem exists_built_constraint_changes :
    let literal := Value.dictionary (.cell 1)
    let v := Value.dictionary (.cell 2)
    ∃ c s₁ st, (Building.literalSet [literal]).run ⟨withEntries, .initial⟩ = .ok c s₁ ∧
      s₁.store.putItem literal (.text "a") (.int 2) = .ok st ∧
      (∃ e, st.hash c = .error e) ∧
      s₁.store.constraintName (s₁.store.constraint c) = .ok "\x7b'a': 1\x7d" ∧
      st.constraintName (st.constraint c) = .ok "\x7b'a': 2\x7d" ∧
      (∃ r, s₁.store.accepts .shared (s₁.store.constraint c) v .initial = .ok true r) ∧
      ∃ r, st.accepts .shared (st.constraint c) v .initial = .ok false r :=
  ⟨_, _, _, rfl, rfl, ⟨_, rfl⟩, eq_ok_of_toOption (by decide +kernel),
    eq_ok_of_toOption (by decide +kernel), ⟨_, rfl⟩, ⟨_, rfl⟩⟩

end Action

end Conformance
