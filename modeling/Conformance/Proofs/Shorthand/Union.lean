import Conformance.Proofs.Equality.Decision
import Conformance.Proofs.Shorthand.Coercion

namespace Conformance

theorem forall₂_of_mapM {α β : Type} {f : α → Except Fault β} {l : List α} {bs : List β}
    (h : l.mapM f = .ok bs) : List.Forall₂ (fun a b ↦ f a = .ok b) l bs := by
  induction l generalizing bs with
  | nil =>
    cases h
    exact .nil
  | cons a l ih =>
    rw [List.mapM_cons] at h
    obtain ⟨b, hb, h⟩ := answer_of_bind h
    obtain ⟨bs', hbs, h⟩ := answer_of_bind h
    cases h
    exact .cons hb (ih hbs)

theorem forall₂_join {α β γ : Type} {R : α → β → Prop} {S : β → γ → Prop} {T : α → γ → Prop}
    {l : List α} {m : List β} {n : List γ} (h : List.Forall₂ R l m) (h' : List.Forall₂ S m n)
    (hT : ∀ a ∈ l, ∀ b c, R a b → S b c → T a c) : List.Forall₂ T l n := by
  induction h generalizing n with
  | nil =>
    cases h'
    exact .nil
  | cons hab _ ih =>
    cases h' with
    | cons hbc h' =>
      obtain ⟨ha, hl⟩ := List.forall_mem_cons.1 hT
      exact .cons (ha _ _ hab hbc) (ih h' hl)

theorem exists_forall₂ {α β : Type} {R : α → β → Prop} {l : List α} (h : ∀ a ∈ l, ∃ b, R a b) :
    ∃ m, List.Forall₂ R l m := by
  induction l with
  | nil => exact ⟨[], .nil⟩
  | cons a l ih =>
    obtain ⟨⟨b, ha⟩, hl⟩ := List.forall_mem_cons.1 h
    obtain ⟨m, hm⟩ := ih hl
    exact ⟨b :: m, .cons ha hm⟩

theorem any_iff_of_forall₂ {α : Type} {P : α → Prop} {groups : List (List α)}
    {verdicts : List Bool}
    (h : List.Forall₂ (fun group verdict ↦ verdict = true ↔ ∃ a ∈ group, P a) groups verdicts) :
    verdicts.any id = true ↔ ∃ a ∈ groups.flatten, P a := by
  induction h with
  | nil => simp
  | @cons group verdict groups verdicts hgroup _ ih =>
    rw [List.any_cons, Bool.or_eq_true, ih, id, hgroup]
    simp only [List.flatten_cons, List.mem_append, or_and_right, exists_or]

namespace Store

/-- How the branches of a union come from what is given to it. A run of literals has become one new
constraint, a constraint is a branch itself, and a class or a list has become what it stands for. -/
inductive IsBranch (s st : Store) : List Value → Value → Prop
  | run {literals : List Value} {id : ObjectId} (hne : literals ≠ []) (h : s.IsRun literals)
      (hnew : s.objects.size ≤ id.index)
      (hid : (st.object id).attributes = [(.text "values", .tuple literals)]) :
      IsBranch s st literals (.object (.builtin .literalConstraint) id)
  | itself {c : Value} (h : s.isConstraint c = true) : IsBranch s st [c] c
  | coerced {spec c : Value} {b : Blueprint} (h : s.isConstraint spec = false)
      (hspec : s.standsForConstraint spec = true) (hb : s.shorthand spec = .ok b)
      (hc : st.IsBuilt s.objects.size b c) : IsBranch s st [spec] c

/-- A union whose branches come from groups of what was given to it, one after the other. No two runs
of literals are neighbours. -/
def IsUnion (s st : Store) (specs : List Value) (c : Value) : Prop :=
  ∃ groups id branches, groups.flatten = specs ∧
    groups.IsChain (fun g g' ↦ ¬ (s.IsRun g ∧ s.IsRun g')) ∧
    s.objects.size ≤ id.index ∧ c = .object (.builtin .unionConstraint) id ∧
    (st.object id).attributes = [(.text "branches", .tuple branches)] ∧
    List.Forall₂ (s.IsBranch st) groups branches

variable {st : Store} {specs group : List Value} {spec : Value} {b : Blueprint}

theorem unionBlueprint_cases (st : Store) (specs : List Value) :
    (specs = [] ∧ st.unionBlueprint specs = .error .noBranches) ∨
    (∃ spec ∈ specs, ∃ e, st.standsForConstraint spec = true ∧ st.shorthand spec = .error e ∧
      st.unionBlueprint specs = .error e) ∨
    (specs ≠ [] ∧
      (∀ spec ∈ specs, st.standsForConstraint spec = true → ∃ b, st.shorthand spec = .ok b) ∧
      ∃ bs, (st.unionGroups specs).mapM st.groupBlueprint = .ok bs ∧
        st.unionBlueprint specs = .ok (.union bs)) := by
  by_cases hnil : specs = []
  · subst hnil
    exact .inl ⟨rfl, rfl⟩
  have hread : st.unionBlueprint specs =
      .union <$> (st.unionGroups specs).mapM st.groupBlueprint := unionBlueprint_eq hnil
  -- a group that fails is a shorthand by itself: runs of literals are read without fail
  by_cases hfails : ∃ group ∈ st.unionGroups specs, ∃ e, st.groupBlueprint group = .error e
  · obtain ⟨group, hgroup, e, he, hmap⟩ := mapM_error hfails
    rcases group_cases hgroup with ⟨-, -, hrun⟩ | ⟨spec, rfl, hspec, hshort⟩
    · rw [he] at hrun
      cases hrun
    · have hmem := mem_of_mem_group hgroup (List.mem_singleton_self spec)
      exact .inr (.inl ⟨spec, hmem, e, hspec, hshort.symm.trans he, by rw [hread, hmap]; rfl⟩)
  · have hok : ∀ group ∈ st.unionGroups specs, ∃ b, st.groupBlueprint group = .ok b := by
      intro group hgroup
      cases hb : st.groupBlueprint group with
      | ok b => exact ⟨b, rfl⟩
      | error e => exact (hfails ⟨group, hgroup, e, hb⟩).elim
    obtain ⟨bs, hbs⟩ := exists_mapM hok
    refine .inr (.inr ⟨hnil, fun spec hmem hspec ↦ ?_, bs, hbs, by rw [hread, hbs]; rfl⟩)
    obtain ⟨group, hgroup, hmem⟩ := exists_group st hmem
    rcases group_cases hgroup with ⟨-, hrun, -⟩ | ⟨spec', rfl, -, hshort⟩
    · rw [hrun spec hmem] at hspec
      cases hspec
    · cases List.mem_singleton.1 hmem
      obtain ⟨b, hb⟩ := hok _ hgroup
      exact ⟨b, hshort.symm.trans hb⟩

theorem isArrayShorthand_of_error {e : Fault} (hspec : st.standsForConstraint spec = true)
    (h : st.shorthand spec = .error e) : ∃ id, st.IsArrayShorthand spec id := by
  have hcore (b : Blueprint) : st.coreBlueprint? spec ≠ some b := by
    intro hb
    rw [shorthand, shorthandWithin_of_core hb] at h
    cases h
  unfold coreBlueprint? at hcore
  unfold standsForConstraint at hspec
  cases hconstraint : st.isConstraint spec with
  | true => exact (hcore _ (if_pos hconstraint)).elim
  | false =>
    rw [hconstraint, Bool.false_or] at hspec
    split at hspec
    · next c hc =>
      rw [hconstraint, hc] at hcore
      exact (hcore _ rfl).elim
    · next id hid => exact ⟨id, hconstraint, hid⟩
    · cases hspec

theorem areBuilt_iff {n : Nat} {bs : List Blueprint} {vs : List Value} :
    st.AreBuilt n bs vs ↔ List.Forall₂ (st.IsBuilt n) bs vs := by
  induction bs generalizing vs with
  | nil =>
    rw [List.forall₂_nil_left_iff]
    rfl
  | cons b bs ih =>
    cases vs with
    | nil => simp [AreBuilt]
    | cons v vs => rw [List.forall₂_cons, ← ih, AreBuilt]

theorem areWhole_iff {bs : List Blueprint} : st.AreWhole bs ↔ ∀ b ∈ bs, st.IsWhole b := by
  induction bs with
  | nil => simp [AreWhole]
  | cons b bs ih => rw [AreWhole, ih, List.forall_mem_cons]

theorem treesOf_eq_map (st : Store) (bs : List Blueprint) : st.treesOf bs = bs.map st.treeOf := by
  induction bs with
  | nil => rfl
  | cons b bs ih => rw [treesOf, ih, List.map_cons]

theorem isBranch_of_group {s st : Store} (hgroup : group ∈ s.unionGroups specs) {c : Value}
    (hb : s.groupBlueprint group = .ok b) (hc : st.IsBuilt s.objects.size b c) : s.IsBranch st group c := by
  rcases group_cases hgroup with ⟨hne, hrun, hread⟩ | ⟨spec, rfl, hspec, hread⟩
  · cases hread.symm.trans hb
    obtain ⟨id, hnew, rfl, hid⟩ := hc
    exact .run hne hrun hnew hid
  · rw [hread] at hb
    cases hconstraint : s.isConstraint spec with
    | true =>
      cases (shorthand_of_isConstraint hconstraint).symm.trans hb
      cases hc
      exact .itself hconstraint
    | false => exact .coerced hconstraint hspec hb hc

theorem isUnion_of_isBuilt {s st : Store} {bs : List Blueprint} {c : Value}
    (hbs : (s.unionGroups specs).mapM s.groupBlueprint = .ok bs)
    (hc : st.IsBuilt s.objects.size (.union bs) c) : s.IsUnion st specs c := by
  obtain ⟨id, branches, hnew, rfl, hid, hbranches⟩ := hc
  refine ⟨_, id, branches, s.flatten_unionGroups specs, s.isChain_unionGroups specs, hnew, rfl, hid, ?_⟩
  exact forall₂_join (forall₂_of_mapM hbs) (areBuilt_iff.1 hbranches) fun group hgroup b c hb hc ↦
    isBranch_of_group hgroup hb hc

section Verdicts

variable {ev : Evaluator} (hev : ev.IsIntact) {v : Value} {verdict : Bool}

include hev

theorem accepts_literals_iff {literals : List Value} :
    (st.accepts ev (.literals literals) v).Answers verdict ↔
      st.isAnyLiteral literals v = .ok verdict := by
  rw [accepts]
  constructor
  · intro h
    obtain ⟨s, t, h⟩ := exists_run_of_call hev h
    exact Check.of_ofExcept_run h
  · exact fun h ↦ .bind (answers_call hev _ _) (.ofExcept h)

theorem answers_union {ts : List Constraint} {verdicts : List Bool}
    (h : List.Forall₂ (fun t verdict ↦ (st.accepts ev t v).Answers verdict) ts verdicts) :
    (st.accepts ev (.union ts) v).Answers (verdicts.any id) := by
  rw [accepts, acceptsEach_eq_mapM]
  exact .bind (answers_call hev _ _) (.bind (.mapM h) (.pure _))

theorem exists_verdicts {ts : List Constraint}
    (h : (st.accepts ev (.union ts) v).Answers verdict) :
    ∃ verdicts, List.Forall₂ (fun t verdict ↦ (st.accepts ev t v).Answers verdict) ts verdicts ∧
      verdicts.any id = verdict := by
  rw [accepts, acceptsEach_eq_mapM] at h
  obtain ⟨s, t, h⟩ := exists_run_of_call hev h
  obtain ⟨verdicts, s', hverdicts, h⟩ := bind_eq_ok h
  refine ⟨verdicts, Check.forall₂_answers_of_mapM (accepts_ignoresSettings hev · v) hverdicts, ?_⟩
  injection h

end Verdicts

end Store

namespace Action

open Store

/-- What a value that was given to a union makes of another one: a literal says whether it is the
same or of the same type and equal, and all else says what the constraint says for which it stands.
-/
def Judges (s : State) (st : Store) (ev : Evaluator) (v spec : Value) (verdict : Bool) : Prop :=
  if s.store.standsForConstraint spec = true then
    ∃ c t, (Building.coercion spec).run s = .ok c t ∧
      (st.accepts ev (t.store.constraint c) v).Answers verdict
  else st.isLiteral v spec = .ok verdict

variable {s t : State} {st : Store} {ev : Evaluator} {v spec : Value} {b : Blueprint}
  {specs group : List Value} {verdict : Bool}

theorem judges_literal (hspec : s.store.standsForConstraint spec = false) :
    Judges s st ev v spec verdict ↔ st.isLiteral v spec = .ok verdict := by
  rw [Judges, hspec, if_neg Bool.false_ne_true]

theorem judges_shorthand (hparts : s.store.LeavesParts) (hwhole : s.store.IsWhole b)
    (hspec : s.store.standsForConstraint spec = true) (hb : s.store.shorthand spec = .ok b)
    (hst : s.store.Grows st) :
    Judges s st ev v spec verdict ↔ (st.accepts ev (st.treeOf b) v).Answers verdict := by
  obtain ⟨c, t, hrun, hadds, -⟩ := build_eq_ok b s
  have hcoerced : (Building.coercion spec).run s = .ok c t := (built_of_ok hb).trans hrun
  have htree : t.store.constraint c = st.treeOf b := by
    rw [constraint_of_build hparts hwhole hrun (.refl _), (treeOf_grow hparts hst b hwhole).2,
      (treeOf_grow hparts hadds.grows b hwhole).2]
  rw [Judges, if_pos hspec, ← htree]
  constructor
  · rintro ⟨c', t', hrun', haccepts⟩
    cases hcoerced.symm.trans hrun'
    exact haccepts
  · exact fun haccepts ↦ ⟨c, t, hcoerced, haccepts⟩

section Judging

variable (hparts : s.store.LeavesParts)
  (hwhole : ∀ spec ∈ specs, ∀ b, s.store.shorthand spec = .ok b → s.store.IsWhole b)
  (hst : s.store.Grows st) (hev : ev.IsIntact)

include hwhole

theorem isWhole_of_group (hgroup : group ∈ s.store.unionGroups specs)
    (hb : s.store.groupBlueprint group = .ok b) : s.store.IsWhole b := by
  rcases group_cases hgroup with ⟨-, -, hread⟩ | ⟨spec, rfl, -, hread⟩
  · cases hread.symm.trans hb
    trivial
  · exact hwhole spec (mem_of_mem_group hgroup (List.mem_singleton_self spec)) b
      (hread.symm.trans hb)

include hparts hst hev

theorem verdict_of_group (hgroup : group ∈ s.store.unionGroups specs)
    (hb : s.store.groupBlueprint group = .ok b)
    (h : (st.accepts ev (st.treeOf b) v).Answers verdict) :
    verdict = true ↔ ∃ spec ∈ group, Judges s st ev v spec true := by
  have hb' := isWhole_of_group hwhole hgroup hb
  rcases group_cases hgroup with ⟨-, hrun, hread⟩ | ⟨spec, rfl, hspec, hread⟩
  · cases hread.symm.trans hb
    -- the comparisons end at the first literal that is the same, whatever the others would do
    have hany :
        Decides (st.isAnyLiteral group v) (∃ spec ∈ group, st.isLiteral v spec = .ok true) :=
      Decides.any fun spec _ b hb ↦ by rw [hb]; simp
    rw [hany verdict ((accepts_literals_iff hev).1 h)]
    refine exists_congr fun spec ↦ and_congr_right fun hspec ↦ ?_
    rw [judges_literal (hrun spec hspec)]
  · have hshort := hread.symm.trans hb
    simp only [List.mem_singleton, exists_eq_left]
    rw [judges_shorthand hparts hb' hspec hshort hst]
    constructor
    · rintro rfl
      exact h
    · exact h.unique

theorem exists_verdict_of_group (hgroup : group ∈ s.store.unionGroups specs)
    (hb : s.store.groupBlueprint group = .ok b)
    (h : ∀ spec ∈ group, ∃ verdict, Judges s st ev v spec verdict) :
    ∃ verdict, (st.accepts ev (st.treeOf b) v).Answers verdict := by
  have hb' := isWhole_of_group hwhole hgroup hb
  rcases group_cases hgroup with ⟨-, hrun, hread⟩ | ⟨spec, rfl, hspec, hread⟩
  · cases hread.symm.trans hb
    have hliterals : ∀ spec ∈ group, ∃ verdict, st.isLiteral v spec = .ok verdict := by
      intro spec hspec
      obtain ⟨verdict, hverdict⟩ := h spec hspec
      exact ⟨verdict, (judges_literal (hrun spec hspec)).1 hverdict⟩
    obtain ⟨verdict, hverdict⟩ := exists_anyM hliterals
    exact ⟨verdict, (accepts_literals_iff hev).2 hverdict⟩
  · obtain ⟨verdict, hverdict⟩ := h spec (List.mem_singleton_self spec)
    have hshort := hread.symm.trans hb
    exact ⟨verdict, (judges_shorthand hparts hb' hspec hshort hst).1 hverdict⟩

end Judging

theorem exists_blueprints {c : Value} (h : (Building.unionOf specs).run s = .ok c t) :
    ∃ bs, (s.store.unionGroups specs).mapM s.store.groupBlueprint = .ok bs ∧
      build (.union bs) s = .ok c t := by
  obtain ⟨b, hread, hbuild⟩ := built_eq_ok h
  rcases s.store.unionBlueprint_cases specs with
    ⟨-, hcase⟩ | ⟨spec, -, e, -, -, hcase⟩ | ⟨-, -, bs, hbs, hcase⟩
  · cases hcase.symm.trans hread
  · cases hcase.symm.trans hread
  · cases hcase.symm.trans hread
    exact ⟨bs, hbs, hbuild⟩

theorem union_ok_iff :
    (∃ c t, (Building.unionOf specs).run s = .ok c t) ↔
      specs ≠ [] ∧ ∀ spec ∈ specs, s.store.standsForConstraint spec = true →
        ∃ c t, (Building.coercion spec).run s = .ok c t := by
  constructor
  · rintro ⟨c, t, h⟩
    obtain ⟨b, hread, -⟩ := built_eq_ok h
    rcases s.store.unionBlueprint_cases specs with
      ⟨-, hcase⟩ | ⟨spec, -, e, -, -, hcase⟩ | ⟨hne, hall, -⟩
    · cases hcase.symm.trans hread
    · cases hcase.symm.trans hread
    · refine ⟨hne, fun spec hmem hspec ↦ ?_⟩
      obtain ⟨b, hb⟩ := hall spec hmem hspec
      obtain ⟨c, t, hrun, -⟩ := build_eq_ok b s
      exact ⟨c, t, (built_of_ok hb).trans hrun⟩
  · rintro ⟨hne, hall⟩
    rcases s.store.unionBlueprint_cases specs with
      ⟨hnil, -⟩ | ⟨spec, hmem, e, hspec, hshort, -⟩ | ⟨-, -, bs, -, hread⟩
    · exact (hne hnil).elim
    · obtain ⟨c, t, hrun⟩ := hall spec hmem hspec
      obtain ⟨b, hb, -⟩ := built_eq_ok hrun
      cases hshort.symm.trans hb
    · obtain ⟨c, t, hrun, -⟩ := build_eq_ok (.union bs) s
      exact ⟨c, t, (built_of_ok hread).trans hrun⟩

theorem union_error {e : Fault} (h : (Building.unionOf specs).run s = .error e t) :
    t = s ∧ (specs = [] ∧ e = .noBranches ∨
      ∃ spec ∈ specs, s.store.standsForConstraint spec = true ∧
        s.store.shorthand spec = .error e) := by
  have hfails {e' : Fault} (hread : s.store.unionBlueprint specs = .error e') : e = e' ∧ t = s := by
    have hrun : built (·.unionBlueprint specs) s = .error e' s := built_of_error hread
    cases hrun.symm.trans h
    exact ⟨rfl, rfl⟩
  rcases s.store.unionBlueprint_cases specs with
    ⟨hnil, hread⟩ | ⟨spec, hmem, e', hspec, hshort, hread⟩ | ⟨-, -, bs, -, hread⟩
  · obtain ⟨rfl, rfl⟩ := hfails hread
    exact ⟨rfl, .inl ⟨hnil, rfl⟩⟩
  · obtain ⟨rfl, rfl⟩ := hfails hread
    exact ⟨rfl, .inr ⟨spec, hmem, hspec, hshort⟩⟩
  · obtain ⟨c, t', hrun, -⟩ := build_eq_ok (.union bs) s
    have hrun' : (Building.unionOf specs).run s = .ok c t' := (built_of_ok hread).trans hrun
    cases hrun'.symm.trans h

section Judging

variable {c : Value} (hparts : s.store.LeavesParts)
  (hwhole : ∀ spec ∈ specs, ∀ b, s.store.shorthand spec = .ok b → s.store.IsWhole b)
  (h : (Building.unionOf specs).run s = .ok c t) (hst : t.store.Grows st) (hev : ev.IsIntact)

include hparts hwhole h hst

theorem exists_trees : ∃ bs, (s.store.unionGroups specs).mapM s.store.groupBlueprint = .ok bs ∧
    s.store.Grows st ∧ st.constraint c = .union (bs.map st.treeOf) := by
  obtain ⟨bs, hbs, hbuild⟩ := exists_blueprints h
  obtain ⟨c', t', hrun, hadds, -⟩ := build_eq_ok (.union bs) s
  cases hrun.symm.trans hbuild
  have hall : s.store.IsWhole (.union bs) := areWhole_iff.2 fun b hmem ↦ by
    obtain ⟨group, hgroup, hb⟩ := exists_of_mem_mapM hbs b hmem
    exact isWhole_of_group hwhole hgroup hb
  refine ⟨bs, hbs, hadds.grows.trans hst, ?_⟩
  rw [constraint_of_build hparts hall hbuild hst, treeOf, treesOf_eq_map]

include hev

theorem verdict_of_union (hverdict : (st.accepts ev (st.constraint c) v).Answers verdict) :
    verdict = true ↔ ∃ spec ∈ specs, Judges s st ev v spec true := by
  obtain ⟨bs, hbs, hgrows, htrees⟩ := exists_trees hparts hwhole h hst
  rw [htrees] at hverdict
  obtain ⟨verdicts, hverdicts, rfl⟩ := exists_verdicts hev hverdict
  have hgroups := forall₂_join (forall₂_of_mapM hbs) (List.forall₂_map_left_iff.1 hverdicts)
    fun group hgroup b verdict hb ↦ verdict_of_group hparts hwhole hgrows hev hgroup hb
  rw [any_iff_of_forall₂ hgroups, flatten_unionGroups]

theorem exists_verdict_of_union (hall : ∀ spec ∈ specs, ∃ verdict, Judges s st ev v spec verdict) :
    ∃ verdict, (st.accepts ev (st.constraint c) v).Answers verdict := by
  obtain ⟨bs, hbs, hgrows, htrees⟩ := exists_trees hparts hwhole h hst
  have hbranches : ∀ b ∈ bs, ∃ verdict, (st.accepts ev (st.treeOf b) v).Answers verdict := by
    intro b hmem
    obtain ⟨group, hgroup, hb⟩ := exists_of_mem_mapM hbs b hmem
    exact exists_verdict_of_group hparts hwhole hgrows hev hgroup hb fun spec hspec ↦
      hall spec (mem_of_mem_group hgroup hspec)
  obtain ⟨verdicts, hverdicts⟩ := exists_forall₂ hbranches
  rw [htrees]
  exact ⟨_, answers_union hev (List.forall₂_map_left_iff.2 hverdicts)⟩

end Judging

/-- What is given to a union comes back if each run of literals among the branches is replaced by
its literals, and each other branch by what it stands for. A constraint that was given is a branch
itself and a run is one branch, with no other run next to it. Wherever the union answers for a value
it accepts it if and only if one of the things that were given to it does, and it does answer where
all of these do.

There is a union unless there is nothing to build it of or one of the lists among it cannot be
coerced, and then the fault is that of coercing it. -/
theorem union_of_acyclic (hspecs : ∀ spec ∈ specs, s.store.Acyclic spec) :
    ((∃ c t, (Building.unionOf specs).run s = .ok c t) ↔
      specs ≠ [] ∧ ∀ spec ∈ specs, s.store.standsForConstraint spec = true →
        ∃ c t, (Building.coercion spec).run s = .ok c t) ∧
    (∀ e t, (Building.unionOf specs).run s = .error e t →
      t = s ∧ (specs = [] ∧ e = .noBranches ∨
        ∃ spec ∈ specs, (∃ id, s.store.IsArrayShorthand spec id) ∧
          (Building.coercion spec).run s = .error e s ∧ (e.concernsDefinition = true ∨
            ∃ k v, s.store.Reaches k spec v ∧ s.store.written v = .error e))) ∧
    ∀ c t, (Building.unionOf specs).run s = .ok c t →
      s.store.Adds t.store ∧ ∀ st, t.store.Grows st →
        s.store.IsUnion st specs c ∧
        (s.store.LeavesParts →
          (∀ spec ∈ specs, ∀ b, s.store.shorthand spec = .ok b → s.store.IsWhole b) →
          ∀ ev v, ev.IsIntact →
            (∀ verdict, (st.accepts ev (st.constraint c) v).Answers verdict →
              (verdict = true ↔ ∃ spec ∈ specs, Judges s st ev v spec true)) ∧
            ((∀ spec ∈ specs, ∃ verdict, Judges s st ev v spec verdict) →
              ∃ verdict, (st.accepts ev (st.constraint c) v).Answers verdict)) := by
  refine ⟨union_ok_iff, fun e t h ↦ ?_, fun c t h ↦ ?_⟩
  · obtain ⟨rfl, hcase⟩ := union_error h
    refine ⟨rfl, hcase.imp_right ?_⟩
    rintro ⟨spec, hmem, hspec, hshort⟩
    have hrun : (Building.coercion spec).run t = .error e t := built_of_error hshort
    obtain ⟨-, k, v, hv, -, -, rfl⟩ := coercion_error (hspecs spec hmem) hrun
    refine ⟨spec, hmem, isArrayShorthand_of_error hspec hshort, hrun, ?_⟩
    exact (concernsDefinition_rejection _ v).imp_right fun hwritten ↦ ⟨k, v, hv, hwritten⟩
  · obtain ⟨bs, hbs, hbuild⟩ := exists_blueprints h
    obtain ⟨c', t', hrun, hadds, hbuilt, -⟩ := build_eq_ok (.union bs) s
    cases hrun.symm.trans hbuild
    refine ⟨hadds, fun st hst ↦ ⟨isUnion_of_isBuilt hbs (hbuilt st hst), ?_⟩⟩
    intro hparts hwhole ev v hev
    exact ⟨fun verdict ↦ verdict_of_union hparts hwhole h hst hev,
      exists_verdict_of_union hparts hwhole h hst hev⟩

def withLiteralSet : Store :=
  { Store.initial with
    lists := ⟨#[[.ofClass (.builtin .integer)]]⟩
    objects := ⟨Store.initial.objects.cells.push ⟨"", [(.text "values", .tuple [.int 1])]⟩⟩ }

/-- The set stands between the literals before and after it, and remains what it is. -/
theorem union_of_acyclic_literals :
    let s : State := ⟨withLiteralSet, .initial⟩
    let specs := [.text "draft", .object (.builtin .literalConstraint) ⟨1⟩, .text "final", .int 2,
      .list ⟨0⟩]
    (∀ spec ∈ specs, s.store.Acyclic spec) ∧ s.store.LeavesParts ∧
    (∀ spec ∈ specs, ∀ b, s.store.shorthand spec = .ok b → s.store.IsWhole b) ∧
    ∃ c t, (Building.unionOf specs).run s = .ok c t ∧ s.store.IsUnion t.store specs c ∧
      (t.store.accepts .shared (t.store.constraint c) (.int 2)).Answers true := by
  intro s specs
  have hspecs : ∀ spec ∈ specs, s.store.Acyclic spec := by
    intro spec hspec
    refine .intro fun id hid element helement ↦ ?_
    simp only [specs, List.mem_cons, List.not_mem_nil, or_false] at hspec
    rcases hspec with rfl | rfl | rfl | rfl | rfl <;> cases hid.2
    cases List.mem_singleton.1 helement
    exact acyclic_of_not_list (by simp [Value.plain])
  have hparts : s.store.LeavesParts := leavesParts_initial
  have hwhole : ∀ spec ∈ specs, ∀ b, s.store.shorthand spec = .ok b → s.store.IsWhole b := by
    intro spec hspec b hb
    simp only [specs, List.mem_cons, List.not_mem_nil, or_false] at hspec
    rcases hspec with rfl | rfl | rfl | rfl | rfl <;> cases hb
    · have htree : s.store.HasTree (.literals [.int 1]) (.object (.builtin .literalConstraint) ⟨1⟩) :=
        isRecord_of_attributes hparts rfl rfl rfl
      exact htree
    · exact ⟨_, rfl⟩
  obtain ⟨hiff, -, hunion⟩ := union_of_acyclic hspecs
  have hcoerced : ∀ spec ∈ specs, s.store.standsForConstraint spec = true →
      ∃ c t, (Building.coercion spec).run s = .ok c t := by
    intro spec hspec hstands
    simp only [specs, List.mem_cons, List.not_mem_nil, or_false] at hspec
    rcases hspec with rfl | rfl | rfl | rfl | rfl <;>
      first | cases hstands; done | exact ⟨_, _, rfl⟩
  obtain ⟨c, t, hrun⟩ := hiff.2 ⟨List.cons_ne_nil _ _, hcoerced⟩
  obtain ⟨-, hlater⟩ := hunion c t hrun
  obtain ⟨hisUnion, hverdicts⟩ := hlater t.store (.refl _)
  obtain ⟨hverdict, hexists⟩ :=
    hverdicts hparts hwhole .shared (.int 2) (Evaluator.isIntact_ofPolicy none)
  have hall : ∀ spec ∈ specs, ∃ verdict, Judges s t.store .shared (.int 2) spec verdict := by
    intro spec hspec
    simp only [specs, List.mem_cons, List.not_mem_nil, or_false] at hspec
    rcases hspec with rfl | rfl | rfl | rfl | rfl
    · exact ⟨false, rfl⟩
    · exact ⟨false, _, _, rfl, fun _ ↦ ⟨_, rfl⟩⟩
    · exact ⟨false, rfl⟩
    · exact ⟨true, rfl⟩
    · exact ⟨false, _, _, rfl, fun _ ↦ ⟨_, rfl⟩⟩
  obtain ⟨verdict, hanswers⟩ := hexists hall
  have htrue : verdict = true := (hverdict verdict hanswers).2 ⟨.int 2, by simp [specs], rfl⟩
  exact ⟨hspecs, hparts, hwhole, c, t, hrun, hisUnion, htrue ▸ hanswers⟩

/-- Of a note in a list that cannot be shown it is not said that nothing can be built of it, and a
union that holds a note does not accept another one, although it may hold the class of both. -/
theorem not_union_total :
    (¬ ∀ (s : State) (specs : List Value), (∀ spec ∈ specs, s.store.Acyclic spec) → ∀ e t,
      (Building.unionOf specs).run s = .error e t → e.concernsDefinition = true) ∧
    ¬ ∀ (s : State) (specs : List Value) (c v : Value) (t : State),
      (Building.unionOf specs).run s = .ok c t →
      (∃ spec ∈ specs, Judges s t.store .shared v spec true) →
      (t.store.accepts .shared (t.store.constraint c) v).Answers true := by
  let note := Value.object (.defined 1)
  let s : State := ⟨{ withNotes with lists := ⟨#[[note ⟨4⟩]]⟩ }, .initial⟩
  constructor
  · intro h
    have hspecs : ∀ spec ∈ [Value.list ⟨0⟩], s.store.Acyclic spec := by
      intro spec hspec
      cases List.mem_singleton.1 hspec
      exact (acyclic_of_not_list (by simp [note, Value.plain])).of_items ⟨rfl, rfl⟩ rfl
    have hrun : (Building.unionOf [.list ⟨0⟩]).run s = .error (.notCallable "int") s := rfl
    cases h s _ hspecs _ _ hrun
  · intro h
    let kind := Value.ofClass (.defined 1)
    have hruns : ∃ c t r, (Building.unionOf [note ⟨4⟩, kind]).run s = .ok c t ∧
        Judges s t.store .shared (note ⟨5⟩) kind true ∧
        t.store.accepts .shared (t.store.constraint c) (note ⟨5⟩) .initial =
          .error (.notCallable "int") r :=
      ⟨_, _, _, rfl, ⟨_, _, rfl, fun _ ↦ ⟨_, rfl⟩⟩, rfl⟩
    obtain ⟨c, t, r, hrun, hjudges, hfault⟩ := hruns
    obtain ⟨r', haccepts⟩ := h s _ c (note ⟨5⟩) t hrun ⟨kind, by simp, hjudges⟩ .initial
    cases hfault.symm.trans haccepts

end Action

end Conformance
