import Conformance.Proofs.Evaluation.Agreement
import Conformance.Proofs.Evaluation.Lockstep
import Conformance.Proofs.Evaluation.Tree
import Conformance.Shorthand

namespace Conformance

theorem exists_mem_iff_of_forall₂ {α : Type} {P : α → Prop} {R : α → α → Prop} {l m : List α}
    (h : List.Forall₂ R l m) (hR : ∀ a b, R a b → (P a ↔ P b)) :
    (∃ a ∈ l, P a) ↔ ∃ b ∈ m, P b := by
  induction h with
  | nil => rfl
  | cons hab _ ih => rw [List.exists_mem_cons_iff, List.exists_mem_cons_iff, hR _ _ hab, ih]

namespace Store

variable {st : Store} {ev : Evaluator} {v : Value}

theorem decides_isLiteral (v literal : Value) :
    Decides (st.isLiteral v literal) (st.typeOf v = st.typeOf literal ∧ st.Same v literal) := by
  unfold isLiteral
  split
  · next h =>
    obtain rfl := Value.eq_of_isTwin (Bool.and_eq_true_iff.1 h).2
    exact .of_ok ⟨fun _ ↦ ⟨rfl, .refl v⟩, fun _ ↦ rfl⟩
  · next hsame =>
    split
    · next htype =>
      refine (decides_equal v literal).congr ?_
      rw [same_iff, or_iff_right hsame]
      exact (and_iff_right (beq_iff_eq.1 htype)).symm
    · next htype => exact .of_false fun h ↦ htype (beq_iff_eq.2 h.1)

theorem decides_isAnyLiteral (literals : List Value) (v : Value) :
    Decides (st.isAnyLiteral literals v)
      (∃ literal ∈ literals, st.typeOf v = st.typeOf literal ∧ st.Same v literal) :=
  .any fun literal _ ↦ decides_isLiteral v literal

/-- Two literals that take the same values. -/
def SameLiteral (st : Store) (l l' : Value) : Prop := st.Same l l' ∧ st.typeOf l = st.typeOf l'

theorem SameLiteral.takes_iff {l l' : Value} (h : st.SameLiteral l l') (v : Value) :
    (st.typeOf v = st.typeOf l ∧ st.Same v l) ↔ st.typeOf v = st.typeOf l' ∧ st.Same v l' :=
  ⟨fun ⟨htype, hsame⟩ ↦ ⟨htype.trans h.2, hsame.trans h.1⟩,
    fun ⟨htype, hsame⟩ ↦ ⟨htype.trans h.2.symm, hsame.trans h.1.symm⟩⟩

mutual
theorem sameLiterals_of_corresponds (t u : Constraint) (hsame : t.Corresponds st.Same u)
    (htypes : t.Corresponds (fun l l' ↦ st.typeOf l = st.typeOf l') u) :
    t.Corresponds st.SameLiteral u := by
  cases t with
  | type target =>
    cases u with
    | type target' => exact hsame
    | _ => exact hsame.elim
  | literals ls =>
    cases u with
    | literals ls' => exact hsame.mp (fun _ _ hsame htype ↦ ⟨hsame, htype⟩) htypes
    | _ => exact hsame.elim
  | array t =>
    cases u with
    | array u => exact sameLiterals_of_corresponds t u hsame htypes
    | _ => exact hsame.elim
  | union ts =>
    cases u with
    | union us => exact sameLiterals_of_correspondAll ts us hsame htypes
    | _ => exact hsame.elim
  | refused fault => exact hsame.elim
termination_by structural t
theorem sameLiterals_of_correspondAll (ts us : List Constraint)
    (hsame : Constraint.CorrespondAll st.Same ts us)
    (htypes : Constraint.CorrespondAll (fun l l' ↦ st.typeOf l = st.typeOf l') ts us) :
    Constraint.CorrespondAll st.SameLiteral ts us := by
  cases ts with
  | nil => exact hsame
  | cons t ts =>
    cases us with
    | nil => exact hsame.elim
    | cons u us =>
      exact ⟨sameLiterals_of_corresponds t u hsame.1 htypes.1,
        sameLiterals_of_correspondAll ts us hsame.2 htypes.2⟩
termination_by structural ts
end

mutual
/-- Constraints with literals that take the same values fit the same values. -/
theorem fits_eq_of_corresponds (t u : Constraint) (h : t.Corresponds st.SameLiteral u) (v : Value)
    (ht : st.CanCompare t v) (hu : st.CanCompare u v) : st.fits t v = st.fits u v := by
  cases t with
  | type target =>
    cases u with
    | type target' =>
      obtain rfl : target = target' := h
      rfl
    | _ => exact h.elim
  | literals ls =>
    cases u with
    | literals ls' =>
      obtain ⟨b, hb⟩ := ht
      obtain ⟨b', hb'⟩ := hu
      -- both answer by the literals that take the value, which are at the same places
      have hiff : b = true ↔ b' = true := (decides_isAnyLiteral ls v b hb).trans <|
        (exists_mem_iff_of_forall₂ h fun _ _ hl ↦ hl.takes_iff v).trans
          (decides_isAnyLiteral ls' v b' hb').symm
      rw [fits, fits, hb, hb']
      exact Bool.eq_iff_iff.2 hiff
    | _ => exact h.elim
  | array t =>
    cases u with
    | array u =>
      rw [CanCompare] at ht hu
      rw [fits, fits]
      cases hv : st.arrayItems? v with
      | none => rfl
      | some items =>
        refine Bool.eq_iff_iff.2 (List.all_eq_true.trans (Iff.trans ?_ List.all_eq_true.symm))
        refine forall₂_congr fun item hitem ↦ ?_
        rw [fits_eq_of_corresponds t u h item (ht items hv item hitem) (hu items hv item hitem)]
    | _ => exact h.elim
  | union ts =>
    cases u with
    | union us => exact fitsAny_eq_of_correspond ts us h v ht hu
    | _ => exact h.elim
  | refused fault => exact h.elim
termination_by structural t
theorem fitsAny_eq_of_correspond (ts us : List Constraint)
    (h : Constraint.CorrespondAll st.SameLiteral ts us) (v : Value)
    (ht : st.CanCompareAll ts v) (hu : st.CanCompareAll us v) :
    st.fitsAny ts v = st.fitsAny us v := by
  cases ts with
  | nil =>
    obtain rfl : us = [] := h
    rfl
  | cons t ts =>
    cases us with
    | nil => exact h.elim
    | cons u us =>
      rw [fitsAny, fitsAny, fits_eq_of_corresponds t u h.1 v ht.1 hu.1,
        fitsAny_eq_of_correspond ts us h.2 v ht.2 hu.2]
termination_by structural ts
end

theorem fits_of_diagnose (hev : ev.IsIntact) (c : Constraint) (hc : c.IsProper) {v : Value}
    {label : String} {diagnostic? : Option String} {s t : Session}
    (h : st.diagnose ev c v label s = .ok diagnostic? t) :
    st.CanCompare c v ∧ (diagnostic? = none ↔ st.fits c v = true) := by
  obtain ⟨t', haccepts⟩ := answers_of_diagnose hev hev c h s
  have hcompare := canCompare_of_accepts c v haccepts
  rw [accepts_run hev c hc v hcompare] at haccepts
  injection haccepts with hfits
  rw [hfits, Option.isNone_iff_eq_none]
  exact ⟨hcompare, Iff.rfl⟩

/-- Whole constraints that are equal, with literals of the same types at the same places, judge
alike: where both answer, they give the same verdict, and both want a diagnostic or neither does. Both
do answer where their literals can be compared and named and the policy can be told. -/
theorem equal_constraints_agree (hev : ev.IsIntact) {c d : Value}
    (hc : st.HasTree (st.constraint c) c) (hd : st.HasTree (st.constraint d) d)
    (hequal : st.equal c d = .ok true)
    (htypes : (st.constraint c).Corresponds (fun l l' ↦ st.typeOf l = st.typeOf l') (st.constraint d))
    (v : Value) :
    let t := st.constraint c
    let u := st.constraint d
    (∀ b b' s s' r r', st.accepts ev t v s = .ok b r → st.accepts ev u v s' = .ok b' r' → b = b') ∧
    (∀ label x x' s s' r r', st.diagnose ev t v label s = .ok x r →
      st.diagnose ev u v label s' = .ok x' r' → (x = none ↔ x' = none)) ∧
    (st.CanCompare t v → st.CanCompare u v →
      (∀ s s', ∃ b r r', st.accepts ev t v s = .ok b r ∧ st.accepts ev u v s' = .ok b r') ∧
      (st.CanName t → st.CanName u → ∀ label s s' p p', st.policyIn ev s = .ok p →
        st.policyIn ev s' = .ok p' → ∃ x x' r r', st.diagnose ev t v label s = .ok x r ∧
          st.diagnose ev u v label s' = .ok x' r')) := by
  intro t u
  have ht := isProper_of_hasTree t hc
  have hu := isProper_of_hasTree u hd
  have hsame : st.Same c d := .of_alike ((decides_equal c d true hequal).1 rfl)
  have hliterals : t.Corresponds st.SameLiteral u :=
    sameLiterals_of_corresponds t u (corresponds_of_same t u hc hd hsame) htypes
  have hfits := fits_eq_of_corresponds t u hliterals v
  refine ⟨fun b b' s s' r r' hb hb' ↦ ?_, fun label x x' s s' r r' hx hx' ↦ ?_, fun hct hcu ↦ ⟨?_, ?_⟩⟩
  · have hct : st.CanCompare t v := canCompare_of_accepts t v hb
    have hcu : st.CanCompare u v := canCompare_of_accepts u v hb'
    rw [accepts_run hev t ht v hct] at hb
    rw [accepts_run hev u hu v hcu] at hb'
    cases hb
    cases hb'
    exact hfits hct hcu
  · obtain ⟨hct, hx⟩ := fits_of_diagnose hev t ht hx
    obtain ⟨hcu, hx'⟩ := fits_of_diagnose hev u hu hx'
    rw [hx, hx', hfits hct hcu]
  · intro s s'
    have hd := accepts_run hev u hu v hcu s'
    rw [← hfits hct hcu] at hd
    exact ⟨_, _, _, accepts_run hev t ht v hct s, hd⟩
  · intro hnt hnu label s s' p p' hp hp'
    exact ⟨_, _, _, _, diagnose_run hev t ht hnt v hct label hp, diagnose_run hev u hu hnu v hcu label hp'⟩

open Conformance.Action

def withDrafts : State :=
  let draft := built fun _ ↦ literalBlueprint [.text "draft"]
  after (do newArray (← draft)) (after (do newArray (← draft)) .initial)

theorem hasTree_withDrafts {c l : ObjectId}
    (hc : (withDrafts.store.parts (.object (.builtin .arrayConstraint) c) .arrayConstraint).toOption =
      some [.object (.builtin .literalConstraint) l])
    (hl : (withDrafts.store.parts (.object (.builtin .literalConstraint) l)
      .literalConstraint).toOption = some [.tuple [.text "draft"]]) :
    withDrafts.store.HasTree (.array (.literals [.text "draft"]))
      (.object (.builtin .arrayConstraint) c) :=
  ⟨_, ⟨_, _, rfl, rfl, eq_ok_of_toOption hc⟩, _, _, rfl, rfl, eq_ok_of_toOption hl⟩

/-- The two of them are equal, and a list with something else fits neither or both. -/
theorem equal_constraints_agree_withDrafts :
    let st := withDrafts.store
    let c := Value.object (.builtin .arrayConstraint) ⟨2⟩
    let d := Value.object (.builtin .arrayConstraint) ⟨4⟩
    let v := Value.tuple [.text "draft", .text "final"]
    st.equal c d = .ok true ∧ ∃ b r r', st.accepts .shared (st.constraint c) v .initial = .ok b r ∧
      st.accepts .shared (st.constraint d) v .initial = .ok b r' := by
  intro st c d v
  have htree : st.constraint c = .array (.literals [.text "draft"]) := rfl
  have htree' : st.constraint d = .array (.literals [.text "draft"]) := rfl
  have hc : st.HasTree (st.constraint c) c := by
    rw [htree]
    exact hasTree_withDrafts (l := ⟨1⟩) (by decide +kernel) (by decide +kernel)
  have hd : st.HasTree (st.constraint d) d := by
    rw [htree']
    exact hasTree_withDrafts (l := ⟨3⟩) (by decide +kernel) (by decide +kernel)
  have hequal : st.equal c d = .ok true := eq_ok_of_toOption (by decide +kernel)
  have htypes : (st.constraint c).Corresponds (fun l l' ↦ st.typeOf l = st.typeOf l')
      (st.constraint d) := by
    rw [htree, htree']
    exact .cons rfl .nil
  have himmediate : (Constraint.array (.literals [.text "draft"])).Leaves
      Constraint.HasImmediateLiterals := fun literal hl ↦ by rw [List.mem_singleton.1 hl]; rfl
  have hcompare : st.CanCompare (.array (.literals [.text "draft"])) v :=
    canCompare_of_leaves _ himmediate v
  obtain ⟨-, -, hanswers⟩ := equal_constraints_agree (Evaluator.isIntact_ofPolicy none) hc hd hequal
    htypes v
  rw [htree, htree'] at hanswers
  obtain ⟨hverdicts, -⟩ := hanswers hcompare hcompare
  exact ⟨hequal, hverdicts .initial .initial⟩

def withNumbers : State :=
  after (built fun _ ↦ literalBlueprint [.bool true])
    (after (built fun _ ↦ literalBlueprint [.int 1]) .initial)

/-- That two constraints are equal is not enough: the number one equals the truth value, but it is a
literal of one of the two only. -/
theorem not_equal_constraints_agree :
    ¬ ∀ (st : Store) (ev : Evaluator) (c d v : Value), ev.IsIntact →
      st.HasTree (st.constraint c) c → st.HasTree (st.constraint d) d → st.equal c d = .ok true →
      ∀ b b' s s' r r', st.accepts ev (st.constraint c) v s = .ok b r →
        st.accepts ev (st.constraint d) v s' = .ok b' r' → b = b' := by
  intro h
  let st := withNumbers.store
  let c := Value.object (.builtin .literalConstraint) ⟨1⟩
  let d := Value.object (.builtin .literalConstraint) ⟨2⟩
  have hc : st.HasTree (.literals [.int 1]) c :=
    ⟨_, _, rfl, rfl, eq_ok_of_toOption (by decide +kernel)⟩
  have hd : st.HasTree (.literals [.bool true]) d :=
    ⟨_, _, rfl, rfl, eq_ok_of_toOption (by decide +kernel)⟩
  have hequal : st.equal c d = .ok true := eq_ok_of_toOption (by decide +kernel)
  have hone : ∃ r, st.accepts .shared (st.constraint c) (.int 1) .initial = .ok true r := ⟨_, rfl⟩
  have htrue : ∃ r, st.accepts .shared (st.constraint d) (.int 1) .initial = .ok false r := ⟨_, rfl⟩
  obtain ⟨r, hr⟩ := hone
  obtain ⟨r', hr'⟩ := htrue
  cases h st .shared c d (.int 1) (Evaluator.isIntact_ofPolicy none) hc hd hequal _ _ _ _ _ _ hr hr'

end Store

end Conformance
