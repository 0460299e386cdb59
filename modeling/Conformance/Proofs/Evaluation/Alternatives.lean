import Conformance.Proofs.Evaluation.Agreement
import Conformance.Proofs.Evaluation.Enclosing

namespace Conformance

namespace Constraint

mutual
/-- What a constraint leaves to choose from: the alternatives of the branches of a union, and any
other constraint by itself. -/
def alternatives : Constraint → List Constraint
  | .union branches => alternativesOfAll branches
  | c => [c]
termination_by structural c => c
def alternativesOfAll : List Constraint → List Constraint
  | [] => []
  | c :: cs => c.alternatives ++ alternativesOfAll cs
termination_by structural cs => cs
end

mutual
def HasBranches : Constraint → Prop
  | .union branches => branches ≠ [] ∧ AllHaveBranches branches
  | _ => True
termination_by structural c => c
def AllHaveBranches : List Constraint → Prop
  | [] => True
  | c :: cs => c.HasBranches ∧ AllHaveBranches cs
termination_by structural cs => cs
end

def element? : Constraint → Option Constraint
  | .array element => some element
  | _ => none

theorem alternatives_ne_nil (c : Constraint) (h : c.HasBranches) : c.alternatives ≠ [] := by
  cases c with
  | union branches =>
    cases branches with
    | nil => exact absurd rfl h.1
    | cons c cs =>
      rw [alternatives, alternativesOfAll]
      exact List.append_ne_nil_of_left_ne_nil (alternatives_ne_nil c h.2.1) _
  | _ => exact List.cons_ne_nil _ _
termination_by structural c

mutual
theorem leaves_iff_alternatives {P : Constraint → Prop} (c : Constraint) :
    c.Leaves P ↔ ∀ d ∈ c.alternatives, d.Leaves P := by
  cases c with
  | union branches => exact leavesOfAll_iff_alternatives branches
  | _ => exact List.forall_mem_singleton.symm
termination_by structural c
theorem leavesOfAll_iff_alternatives {P : Constraint → Prop} (cs : List Constraint) :
    LeavesOfAll P cs ↔ ∀ d ∈ alternativesOfAll cs, d.Leaves P := by
  cases cs with
  | nil => simp [LeavesOfAll, alternativesOfAll]
  | cons c cs =>
    rw [LeavesOfAll, alternativesOfAll, List.forall_mem_append, leaves_iff_alternatives c,
      leavesOfAll_iff_alternatives cs]
termination_by structural cs
end

mutual
theorem firstArray?_eq_findSome? (c : Constraint) :
    c.firstArray? = c.alternatives.findSome? element? := by
  cases c with
  | union branches => exact firstArrayOf?_eq_findSome? branches
  | _ => rfl
termination_by structural c
theorem firstArrayOf?_eq_findSome? (cs : List Constraint) :
    firstArray?.firstArrayOf? cs = (alternativesOfAll cs).findSome? element? := by
  cases cs with
  | nil => rfl
  | cons c cs =>
    rw [firstArray?.firstArrayOf?, alternativesOfAll, List.findSome?_append,
      firstArray?_eq_findSome? c, firstArrayOf?_eq_findSome? cs]
    cases c.alternatives.findSome? element? <;> rfl
termination_by structural cs
end

end Constraint

namespace Store

open Constraint

variable {st : Store} {ev : Evaluator}

mutual
theorem fits_eq_any_alternatives (c : Constraint) (v : Value) :
    st.fits c v = c.alternatives.any (st.fits · v) := by
  cases c with
  | union branches =>
    rw [fits, alternatives]
    exact fitsAny_eq_any_alternatives branches v
  | _ => simp [alternatives]
termination_by structural c
theorem fitsAny_eq_any_alternatives (cs : List Constraint) (v : Value) :
    st.fitsAny cs v = (alternativesOfAll cs).any (st.fits · v) := by
  cases cs with
  | nil => rfl
  | cons c cs =>
    rw [fitsAny, alternativesOfAll, List.any_append, fits_eq_any_alternatives c v,
      fitsAny_eq_any_alternatives cs v]
termination_by structural cs
end

mutual
theorem canCompare_iff_alternatives (c : Constraint) (v : Value) :
    st.CanCompare c v ↔ ∀ d ∈ c.alternatives, st.CanCompare d v := by
  cases c with
  | union branches =>
    rw [CanCompare, alternatives]
    exact canCompareAll_iff_alternatives branches v
  | _ => simp [alternatives]
termination_by structural c
theorem canCompareAll_iff_alternatives (cs : List Constraint) (v : Value) :
    st.CanCompareAll cs v ↔ ∀ d ∈ alternativesOfAll cs, st.CanCompare d v := by
  cases cs with
  | nil => simp [CanCompareAll, alternativesOfAll]
  | cons c cs =>
    rw [CanCompareAll, alternativesOfAll, List.forall_mem_append, canCompare_iff_alternatives c v,
      canCompareAll_iff_alternatives cs v]
termination_by structural cs
end

theorem ne_nil_of_mapM {α β : Type} {f : α → Except Fault β} {l : List α} {bs : List β}
    (h : l.mapM f = .ok bs) (hl : l ≠ []) : bs ≠ [] := by
  cases l with
  | nil => exact absurd rfl hl
  | cons a l =>
    rw [List.mapM_cons] at h
    obtain ⟨b, -, h⟩ := answer_of_bind h
    obtain ⟨bs', -, h⟩ := answer_of_bind h
    cases h
    exact List.cons_ne_nil b bs'

theorem constraintNames_eq_mapM (cs : List Constraint) :
    st.constraintNames cs = cs.mapM st.constraintName := by
  induction cs with
  | nil => rfl
  | cons c cs ih => rw [constraintNames, ih, List.mapM_cons]

def eitherName (st : Store) (cs : List Constraint) : Except Fault String := do
  return " or ".intercalate (← cs.mapM st.constraintName)

@[simp] theorem eitherName_singleton (c : Constraint) : st.eitherName [c] = st.constraintName c := by
  rw [eitherName, List.mapM_cons, List.mapM_nil]
  cases st.constraintName c <;> simp [bind, Except.bind, pure, Except.pure]

theorem eitherName_append {cs ds : List Constraint} (hcs : cs ≠ []) (hds : ds ≠ []) :
    st.eitherName (cs ++ ds) = do
      return (← st.eitherName cs) ++ " or " ++ (← st.eitherName ds) := by
  rw [eitherName, eitherName, eitherName, List.mapM_append]
  cases hc : cs.mapM st.constraintName with
  | error e => rfl
  | ok names =>
    cases hd : ds.mapM st.constraintName with
    | error e => rfl
    | ok names' =>
      have hjoin := String.intercalate_append_of_ne_nil (s := " or ") (ne_nil_of_mapM hc hcs)
        (ne_nil_of_mapM hd hds)
      exact congrArg Except.ok hjoin

@[simp] theorem constraintName_union (branches : List Constraint) :
    st.constraintName (.union branches) = st.eitherName branches := by
  rw [constraintName, constraintNames_eq_mapM]
  rfl

mutual
theorem constraintName_eq_eitherName (c : Constraint) (h : c.HasBranches) :
    st.constraintName c = st.eitherName c.alternatives := by
  cases c with
  | union branches =>
    rw [constraintName_union, alternatives]
    exact eitherName_eq_alternatives branches h.2
  | _ => exact (eitherName_singleton _).symm
termination_by structural c
theorem eitherName_eq_alternatives (cs : List Constraint) (h : AllHaveBranches cs) :
    st.eitherName cs = st.eitherName (alternativesOfAll cs) := by
  match cs with
  | [] => rfl
  | [c] =>
    rw [eitherName_singleton, constraintName_eq_eitherName c h.1, alternativesOfAll,
      alternativesOfAll, List.append_nil]
  | c :: d :: cs =>
    have hrest : alternativesOfAll (d :: cs) ≠ [] := by
      rw [alternativesOfAll]
      exact List.append_ne_nil_of_left_ne_nil (alternatives_ne_nil d h.2.1) _
    have hcons : st.eitherName (c :: d :: cs) = do
        return (← st.eitherName [c]) ++ " or " ++ (← st.eitherName (d :: cs)) :=
      eitherName_append (List.cons_ne_nil c []) (List.cons_ne_nil d cs)
    rw [hcons, alternativesOfAll, eitherName_append (alternatives_ne_nil c h.1) hrest,
      eitherName_singleton, constraintName_eq_eitherName c h.1,
      eitherName_eq_alternatives (d :: cs) h.2]
termination_by structural cs
end

mutual
/-- An array that fails is described by the first array among the alternatives. -/
theorem complaint_of_firstArray? (c : Constraint) {element : Constraint} {v : Value} (label : String)
    (hv : (st.arrayItems? v).isSome = true) (h : c.firstArray? = some element) :
    st.complaint .element c v label = wrongElements label (st.nameText element) := by
  cases c with
  | array e =>
    cases h
    rw [complaint, if_pos hv]
  | union branches => exact complaintOfAll_of_firstArray? branches label hv h
  | type target => cases h
  | literals literals => cases h
  | refused fault => cases h
termination_by structural c
theorem complaintOfAll_of_firstArray? (cs : List Constraint) {element : Constraint} {v : Value}
    (label : String) (hv : (st.arrayItems? v).isSome = true)
    (h : (Constraint.union cs).firstArray? = some element) :
    st.complaintOfAll .element cs v label = wrongElements label (st.nameText element) := by
  have hunion :
      st.unionComplaint .element cs v label = wrongElements label (st.nameText element) := by
    rw [unionComplaint, if_pos ⟨rfl, hv⟩, h]
  match cs with
  | [] => exact hunion
  | [c] =>
    have hc : c.firstArray? = some element := by
      rw [firstArray?_eq_findSome?] at h ⊢
      rwa [alternatives, alternativesOfAll, alternativesOfAll, List.append_nil] at h
    rw [complaintOfAll, complaint_of_firstArray? c label hv hc, withAlternatives_wrongElements]
  | c :: d :: cs => exact hunion
termination_by structural cs
end

theorem mem_of_findSome?_element? {cs : List Constraint} {element : Constraint}
    (h : cs.findSome? element? = some element) : .array element ∈ cs := by
  obtain ⟨c, hc, helement⟩ := List.exists_of_findSome?_eq_some h
  cases c with
  | array e => cases helement; exact hc
  | _ => cases helement

theorem accepts_eq_ok_iff (hev : ev.IsIntact) {c : Constraint} (hc : c.IsProper) (v : Value)
    (s : Session) (b : Bool) :
    (∃ t, st.accepts ev c v s = .ok b t) ↔ st.CanCompare c v ∧ st.fits c v = b := by
  constructor
  · rintro ⟨t, h⟩
    have hcompare := canCompare_of_accepts c v h
    rw [accepts_run hev c hc v hcompare] at h
    cases h
    exact ⟨hcompare, rfl⟩
  · rintro ⟨hcompare, rfl⟩
    exact ⟨_, accepts_run hev c hc v hcompare s⟩

theorem exists_accepts_iff (hev : ev.IsIntact) {c : Constraint} (hc : c.IsProper) (v : Value)
    (s : Session) : (∃ b t, st.accepts ev c v s = .ok b t) ↔ st.CanCompare c v := by
  simp only [accepts_eq_ok_iff hev hc v s, exists_and_left, exists_eq', and_true]

/-- Constraints with the same alternatives accept alike. -/
theorem accepts_congr_alternatives (hev : ev.IsIntact) {c d : Constraint} (hc : c.IsProper)
    (h : ∀ e, e ∈ d.alternatives ↔ e ∈ c.alternatives) (v : Value) (s : Session) (b : Bool) :
    (∃ t, st.accepts ev d v s = .ok b t) ↔ ∃ t, st.accepts ev c v s = .ok b t := by
  have hd : d.IsProper := by
    refine (leaves_iff_alternatives d).2 fun e he ↦ ?_
    exact (leaves_iff_alternatives c).1 hc e ((h e).1 he)
  have hfits : st.fits d v = st.fits c v := by
    rw [fits_eq_any_alternatives, fits_eq_any_alternatives, Bool.eq_iff_iff, List.any_eq_true,
      List.any_eq_true]
    simp only [h]
  rw [accepts_eq_ok_iff hev hd, accepts_eq_ok_iff hev hc, canCompare_iff_alternatives d,
    canCompare_iff_alternatives c, hfits]
  simp only [h]

theorem exists_misfit {element : Constraint} {v : Value} {items : List Value}
    (hv : st.arrayItems? v = some items) (h : st.fits (.array element) v = false) :
    ∃ item ∈ items, st.fits element item = false := by
  rw [fits, hv, Option.any_some] at h
  exact List.all_eq_false.1 h |>.imp fun item hitem ↦ ⟨hitem.1, by simpa using hitem.2⟩

theorem exists_rejected (hev : ev.IsIntact) {element : Constraint} (hc : element.IsProper)
    {v : Value} {items : List Value} (hv : st.arrayItems? v = some items) {s : Session}
    (h : ∃ t, st.accepts ev (.array element) v s = .ok false t) :
    ∃ item ∈ items, ∃ t, st.accepts ev element item s = .ok false t := by
  obtain ⟨hcompare, hfits⟩ := (accepts_eq_ok_iff hev (c := .array element) hc v s false).1 h
  obtain ⟨item, hitem, hmisfit⟩ := exists_misfit hv hfits
  rw [CanCompare] at hcompare
  exact ⟨item, hitem, (accepts_eq_ok_iff hev hc item s false).2
    ⟨hcompare items hv item hitem, hmisfit⟩⟩

theorem diagnose_of_first_array (hev : ev.IsIntact) {branches : List Constraint}
    (hc : (Constraint.union branches).IsProper) (hn : st.CanName (.union branches)) {v : Value}
    (hcompare : st.CanCompare (.union branches) v) (hfits : st.fits (.union branches) v = false)
    (hv : (st.arrayItems? v).isSome = true) {element : Constraint}
    (helement : (Constraint.union branches).alternatives.findSome? element? = some element)
    (label : String) {s : Session} (hp : st.policyIn ev s = .ok .element) :
    ∃ t, st.diagnose ev (.union branches) v label s =
      .ok (some (wrongElements label (st.nameText element))) t := by
  have htext : st.diagnosis .element (.union branches) v label =
      some (wrongElements label (st.nameText element)) := by
    rw [diagnosis, hfits, complaint_of_firstArray? (.union branches) label hv
      ((firstArray?_eq_findSome? _).trans helement)]
    rfl
  have hrun := diagnose_run hev (.union branches) hc hn v hcompare label hp
  rw [htext] at hrun
  exact ⟨_, hrun⟩

/-- Unions within unions come to a list of alternatives. A value is judged where all of the
alternatives can judge it, and accepted if one of them does; so no more counts than which
alternatives there are. The name is made of the names of the alternatives. An array that none of
them accepts is described, by element, by the first array among them, and has a member that does not
fit it. -/
theorem judged_by_alternatives (st : Store) (hev : ev.IsIntact) {branches : List Constraint}
    (hc : (Constraint.union branches).IsProper) (v : Value) (s : Session) :
    let u := Constraint.union branches
    ((∃ b t, st.accepts ev u v s = .ok b t) ↔
      ∀ c ∈ u.alternatives, ∃ b t, st.accepts ev c v s = .ok b t) ∧
    (∀ b t, st.accepts ev u v s = .ok b t →
      (b = true ↔ ∃ c ∈ u.alternatives, ∃ t, st.accepts ev c v s = .ok true t)) ∧
    (∀ u' : Constraint, (∀ c, c ∈ u'.alternatives ↔ c ∈ u.alternatives) →
      ∀ b, (∃ t, st.accepts ev u' v s = .ok b t) ↔ ∃ t, st.accepts ev u v s = .ok b t) ∧
    (u.HasBranches → st.constraintName u = do
      return " or ".intercalate (← u.alternatives.mapM st.constraintName)) ∧
    ∀ items element label, st.arrayItems? v = some items → st.policyIn ev s = .ok .element →
      (∀ c ∈ u.alternatives, ∃ t, st.accepts ev c v s = .ok false t) →
      (∀ c ∈ u.alternatives, st.CanName c) → u.alternatives.findSome? element? = some element →
      (∃ name t, st.constraintName element = .ok name ∧
        st.diagnose ev u v label s = .ok (some (wrongElements label name)) t) ∧
      ∃ item ∈ items, ∃ t, st.accepts ev element item s = .ok false t := by
  intro u
  have hproper : ∀ c ∈ u.alternatives, c.IsProper := (leaves_iff_alternatives u).1 hc
  refine ⟨?_, fun b t h ↦ ?_, fun u' hu' ↦ accepts_congr_alternatives hev hc hu' v s,
    fun hb ↦ constraintName_eq_eitherName u hb,
    fun items element label hv hp hfails hn helement ↦ ?_⟩
  · rw [exists_accepts_iff hev hc, canCompare_iff_alternatives]
    exact forall₂_congr fun c hmem ↦ (exists_accepts_iff hev (hproper c hmem) v s).symm
  · obtain ⟨hcompare, hfits⟩ := (accepts_eq_ok_iff hev hc v s b).1 ⟨t, h⟩
    rw [← hfits, fits_eq_any_alternatives, List.any_eq_true]
    refine exists_congr fun c ↦ and_congr_right fun hmem ↦ ?_
    rw [accepts_eq_ok_iff hev (hproper c hmem)]
    exact (and_iff_right ((canCompare_iff_alternatives u v).1 hcompare c hmem)).symm
  · have hfails' : ∀ c ∈ u.alternatives, st.CanCompare c v ∧ st.fits c v = false :=
      fun c hmem ↦ (accepts_eq_ok_iff hev (hproper c hmem) v s false).1 (hfails c hmem)
    have hcompare : st.CanCompare u v :=
      (canCompare_iff_alternatives u v).2 fun c hmem ↦ (hfails' c hmem).1
    have hfits : st.fits u v = false := by
      rw [fits_eq_any_alternatives, List.any_eq_false]
      exact fun c hmem ↦ by simp [(hfails' c hmem).2]
    have hmem : .array element ∈ u.alternatives := mem_of_findSome?_element? helement
    have helement' : element.IsProper := hproper (.array element) hmem
    have hname : st.CanName element := hn (.array element) hmem
    obtain ⟨t, hrun⟩ := diagnose_of_first_array hev hc ((leaves_iff_alternatives u).2 hn) hcompare
      hfits (by rw [hv]; rfl) helement label hp
    exact ⟨⟨st.nameText element, t, constraintName_eq helement' hname, hrun⟩,
      exists_rejected hev helement' hv (hfails _ hmem)⟩

/-- A list that is no list of drafts, where drafts are one of three alternatives. -/
theorem judged_by_alternatives_draft :
    let draft := Constraint.array (.literals [.text "draft"])
    let branches := [.type (.ofClass (.builtin .integer)),
      .union [.union [draft], .type (.ofClass (.builtin .text))]]
    let v := Value.tuple [.text "draft", .text "final"]
    Evaluator.shared.IsIntact ∧ (Constraint.union branches).IsProper ∧
      (Constraint.union branches).HasBranches ∧
      initial.constraintName (.union branches) = .ok "Integer or Array of :draft or String" ∧
      ∃ name t, initial.constraintName (.literals [.text "draft"]) = .ok name ∧
        initial.diagnose .shared (.union branches) v "Label" .initial =
          .ok (some (wrongElements "Label" name)) t := by
  intro draft branches v
  have hev : Evaluator.shared.IsIntact := Evaluator.isIntact_ofPolicy none
  have hc : (Constraint.union branches).IsProper :=
    ⟨trivial, ⟨⟨trivial, trivial⟩, trivial, trivial⟩, trivial⟩
  have hb : (Constraint.union branches).HasBranches :=
    ⟨List.cons_ne_nil _ _, trivial, ⟨List.cons_ne_nil _ _, ⟨List.cons_ne_nil _ _, trivial, trivial⟩,
      trivial, trivial⟩, trivial⟩
  obtain ⟨-, -, -, hname, harray⟩ := judged_by_alternatives initial hev hc v .initial
  have hfails : ∀ c ∈ (Constraint.union branches).alternatives,
      ∃ t, initial.accepts .shared c v .initial = .ok false t :=
    List.forall_mem_cons.2 ⟨⟨_, rfl⟩, List.forall_mem_cons.2 ⟨⟨_, rfl⟩,
      List.forall_mem_singleton.2 ⟨_, rfl⟩⟩⟩
  have hnames : ∀ c ∈ (Constraint.union branches).alternatives, initial.CanName c :=
    List.forall_mem_cons.2 ⟨trivial, List.forall_mem_cons.2 ⟨⟨_, rfl⟩,
      List.forall_mem_singleton.2 trivial⟩⟩
  obtain ⟨htext, -⟩ := harray _ (.literals [.text "draft"]) "Label" rfl rfl hfails hnames rfl
  exact ⟨hev, hc, hb, (hname hb).trans rfl, htext⟩

/-- An alternative that accepts a value is of no use where another one cannot be compared with it: a
note is no note of the literals, but to find out is more than the comparison can do. -/
theorem not_accepts_iff_alternatives :
    ¬ ∀ (st : Store) (ev : Evaluator) (branches : List Constraint) (v : Value) (s : Session),
      ev.IsIntact → (Constraint.union branches).IsProper → (Constraint.union branches).HasBranches →
      ((∃ t, st.accepts ev (.union branches) v s = .ok true t) ↔
        ∃ c ∈ (Constraint.union branches).alternatives,
          ∃ t, st.accepts ev c v s = .ok true t) := by
  intro h
  let note := Value.object (.defined 1)
  let branches := [Constraint.literals [note ⟨4⟩], .type (.ofClass (.defined 1))]
  have hiff := h withNotes .shared branches (note ⟨5⟩) .initial (Evaluator.isIntact_ofPolicy none)
    ⟨trivial, trivial, trivial⟩ ⟨List.cons_ne_nil _ _, trivial, trivial, trivial⟩
  have haccepts : ∃ t, withNotes.accepts .shared (.type (.ofClass (.defined 1))) (note ⟨5⟩) .initial =
      .ok true t := ⟨_, rfl⟩
  obtain ⟨t, hunion⟩ := hiff.2 ⟨_, List.mem_cons_of_mem _ List.mem_cons_self, haccepts⟩
  have hfault : ∃ e t, withNotes.accepts .shared (.union branches) (note ⟨5⟩) .initial =
      .error e t := ⟨.notCallable "int", _, rfl⟩
  obtain ⟨e, t', hfault⟩ := hfault
  rw [hfault] at hunion
  cases hunion

end Store

end Conformance
