import Conformance.Proofs.Creation.Selection
import Conformance.Proofs.Evaluation.Diagnosis
import Conformance.Proofs.Registry

namespace Conformance

/-- An attribute that a class declares: its name, its field, and what the field asks for. -/
structure Declared where
  name : String
  field : Value
  constraint : Value
  allowsNil : Bool

def Declared.passes (d : Declared) (v : Value) : Bool := (v matches .nil) && d.allowsNil

def fieldsOfDeclared (ds : List Declared) : Entries String Value := ds.map fun d ↦ (d.name, d.field)

/-- The keys of a mapping, then the names that it does not have yet. -/
def givenKeys (es : Entries Value Value) (named : Entries String Value) : List Value :=
  es.keys ++ (named.keys.filter fun n ↦ (es.named? n).isNone).map .text

/-- What is given under a name: by name, or else by a mapping, or else nothing. -/
def givenUnder (es : Entries Value Value) (named : Entries String Value) (n : String) : Value :=
  ((named.get? n).or (es.named? n)).getD .nil

def unknownKeys (ds : List Declared) (es : Entries Value Value) (named : Entries String Value) :
    List Value :=
  (givenKeys es named).filter fun k ↦ !k.isAmong (ds.map Declared.name)

def declaredValues (ds : List Declared) (es : Entries Value Value) (named : Entries String Value) :
    Entries String Value :=
  ds.map fun d ↦ (d.name, givenUnder es named d.name)

theorem Entries.keys_put_text {b : BEq Value} (hb : ComparesNames b) {ν : Type}
    (es : Entries Value ν) (n : String) (v : ν) : (es.put (.text n) v).keys =
      if (es.named? n).isSome then es.keys else es.keys ++ [.text n] := by
  have hhas : es.has (.text n) = (es.named? n).isSome := by rw [has, get?_text es hb]
  cases h : (es.named? n).isSome with
  | true => exact keys_put_of_has (hhas.trans h) v
  | false => exact keys_put_of_not_has (hhas.trans h) v

namespace Store

variable {st : Store}

theorem keys_putAllAt (es : Entries Value Value) {named : Entries String Value}
    (h : named.keys.Nodup) : (st.putAllAt es named.asTexts).keys = givenKeys es named := by
  induction named generalizing es with
  | nil => simp [givenKeys, Entries.keys, Entries.asTexts, putAllAt]
  | cons e named ih =>
    obtain ⟨he, hnamed⟩ := List.nodup_cons.1 h
    have hb := st.comparesNames_sameKey
    have hkeys : Entries.keys (e :: named) = e.1 :: Entries.keys named := rfl
    -- the names that are still to come are looked up as before
    have hrest : (Entries.keys named).filter (fun n ↦ ((st.putAt es (.text e.1) e.2).named? n).isNone) =
        (Entries.keys named).filter fun n ↦ (es.named? n).isNone := by
      refine List.filter_congr fun n hn ↦ ?_
      have hne : e.1 ≠ n := by
        intro heq
        rw [← heq] at hn
        exact he hn
      rw [putAt, Entries.named?_put es hb, if_neg hne]
    have hstep : (st.putAllAt es (Entries.asTexts (e :: named))).keys =
        givenKeys (st.putAt es (.text e.1) e.2) named := ih _ hnamed
    rw [hstep, givenKeys, givenKeys, hrest, putAt, Entries.keys_put_text hb, hkeys,
      List.filter_cons]
    cases es.named? e.1 <;> simp

theorem givenBy_putAllAt (es : Entries Value Value) {named : Entries String Value}
    (h : named.keys.Nodup) (n : String) :
    st.givenBy (st.putAllAt es named.asTexts) (.text n) = .ok (givenUnder es named n) := by
  rw [givenBy_text, named?_putAllAt _ _ h, givenUnder]

def violationOf (st : Store) (p : Policy) (d : Declared) (v : Value) : Option Violation :=
  if d.passes v then none
  else (st.diagnosis p (st.constraint d.constraint) v (readableName d.name)).map fun message ↦
    ⟨.text d.name, d.constraint, v, message⟩

/-- A field that asks for what is declared. -/
structure Asks (st : Store) (d : Declared) : Prop where
  constraint : st.attributeOf d.field "constraint" = .ok d.constraint
  allowsNil : st.attributeOf d.field "allow_nil" = .ok (.bool d.allowsNil)
  isProper : (st.constraint d.constraint).IsProper

/-- A value can be judged: the literals can be compared with it and named. -/
def CanJudge (st : Store) (d : Declared) (v : Value) : Prop :=
  d.passes v = false →
    st.CanCompare (st.constraint d.constraint) v ∧ st.CanName (st.constraint d.constraint)

theorem passesUnseen_eq {d : Declared} (h : st.Asks d) (v : Value) :
    st.passesUnseen d.field v = .ok (d.passes v) := by
  cases v with
  | nil =>
    rw [passesUnseen, h.allowsNil, Declared.passes]
    rfl
  | _ => rfl

@[simp] theorem attributeLabel_text (n : String) :
    st.attributeLabel (.text n) = .ok (readableName n) := rfl

def judgeEvents (st : Store) (d : Declared) (v : Value) : List Event :=
  if d.passes v then []
  else st.diagnoseEvents (st.constraint d.constraint) v (readableName d.name)

theorem diagnose_declared_run {d : Declared} (h : st.Asks d) {v : Value} (hv : st.CanJudge d v)
    (hpass : d.passes v = false) {s : Session} {p : Policy} (hp : st.policyIn .shared s = .ok p) :
    let c := st.constraint d.constraint
    st.diagnose .shared c v (readableName d.name) s =
      .ok (st.diagnosis p c v (readableName d.name))
        (s.performAll .shared (st.diagnoseEvents c v (readableName d.name))) := by
  obtain ⟨hcompare, hname⟩ := hv hpass
  exact diagnose_run (Evaluator.isIntact_ofPolicy none) _ h.isProper hname v hcompare _ hp

theorem violation?_run {d : Declared} (h : st.Asks d) {v : Value} (hv : st.CanJudge d v)
    {s : Session} {p : Policy} (hp : st.policyIn .shared s = .ok p) :
    st.violation? (.of .shared) (.text d.name) d.field v s =
      .ok (st.violationOf p d v) (s.performAll .shared (st.judgeEvents d v)) := by
  rw [violation?, bind_of_ok (Check.ofExcept_run (passesUnseen_eq h v) s)]
  cases hpass : d.passes v with
  | true => simp [violationOf, judgeEvents, hpass]
  | false =>
    have hjudge : Check.ofExcept (Judge.of .shared) s = .ok (.ok .shared) s := rfl
    have hevaluator : Check.ofExcept (.ok Evaluator.shared) s = .ok .shared s := rfl
    simp only [Bool.false_eq_true, if_false]
    rw [bind_of_ok hjudge, bind_of_ok (Check.ofExcept_run h.constraint s),
      bind_of_ok (Check.ofExcept_run (attributeLabel_text d.name) s), bind_of_ok hevaluator,
      bind_of_ok (diagnose_declared_run h hv hpass hp)]
    simp [violationOf, judgeEvents, hpass]

theorem violationOf_eq_none_iff {d : Declared} (h : st.Asks d) {v : Value} (hv : st.CanJudge d v)
    (p : Policy) (s : Session) : st.violationOf p d v = none ↔
      d.passes v = true ∨ ∃ t, st.accepts .shared (st.constraint d.constraint) v s = .ok true t := by
  cases hpass : d.passes v with
  | true => simp [violationOf, hpass]
  | false =>
    have haccepts := accepts_run (Evaluator.isIntact_ofPolicy none) _ h.isProper v (hv hpass).1 s
    rw [Evaluator.shared, haccepts]
    cases hfits : st.fits (st.constraint d.constraint) v <;>
      simp [violationOf, hpass, diagnosis, hfits]

theorem violationOf_eq_some_iff {d : Declared} (h : st.Asks d) {v : Value} (hv : st.CanJudge d v)
    {p : Policy} {s : Session} (hp : st.policyIn .shared s = .ok p) (violation : Violation) :
    st.violationOf p d v = some violation ↔ d.passes v = false ∧ ∃ message t,
      st.diagnose .shared (st.constraint d.constraint) v (readableName d.name) s =
        .ok (some message) t ∧ violation = ⟨.text d.name, d.constraint, v, message⟩ := by
  cases hpass : d.passes v with
  | true => simp [violationOf, hpass]
  | false =>
    rw [diagnose_declared_run h hv hpass hp]
    cases hmessage : st.diagnosis p (st.constraint d.constraint) v (readableName d.name) <;>
      simp [violationOf, hpass, hmessage, eq_comm]

/-- Each declared attribute is judged once, in the order of the declarations. -/
theorem violations_run {ds : List Declared} (h : ∀ d ∈ ds, st.Asks d)
    {valueOf : Value → Except Fault Value} (value : String → Value)
    (hvalue : ∀ d ∈ ds, valueOf (.text d.name) = .ok (value d.name))
    (hjudge : ∀ d ∈ ds, st.CanJudge d (value d.name)) {s : Session} {p : Policy}
    (hp : st.policyIn .shared s = .ok p) :
    ∃ t, st.violations (.of .shared) (fieldsOfDeclared ds).asTexts valueOf s =
      .ok (ds.filterMap fun d ↦ st.violationOf p d (value d.name)) t ∧ s.SameSettings t := by
  let judged (s : Session) (d : Declared) : Session :=
    s.performAll .shared (st.judgeEvents d (value d.name))
  have hverdicts : ((fieldsOfDeclared ds).asTexts.mapM (fun e ↦ do
      st.violation? (.of .shared) e.1 e.2 (← Check.ofExcept (valueOf e.1))) :
        Check (List (Option Violation))) s =
      .ok (ds.map fun d ↦ st.violationOf p d (value d.name)) (ds.foldl judged s) := by
    have hfields : (fieldsOfDeclared ds).asTexts = ds.map fun d ↦ (.text d.name, d.field) := by
      simp [fieldsOfDeclared, Entries.asTexts]
    rw [hfields, List.mapM_map]
    refine mapM_run _ judged (fun t ↦ s.SameSettings t) ds (fun d hd t ht ↦ ?_) (.refl s)
    have hpt : st.policyIn .shared t = .ok p := (policyIn_of_sameSettings ht .shared).trans hp
    refine ⟨?_, ht.trans (t.sameSettings_performAll _ _)⟩
    exact (bind_of_ok (Check.ofExcept_run (hvalue d hd) t)).trans
      (violation?_run (h d hd) (hjudge d hd) hpt)
  have hsame (ds : List Declared) (s : Session) : s.SameSettings (ds.foldl judged s) := by
    induction ds generalizing s with
    | nil => exact .refl s
    | cons d ds ih => exact (s.sameSettings_performAll _ _).trans (ih _)
  refine ⟨_, (bind_of_ok hverdicts).trans ?_, hsame ds s⟩
  rw [pure_run, List.filterMap_map]
  rfl

end Store

end Conformance
