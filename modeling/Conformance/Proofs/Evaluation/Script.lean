import Conformance.Proofs.Evaluation.Diagnosis
import Conformance.Proofs.Evaluation.Verdict
import Conformance.Proofs.Question
import Mathlib.Tactic.Choose

namespace Conformance

/-- Entries that account for creations: the counts, and the records of failed validations. -/
def Entry.isAccount : Entry → Bool
  | .created .. | .violated .. | .record (.validationFailed ..) => true
  | .record _ => false

def lookUp : Check (Settings × Option ObjectId) := do
  let settings ← currentSettings
  return (settings, (← get).settingsRecord)

theorem lookUp_run {s : Session} {settings : Settings} (h : s.settingsInForce = .ok settings) :
    lookUp s = .ok (settings, s.settingsRecord) s.loaded := by
  rw [lookUp, bind_of_ok (currentSettings_run h), ← s.settingsRecord_loaded]
  rfl

theorem lookUp_error {s : Session} {e : Fault} (h : s.settingsInForce = .error e) :
    lookUp s = .error e s := bind_of_error (currentSettings_error h)

/-- What a check does in turn before it ends. After a look it goes on by what it has seen. -/
inductive Script (α : Type)
  | ends (r : Except Fault α)
  | notes (e : Entry) (next : Script α)
  | calls (call : Call) (next : Script α)
  | looks (next : Settings → Option ObjectId → Script α)

namespace Script

variable {α β : Type}

def run : Script α → Check α
  | ends r => Check.ofExcept r
  | notes e next => do
    Check.note e
    next.run
  | calls call next => do
    Check.called call.method call.constraint
    next.run
  | looks next => do
    let (settings, record?) ← lookUp
    (next settings record?).run

def bind : Script α → (α → Script β) → Script β
  | ends (.ok a), f => f a
  | ends (.error e), _ => ends (.error e)
  | notes e next, f => notes e (next.bind f)
  | calls call next, f => calls call (next.bind f)
  | looks next, f => looks fun settings record? ↦ (next settings record?).bind f

theorem run_bind (sc : Script α) (f : α → Script β) :
    (sc.bind f).run = sc.run >>= fun a ↦ (f a).run := by
  induction sc with
  | ends r => cases r <;> rfl
  | notes e next ih => simp only [bind, run, ih, bind_assoc]
  | calls call next ih => simp only [bind, run, ih, bind_assoc]
  | looks next ih => simp only [bind, run, ih, bind_assoc]

def Keeps (P : Fault → Prop) (Q : Entry → Prop) : Script α → Prop
  | ends r => FailsWithin P r
  | notes e next => Q e ∧ next.Keeps P Q
  | calls _ next => next.Keeps P Q
  | looks next => ∀ settings record?, (next settings record?).Keeps P Q

theorem Keeps.bind {P : Fault → Prop} {Q : Entry → Prop} {sc : Script α} {f : α → Script β}
    (hsc : sc.Keeps P Q) (hf : ∀ a, (f a).Keeps P Q) : (sc.bind f).Keeps P Q := by
  induction sc with
  | ends r =>
    cases r with
    | ok a => exact hf a
    | error e =>
      rintro _ ⟨⟩
      exact hsc e rfl
  | notes e next ih => exact ⟨hsc.1, ih hsc.2⟩
  | calls call next ih => exact ih hsc
  | looks next ih => exact fun settings record? ↦ ih settings record? (hsc settings record?)

end Script

def Scripted (P : Fault → Prop) (Q : Entry → Prop) {α : Type} (x : Check α) : Prop :=
  ∃ sc : Script α, sc.run = x ∧ sc.Keeps P Q

namespace Scripted

variable {α β : Type} {P : Fault → Prop} {Q : Entry → Prop} {x : Check α} {f : α → Check β}

theorem bind (hx : Scripted P Q x) (hf : ∀ a, Scripted P Q (f a)) : Scripted P Q (x >>= f) := by
  obtain ⟨sc, rfl, hsc⟩ := hx
  choose next hnext hkeeps using hf
  refine ⟨sc.bind next, ?_, hsc.bind hkeeps⟩
  rw [sc.run_bind]
  exact congrArg (sc.run >>= ·) (funext hnext)

theorem pure (a : α) : Scripted P Q (Pure.pure a : Check α) := ⟨.ends (.ok a), rfl, nofun⟩

theorem throw {e : Fault} (h : P e) : Scripted P Q (MonadExcept.throw e : Check α) := by
  refine ⟨.ends (.error e), rfl, ?_⟩
  rintro _ ⟨⟩
  exact h

theorem ofExcept {q : Except Fault α} (h : FailsWithin P q) :
    Scripted P Q (Check.ofExcept q) := ⟨.ends q, rfl, h⟩

theorem bind_ofExcept {q : Except Fault β} {f : β → Check α} (hq : FailsWithin P q)
    (hf : ∀ b, q = .ok b → Scripted P Q (f b)) : Scripted P Q (Check.ofExcept q >>= f) := by
  cases q with
  | ok b => exact hf b rfl
  | error e => exact ⟨.ends (.error e), rfl, .throw (hq e rfl)⟩

theorem note {e : Entry} (h : Q e) : Scripted P Q (Check.note e) :=
  ⟨.notes e (.ends (.ok ())), rfl, h, nofun⟩

theorem noteAll {es : List Entry} (h : ∀ e ∈ es, Q e) : Scripted P Q (Check.noteAll es) := by
  induction es with
  | nil =>
    have hnone : Check.noteAll [] = Pure.pure () := by
      funext s
      exact congrArg (fun journal ↦ EStateM.Result.ok () { s with journal })
        (List.append_nil s.journal)
    rw [hnone]
    exact pure ()
  | cons e es ih =>
    obtain ⟨he, hes⟩ := List.forall_mem_cons.1 h
    have hcons : Check.noteAll (e :: es) = (do Check.note e; Check.noteAll es) := by
      funext s
      exact congrArg (fun journal ↦ EStateM.Result.ok () { s with journal })
        (List.append_cons s.journal e es)
    rw [hcons]
    exact bind (note he) fun _ ↦ ih hes

theorem called (method : Method) (c : Constraint) : Scripted P Q (Check.called method c) :=
  ⟨.calls ⟨method, c⟩ (.ends (.ok ())), rfl, nofun⟩

theorem ite {c : Prop} [Decidable c] {y : Check α} (hx : Scripted P Q x) (hy : Scripted P Q y) :
    Scripted P Q (if c then x else y) := by
  split
  · exact hx
  · exact hy

theorem mapM {l : List α} (h : ∀ a ∈ l, Scripted P Q (f a)) : Scripted P Q (l.mapM f) := by
  induction l with
  | nil => exact pure []
  | cons a l ih =>
    obtain ⟨ha, hl⟩ := List.forall_mem_cons.1 h
    rw [List.mapM_cons]
    exact bind ha fun b ↦ bind (ih hl) fun bs ↦ pure (b :: bs)

end Scripted

def Session.Adds (Q : Entry → Prop) (s t : Session) : Prop :=
  ∃ es, t.journal = s.journal ++ es ∧ ∀ e ∈ es, Q e

theorem Session.Adds.refl (Q : Entry → Prop) (s : Session) : s.Adds Q s :=
  ⟨[], (List.append_nil _).symm, by simp⟩

theorem Session.Adds.trans {Q : Entry → Prop} {s t u : Session} (h : s.Adds Q t) (h' : t.Adds Q u) :
    s.Adds Q u := by
  obtain ⟨es, hes, hQ⟩ := h
  obtain ⟨fs, hfs, hQ'⟩ := h'
  exact ⟨es ++ fs, by rw [hfs, hes, List.append_assoc], List.forall_mem_append.2 ⟨hQ, hQ'⟩⟩

/-- Kinds of faults and entries that leave room for all that judgements do: they do not say that
values are invalid, and do not account for creations. -/
structure Admits (P : Fault → Prop) (Q : Entry → Prop) : Prop where
  fault : ∀ e, e.isInvalid = false → P e
  entry : ∀ e, e.isAccount = false → Q e

/-- A check that fails in certain ways only and adds certain entries only, whether it fails or not.
-/
structure Adding (P : Fault → Prop) (Q : Entry → Prop) {α : Type} (x : Check α) : Prop where
  answers {s t : Session} {a : α} (h : x s = .ok a t) : s.Adds Q t
  faults {s t : Session} {e : Fault} (h : x s = .error e t) : P e ∧ s.Adds Q t

section Adding

variable {α β : Type} {P : Fault → Prop} {Q : Entry → Prop}

theorem Adding.bind {x : Check α} {f : α → Check β} (hx : Adding P Q x)
    (hf : ∀ a, Adding P Q (f a)) : Adding P Q (x >>= f) where
  answers h := by
    obtain ⟨a, u, hrun, hrest⟩ := bind_eq_ok h
    exact (hx.answers hrun).trans ((hf a).answers hrest)
  faults h := by
    rcases bind_eq_error h with hrun | ⟨a, u, hrun, hrest⟩
    · exact hx.faults hrun
    · obtain ⟨he, hadds⟩ := (hf a).faults hrest
      exact ⟨he, (hx.answers hrun).trans hadds⟩

theorem mild_parse (env : Environment) : Mild (Settings.parse env) := by
  refine .bind ?_ fun _ ↦ .pure _
  unfold Policy.parse
  split
  · exact .pure _
  · split
    · exact .pure _
    · exact .throw rfl

theorem mild_settingsInForce (s : Session) : Mild s.settingsInForce := by
  unfold Session.settingsInForce
  split
  · exact .pure _
  · exact mild_parse _

theorem Session.adds_loaded (hadmits : Admits P Q) (s : Session) : s.Adds Q s.loaded := by
  unfold loaded
  split
  · next settings _ _ =>
    refine ⟨[.record (.settingsLoaded settings)], rfl, ?_⟩
    intro e he
    exact hadmits.entry e (by rw [List.mem_singleton.1 he]; rfl)
  · exact .refl Q s

theorem adding_lookUp (hadmits : Admits P Q) : Adding P Q lookUp where
  answers {s t a} h := by
    cases hs : s.settingsInForce with
    | error e => rw [lookUp_error hs] at h; cases h
    | ok settings =>
      rw [lookUp_run hs] at h
      cases h
      exact s.adds_loaded hadmits
  faults {s t e} h := by
    cases hs : s.settingsInForce with
    | error e' =>
      rw [lookUp_error hs] at h
      cases h
      exact ⟨hadmits.fault e (mild_settingsInForce s e hs), .refl Q s⟩
    | ok settings => rw [lookUp_run hs] at h; cases h

theorem Script.adding (hadmits : Admits P Q) {sc : Script α} (hsc : sc.Keeps P Q) :
    Adding P Q sc.run := by
  induction sc with
  | ends r =>
    cases r with
    | ok a => exact ⟨by rintro s _ _ ⟨⟩; exact .refl Q s, nofun⟩
    | error e => exact ⟨nofun, by rintro s _ _ ⟨⟩; exact ⟨hsc e rfl, .refl Q s⟩⟩
  | notes e next ih =>
    refine Adding.bind ⟨?_, nofun⟩ fun _ ↦ ih hsc.2
    rintro s _ _ ⟨⟩
    exact ⟨[e], rfl, fun _ h ↦ List.mem_singleton.1 h ▸ hsc.1⟩
  | calls call next ih =>
    refine Adding.bind ⟨?_, nofun⟩ fun _ ↦ ih hsc
    rintro s _ _ ⟨⟩
    exact ⟨[], (List.append_nil _).symm, by simp⟩
  | looks next ih =>
    exact (adding_lookUp hadmits).bind fun seen ↦ ih seen.1 seen.2 (hsc seen.1 seen.2)

theorem Scripted.adding (hadmits : Admits P Q) {x : Check α} (hx : Scripted P Q x) :
    Adding P Q x := by
  obtain ⟨sc, rfl, hsc⟩ := hx
  exact sc.adding hadmits hsc

end Adding

def Constraint.RefusesWithin (P : Fault → Prop) : Constraint → Prop
  | .refused fault => P fault
  | _ => True

/-- An evaluator that fails in certain ways only, wherever it has an operation or a policy no more.
-/
structure Evaluator.FailsWithin (P : Fault → Prop) (ev : Evaluator) : Prop where
  policy : Conformance.FailsWithin P ev.policy?
  offers : ∀ name, Conformance.FailsWithin P (ev.offers name)

structure Judge.FailsWithin (P : Fault → Prop) (judge : Judge) : Prop where
  asked : Conformance.FailsWithin P judge
  called {evaluator : Except Fault Evaluator} (h : judge = .ok evaluator) :
    Conformance.FailsWithin P evaluator
  judges {ev : Evaluator} (h : judge = .of ev) : ev.FailsWithin P

theorem Evaluator.failsWithin_ofPolicy (P : Fault → Prop) (policy? : Option Policy) :
    (ofPolicy policy?).FailsWithin P := ⟨nofun, nofun⟩

theorem Judge.FailsWithin.of {P : Fault → Prop} {ev : Evaluator} (h : ev.FailsWithin P) :
    (Judge.of ev).FailsWithin P where
  asked := nofun
  called := by
    rintro _ ⟨⟩
    exact nofun
  judges := by
    rintro _ ⟨⟩
    exact h

theorem Admits.all : Admits (fun _ ↦ True) (fun _ ↦ True) := ⟨fun _ _ ↦ trivial, fun _ _ ↦ trivial⟩

theorem FailsWithin.all {α : Type} (q : Except Fault α) : FailsWithin (fun _ ↦ True) q :=
  fun _ _ ↦ trivial

theorem Evaluator.FailsWithin.all (ev : Evaluator) : ev.FailsWithin (fun _ ↦ True) :=
  ⟨.all _, fun _ ↦ .all _⟩

theorem Judge.FailsWithin.all (judge : Judge) : judge.FailsWithin (fun _ ↦ True) :=
  ⟨.all _, fun _ ↦ .all _, fun _ ↦ .all _⟩

theorem Constraint.refusesWithin_all (c : Constraint) :
    c.Leaves (Constraint.RefusesWithin fun _ ↦ True) :=
  leaves_of_forall (fun c ↦ by cases c <;> trivial) c

section Evaluation

variable {P : Fault → Prop} {Q : Entry → Prop}

theorem Scripted.of_mild {α : Type} (hadmits : Admits P Q) {q : Except Fault α} (h : Mild q) :
    Scripted P Q (Check.ofExcept q) :=
  .ofExcept (h.imp hadmits.fault)

theorem Scripted.record (hadmits : Admits P Q) {r : Record}
    (h : (Entry.record r).isAccount = false) : Scripted P Q (Check.record r) :=
  .note (hadmits.entry _ h)

theorem Scripted.call {ev : Evaluator} (hev : ev.FailsWithin P) (method : Method) (c : Constraint) :
    Scripted P Q (ev.call method c) :=
  .bind (.ofExcept (hev.offers _)) fun _ ↦ .called method c

namespace Store

variable {st : Store} {ev : Evaluator}

theorem scripted_setting (hadmits : Admits P Q) {α : Type} (part : String) (asRead : Settings → α)
    {asRecorded : Value → Except Fault α} (h : ∀ v, Mild (asRecorded v)) :
    Scripted P Q (st.setting part asRead asRecorded) := by
  refine ⟨.looks fun settings record? ↦ .ends (record?.elim (.ok (asRead settings)) fun id ↦
    st.attributeOf (.object (.builtin .settings) id) part >>= asRecorded), ?_, ?_⟩
  · unfold setting Script.run lookUp
    rw [bind_assoc]
    refine congrArg (currentSettings >>= ·) (funext fun settings ↦ ?_)
    rw [bind_assoc]
    refine congrArg ((get : Check Session) >>= ·) (funext fun s ↦ ?_)
    cases s.settingsRecord <;> rfl
  · intro settings record?
    cases record? with
    | none => exact .pure _
    | some id =>
      have hmild := FailsWithin.bind (st.mild_attributeOf (.object (.builtin .settings) id) part) h
      exact fun e he ↦ hadmits.fault e (hmild e he)

theorem scripted_policyFor (hadmits : Admits P Q) (hev : ev.FailsWithin P) :
    Scripted P Q (st.policyFor ev) := by
  apply Scripted.bind (.ofExcept hev.policy)
  intro p?
  cases p? with
  | some p => exact .pure p
  | none => exact scripted_setting hadmits _ _ fun _ ↦ .pure _

mutual
theorem scripted_accepts (hadmits : Admits P Q) (hev : ev.FailsWithin P) (c : Constraint)
    (hc : c.Leaves (Constraint.RefusesWithin P)) (v : Value) :
    Scripted P Q (st.accepts ev c v) := by
  cases c with
  | type target =>
    exact .bind (.call hev _ _) fun _ ↦ .of_mild hadmits (st.mild_hasType target v)
  | literals literals =>
    exact .bind (.call hev _ _) fun _ ↦ .of_mild hadmits (st.mild_isAnyLiteral literals v)
  | array element =>
    apply Scripted.bind (.call hev _ _)
    intro _
    cases st.arrayItems? v with
    | none => exact .pure false
    | some items =>
      apply Scripted.bind (.ofExcept (hev.offers _))
      intro _
      apply Scripted.bind (.mapM fun item _ ↦ scripted_accepts hadmits hev element hc item)
      exact fun verdicts ↦ .pure (verdicts.all id)
  | union branches =>
    apply Scripted.bind (.call hev _ _)
    intro _
    apply Scripted.bind (scripted_acceptsEach hadmits hev branches hc v)
    exact fun verdicts ↦ .pure (verdicts.any id)
  | refused fault => exact .bind (.call hev _ _) fun _ ↦ .throw hc
termination_by structural c
theorem scripted_acceptsEach (hadmits : Admits P Q) (hev : ev.FailsWithin P) (cs : List Constraint)
    (hcs : Constraint.LeavesOfAll (Constraint.RefusesWithin P) cs) (v : Value) :
    Scripted P Q (st.acceptsEach ev cs v) := by
  cases cs with
  | nil => exact .pure []
  | cons c cs =>
    apply Scripted.bind (scripted_accepts hadmits hev c hcs.1 v)
    intro verdict
    apply Scripted.bind (scripted_acceptsEach hadmits hev cs hcs.2 v)
    exact fun verdicts ↦ .pure (verdict :: verdicts)
termination_by structural cs
end

mutual
theorem failsWithin_constraintName (hP : ∀ e, e.isInvalid = false → P e) (c : Constraint)
    (hc : c.Leaves (Constraint.RefusesWithin P)) : FailsWithin P (st.constraintName c) := by
  cases c with
  | type target => exact (st.mild_targetName target).imp hP
  | literals literals => exact (st.mild_literalNames literals).imp hP
  | array element => exact .bind (failsWithin_constraintName hP element hc) fun _ ↦ .pure _
  | union branches => exact .bind (failsWithin_constraintNames hP branches hc) fun _ ↦ .pure _
  | refused fault => exact .throw hc
termination_by structural c
theorem failsWithin_constraintNames (hP : ∀ e, e.isInvalid = false → P e) (cs : List Constraint)
    (hcs : Constraint.LeavesOfAll (Constraint.RefusesWithin P) cs) :
    FailsWithin P (st.constraintNames cs) := by
  cases cs with
  | nil => exact .pure []
  | cons c cs =>
    exact .bind (failsWithin_constraintName hP c hcs.1) fun _ ↦
      .bind (failsWithin_constraintNames hP cs hcs.2) fun _ ↦ .pure _
termination_by structural cs
end

theorem scripted_mismatches (hadmits : Admits P Q) (hev : ev.FailsWithin P) {element : Constraint}
    (hc : element.Leaves (Constraint.RefusesWithin P)) (items : List Value) :
    Scripted P Q (st.mismatches ev element items) :=
  .bind (.mapM fun item _ ↦ scripted_accepts hadmits hev element hc item) fun _ ↦ .pure _

theorem scripted_arrayDiagnostic (hadmits : Admits P Q) (hev : ev.FailsWithin P)
    (element : Constraint) (hc : element.Leaves (Constraint.RefusesWithin P)) (v : Value)
    (label : String) : Scripted P Q (st.arrayDiagnostic ev element v label) := by
  apply Scripted.bind (.ofExcept (hev.offers _))
  intro _
  cases st.arrayItems? v with
  | none => exact .pure _
  | some items =>
    apply Scripted.bind (.ofExcept (hev.offers _))
    intro _
    apply Scripted.bind (scripted_mismatches hadmits hev hc items)
    intro offending
    apply Scripted.ite (.pure none)
    apply Scripted.bind (.ofExcept (failsWithin_constraintName hadmits.fault element hc))
    exact fun name ↦ .bind (.record hadmits rfl) fun _ ↦ .pure _

theorem scripted_unionDiagnostic (hadmits : Admits P Q) (hev : ev.FailsWithin P)
    {branches : List Constraint}
    (hcs : Constraint.LeavesOfAll (Constraint.RefusesWithin P) branches)
    (diagnostics : List String) (v : Value) (label : String) :
    Scripted P Q (st.unionDiagnostic ev branches diagnostics v label) := by
  by_cases hsingle : branches.length = 1 ∧ diagnostics.length = 1
  · obtain ⟨c, rfl⟩ := List.length_eq_one_iff.1 hsingle.1
    obtain ⟨d, rfl⟩ := List.length_eq_one_iff.1 hsingle.2
    exact .pure _
  · rw [unionDiagnostic_of_many ev hsingle]
    refine .bind (scripted_policyFor hadmits hev) fun p ↦ ?_
    cases haccused : st.accusedArray? branches v p with
    | some element =>
      have harray := firstArray?_of_accusedArray? haccused
      have hname : FailsWithin P (st.constraintName element) :=
        failsWithin_constraintName hadmits.fault element
          (firstArray?_leaves (.union branches) hcs harray)
      exact .bind (.ofExcept hname) fun _ ↦ .pure _
    | none =>
      have hnames : FailsWithin P (branches.mapM st.constraintName) := .mapM fun c hc ↦
        failsWithin_constraintName hadmits.fault c (Constraint.leavesOfAll_iff.1 hcs c hc)
      exact .bind (.ofExcept hnames) fun _ ↦ .pure _

mutual
theorem scripted_diagnose (hadmits : Admits P Q) (hev : ev.FailsWithin P) (c : Constraint)
    (hc : c.Leaves (Constraint.RefusesWithin P)) (v : Value) (label : String) :
    Scripted P Q (st.diagnose ev c v label) := by
  cases c with
  | type target =>
    apply Scripted.bind (.call hev _ _)
    intro _
    apply Scripted.bind (.of_mild hadmits (st.mild_hasType target v))
    intro fits
    exact .ite (.pure none) (.bind (.of_mild hadmits (st.mild_targetName target)) fun _ ↦ .pure _)
  | literals literals =>
    apply Scripted.bind (.call hev _ _)
    intro _
    apply Scripted.bind (scripted_accepts hadmits hev _ hc v)
    intro fits
    exact .ite (.pure none)
      (.bind (.of_mild hadmits (st.mild_literalNames literals)) fun _ ↦ .pure _)
  | array element =>
    exact .bind (.call hev _ _) fun _ ↦ scripted_arrayDiagnostic hadmits hev element hc v label
  | union branches =>
    apply Scripted.bind (.call hev _ _)
    intro _
    apply Scripted.bind (.ofExcept (hev.offers _))
    intro _
    apply Scripted.bind (scripted_diagnoseEach hadmits hev branches hc v label)
    intro outcomes
    exact .ite (.pure none)
      (.bind (scripted_unionDiagnostic hadmits hev hc _ v label) fun _ ↦ .pure _)
  | refused fault => exact .bind (.call hev _ _) fun _ ↦ .throw hc
termination_by structural c
theorem scripted_diagnoseEach (hadmits : Admits P Q) (hev : ev.FailsWithin P)
    (cs : List Constraint) (hcs : Constraint.LeavesOfAll (Constraint.RefusesWithin P) cs)
    (v : Value) (label : String) : Scripted P Q (st.diagnoseEach ev cs v label) := by
  cases cs with
  | nil => exact .pure []
  | cons c cs =>
    apply Scripted.bind (scripted_diagnose hadmits hev c hcs.1 v label)
    intro diagnostic
    apply Scripted.bind (scripted_diagnoseEach hadmits hev cs hcs.2 v label)
    exact fun diagnostics ↦ .pure (diagnostic :: diagnostics)
termination_by structural cs
end

theorem refusesWithin_constraintWithin (hP : ∀ e, e.isInvalid = false → P e) (depth : Nat)
    (v : Value) : (st.constraintWithin depth v).Leaves (Constraint.RefusesWithin P) := by
  have hpart {v : Value} {part : String} {tree : Value → Except Fault Constraint}
      (htree : ∀ w, Mild (tree w))
      (h : ∀ w t, st.attributeOf v part = .ok w → tree w = .ok t →
        t.Leaves (Constraint.RefusesWithin P)) :
      (st.constraintPart v part tree).Leaves (Constraint.RefusesWithin P) :=
    leaves_constraintPart
      (fun e he ↦ hP e (FailsWithin.bind (st.mild_attributeOf v part) htree e he)) h
  induction depth generalizing v with
  | zero => exact hP _ rfl
  | succ depth ih =>
    unfold constraintWithin
    split
    · refine hpart (fun _ ↦ .pure _) fun target t _ ht ↦ ?_
      cases ht
      trivial
    · refine hpart (fun w ↦ .bind (st.mild_iterate w) fun _ ↦ .pure _) fun values t _ ht ↦ ?_
      obtain ⟨literals, -, ht⟩ := answer_of_bind ht
      cases ht
      trivial
    · refine hpart (fun _ ↦ .pure _) fun element t _ ht ↦ ?_
      cases ht
      exact ih element
    · refine hpart (fun w ↦ .bind (st.mild_iterate w) fun _ ↦ .pure _) fun values t _ ht ↦ ?_
      obtain ⟨branches, -, ht⟩ := answer_of_bind ht
      cases ht
      exact Constraint.leavesOfAll_map fun branch _ ↦ ih branch
    · refine hP _ ?_
      unfold unsupported
      split
      · rfl
      · next e he => exact st.mild_written v e he

theorem refusesWithin_constraint (hP : ∀ e, e.isInvalid = false → P e) (v : Value) :
    (st.constraint v).Leaves (Constraint.RefusesWithin P) := refusesWithin_constraintWithin hP _ v

theorem scripted_violation? (hadmits : Admits P Q) {judge : Judge} (hjudge : judge.FailsWithin P)
    (name field value : Value) : Scripted P Q (st.violation? judge name field value) := by
  apply Scripted.bind (.of_mild hadmits (st.mild_passesUnseen field value))
  intro unseen
  apply Scripted.ite (.pure none)
  apply Scripted.bind_ofExcept hjudge.asked
  intro evaluator hevaluator
  apply Scripted.bind (.of_mild hadmits (st.mild_attributeOf field _))
  intro constraint
  apply Scripted.bind (.of_mild hadmits (st.mild_attributeLabel name))
  intro label
  apply Scripted.bind_ofExcept (hjudge.called hevaluator)
  intro ev hev
  have hjudges : ev.FailsWithin P := hjudge.judges (by rw [hevaluator, hev, Judge.of])
  exact .bind (scripted_diagnose hadmits hjudges _ (refusesWithin_constraint hadmits.fault _) _ _)
    fun _ ↦ .pure _

theorem scripted_violations (hadmits : Admits P Q) {judge : Judge} (hjudge : judge.FailsWithin P)
    (fields : Entries Value Value) {valueOf : Value → Except Fault Value}
    (hvalues : ∀ name, FailsWithin P (valueOf name)) :
    Scripted P Q (st.violations judge fields valueOf) :=
  .bind (.mapM fun e _ ↦ .bind (.ofExcept (hvalues e.1)) fun v ↦
    scripted_violation? hadmits hjudge e.1 e.2 v) fun _ ↦ .pure _

theorem scripted_severityInForce (hadmits : Admits P Q) : Scripted P Q st.severityInForce :=
  .bind (scripted_setting hadmits _ _ st.mild_isTrue) fun _ ↦ .pure _

theorem scripted_rejectUnknown (hadmits : Admits P Q) (typeName : String) {r : Roster}
    {supply : Supply} (hnames : FailsWithin P (supply.names >>= st.unknownNames r)) :
    Scripted P Q (st.rejectUnknown typeName r supply) := by
  apply Scripted.bind (.ofExcept hnames)
  intro unknown
  exact .ite (.pure ()) (.bind (.record hadmits rfl) fun _ ↦ .throw (hadmits.fault _ rfl))

end Store

end Evaluation

namespace Store

variable {st : Store}

theorem scripted_approve (judge : Judge) (typeName : String) (fields values : Entries Value Value) :
    Scripted (fun _ ↦ True) (fun _ ↦ True) (st.approve judge typeName fields values) := by
  apply Scripted.bind (scripted_violations .all (.all judge) fields fun _ ↦ .all _)
  intro violations
  apply Scripted.bind (.noteAll fun _ _ ↦ trivial)
  intro _
  apply Scripted.ite (.pure ())
  apply Scripted.bind (scripted_severityInForce .all)
  exact fun severity ↦ .bind (.note trivial) fun _ ↦ .throw trivial

theorem scripted_acceptedValues (judge : Except Fault Judge) (typeName : String) (r : Roster)
    (supply : Supply) : Scripted (fun _ ↦ True) (fun _ ↦ True)
      (st.acceptedValues judge typeName r supply) := by
  apply Scripted.bind (scripted_rejectUnknown .all typeName (.all _))
  intro _
  apply Scripted.bind (.ofExcept (.all _))
  intro values
  apply Scripted.bind (.ofExcept (.all _))
  intro judge
  apply Scripted.bind (.ofExcept (.all _))
  intro fields
  exact .bind (scripted_approve judge typeName fields values) fun _ ↦ .pure values

end Store

end Conformance
