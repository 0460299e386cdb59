import Conformance.Proofs.Evaluation.Script

namespace Conformance

namespace Session

theorem SameSettings.symm {s t : Session} (h : SameSettings s t) : SameSettings t s :=
  ⟨h.inForce.symm, h.settingsRecord.symm⟩

/-- Two ends of one check: the same answer or the same fault. An answer leaves both sessions with
the settings that they had. -/
inductive SameAnswer (s t : Session) {α : Type} :
    EStateM.Result Fault Session α → EStateM.Result Fault Session α → Prop
  | answers (a : α) {s' t' : Session} (hs : s.SameSettings s') (ht : t.SameSettings t') :
      SameAnswer s t (.ok a s') (.ok a t')
  | faults (e : Fault) (s' t' : Session) : SameAnswer s t (.error e s') (.error e t')

theorem SameAnswer.start {α : Type} {s t t' : Session} {r r' : EStateM.Result Fault Session α}
    (h : SameAnswer s t' r r') (ht : t.SameSettings t') : SameAnswer s t r r' := by
  cases h with
  | answers a hs ht' => exact .answers a hs (ht.trans ht')
  | faults e s' t'' => exact .faults e s' t''

theorem SameAnswer.map {α β : Type} {s t : Session} {x y : Check α} (f : α → β)
    (h : SameAnswer s t (x s) (y t)) :
    SameAnswer s t ((do return f (← x) : Check β) s) ((do return f (← y) : Check β) t) := by
  simp only [bind, EStateM.bind]
  generalize x s = r at h ⊢
  generalize y t = r' at h ⊢
  cases h with
  | answers a hs ht => exact .answers (f a) hs ht
  | faults e s' t' => exact .faults e s' t'

end Session

open Session

/-- A check that ends alike in all sessions with the same settings. -/
def Steady {α : Type} (x : Check α) : Prop :=
  ∀ s t, s.SameSettings t → SameAnswer s t (x s) (x t)

namespace Steady

variable {α β : Type} {x : Check α} {f : α → Check β}

theorem bind (hx : Steady x) (hf : ∀ a, Steady (f a)) : Steady (x >>= f) := by
  intro s t h
  have hends := hx s t h
  simp only [Bind.bind, EStateM.bind]
  generalize x s = r at hends ⊢
  generalize x t = r' at hends ⊢
  cases hends with
  | @answers a s' t' hs ht =>
    have hends' := hf a s' t' ((hs.symm.trans h).trans ht)
    dsimp only
    generalize f a s' = r at hends' ⊢
    generalize f a t' = r' at hends' ⊢
    cases hends' with
    | answers b hs' ht' => exact .answers b (hs.trans hs') (ht.trans ht')
    | faults e s'' t'' => exact .faults e s'' t''
  | faults e s' t' => exact .faults e s' t'

theorem pure (a : α) : Steady (Pure.pure a) := fun s t _ ↦ .answers a (.refl s) (.refl t)

/-- A check that answers in one session answers the same in another, and leaves both sessions with
their settings. -/
theorem run {s s' t : Session} {a : α} (hx : Steady x) (h : s.SameSettings t)
    (hrun : x s = .ok a s') : ∃ t', x t = .ok a t' ∧ t.SameSettings t' := by
  have hends := hx s t h
  rw [hrun] at hends
  generalize hr : x t = r at hends
  cases hends with
  | answers _ _ ht => exact ⟨_, rfl, ht⟩

theorem sameSettings {s s' : Session} {a : α} (hx : Steady x) (hrun : x s = .ok a s') :
    s.SameSettings s' := by
  have hends := hx s s (.refl s)
  rw [hrun] at hends
  cases hends with
  | answers _ hs _ => exact hs

end Steady

theorem steady_lookUp : Steady lookUp := by
  intro s t h
  cases hs : s.settingsInForce with
  | ok settings =>
    rw [lookUp_run hs, lookUp_run (h.inForce.trans hs), h.settingsRecord]
    exact .answers _ s.sameSettings_loaded t.sameSettings_loaded
  | error e =>
    rw [lookUp_error hs, lookUp_error (h.inForce.trans hs)]
    exact .faults e s t

theorem Script.steady {α : Type} (sc : Script α) : Steady sc.run := by
  induction sc with
  | ends r =>
    cases r with
    | ok a => exact .pure a
    | error e => exact fun s t _ ↦ .faults e s t
  | notes e next ih =>
    have hnote : Steady (Check.note e) := fun _ _ _ ↦ .answers () ⟨rfl, rfl⟩ ⟨rfl, rfl⟩
    exact hnote.bind fun _ ↦ ih
  | calls call next ih =>
    have hcalled : Steady (Check.called call.method call.constraint) :=
      fun _ _ _ ↦ .answers () ⟨rfl, rfl⟩ ⟨rfl, rfl⟩
    exact hcalled.bind fun _ ↦ ih
  | looks next ih => exact steady_lookUp.bind fun seen ↦ ih seen.1 seen.2

theorem Scripted.steady {P : Fault → Prop} {Q : Entry → Prop} {α : Type} {x : Check α}
    (hx : Scripted P Q x) : Steady x := by
  obtain ⟨sc, rfl, -⟩ := hx
  exact sc.steady

namespace Store

variable {st : Store}

theorem steady_diagnose (ev : Evaluator) (c : Constraint) (v : Value) (label : String) :
    Steady (st.diagnose ev c v label) :=
  (scripted_diagnose .all (.all ev) c (Constraint.refusesWithin_all c) v label).steady

/-- The violations that are found do not depend on what has been checked before. -/
theorem steady_violations (judge : Judge) (fields : Entries Value Value)
    (valueOf : Value → Except Fault Value) : Steady (st.violations judge fields valueOf) :=
  (scripted_violations .all (.all judge) fields fun _ ↦ .all _).steady

end Store

end Conformance
