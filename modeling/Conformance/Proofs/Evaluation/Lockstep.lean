import Conformance.Proofs.Evaluation.Diagnosis
import Mathlib.Data.List.Forall2

namespace Conformance

namespace Session

def adding (s : Session) (calls : List Call) (entries : List Entry) : Session :=
  { s with calls := s.calls ++ calls, journal := s.journal ++ entries }

@[simp] theorem adding_nil (s : Session) : s.adding [] [] = s := by
  simp only [adding, List.append_nil]

@[simp] theorem adding_adding (s : Session) (calls calls' : List Call) (entries entries' : List Entry) :
    (s.adding calls entries).adding calls' entries' =
      s.adding (calls ++ calls') (entries ++ entries') := by
  simp only [adding, List.append_assoc]

theorem adding_inj {s : Session} {calls calls' : List Call} {entries entries' : List Entry}
    (h : s.adding calls entries = s.adding calls' entries') : calls = calls' ∧ entries = entries' :=
  ⟨List.append_cancel_left (congrArg Session.calls h),
    List.append_cancel_left (congrArg journal h)⟩

theorem sameSettings_adding (s : Session) (calls : List Call) (entries : List Entry) :
    s.SameSettings (s.adding calls entries) := ⟨rfl, rfl⟩

/-- Two ends that add the same to the sessions in which they started. -/
inductive EndTogether (s t : Session) {α β : Type} (R : α → β → Prop) :
    EStateM.Result Fault Session α → EStateM.Result Fault Session β → Prop
  | answers {a : α} {b : β} (h : R a b) (calls : List Call) (entries : List Entry) :
      EndTogether s t R (.ok a (s.adding calls entries)) (.ok b (t.adding calls entries))
  | faults (e : Fault) (calls : List Call) (entries : List Entry) :
      EndTogether s t R (.error e (s.adding calls entries)) (.error e (t.adding calls entries))

theorem EndTogether.prepend {s t : Session} {α β : Type} {R : α → β → Prop} {calls : List Call}
    {entries : List Entry} {r : EStateM.Result Fault Session α} {r' : EStateM.Result Fault Session β}
    (h : EndTogether (s.adding calls entries) (t.adding calls entries) R r r') :
    EndTogether s t R r r' := by
  cases h with
  | answers h calls' entries' =>
    rw [adding_adding, adding_adding]
    exact .answers h _ _
  | faults e calls' entries' =>
    rw [adding_adding, adding_adding]
    exact .faults e _ _

end Session

open Session

def Lockstep {α β : Type} (R : α → β → Prop) (x : Check α) (y : Check β) : Prop :=
  ∀ s t, EndTogether s t R (x s) (y t)

namespace Lockstep

variable {α β γ δ : Type} {R : α → β → Prop} {Q : γ → δ → Prop} {x : Check α} {y : Check β}

theorem bind {f : α → Check γ} {g : β → Check δ} (h : Lockstep R x y)
    (hf : ∀ a b, R a b → Lockstep Q (f a) (g b)) : Lockstep Q (x >>= f) (y >>= g) := by
  intro s t
  have hxy := h s t
  simp only [Bind.bind, EStateM.bind]
  generalize x s = r at hxy ⊢
  generalize y t = r' at hxy ⊢
  cases hxy with
  | answers hR calls entries => exact (hf _ _ hR _ _).prepend
  | faults e calls entries => exact .faults e calls entries

theorem mono {R' : α → β → Prop} (h : Lockstep R x y) (hR : ∀ a b, R a b → R' a b) :
    Lockstep R' x y := by
  intro s t
  have hxy := h s t
  generalize x s = r at hxy ⊢
  generalize y t = r' at hxy ⊢
  cases hxy with
  | answers h calls entries => exact .answers (hR _ _ h) calls entries
  | faults e calls entries => exact .faults e calls entries

theorem pure {a : α} {b : β} (h : R a b) : Lockstep R (Pure.pure a) (Pure.pure b) := by
  intro s t
  have hends := EndTogether.answers (s := s) (t := t) h [] []
  rwa [adding_nil, adding_nil] at hends

theorem throw (e : Fault) :
    Lockstep R (MonadExcept.throw e : Check α) (MonadExcept.throw e : Check β) := by
  intro s t
  have hends := EndTogether.faults (s := s) (t := t) (R := R) e [] []
  rwa [adding_nil, adding_nil] at hends

theorem ofExcept (q : Except Fault α) :
    Lockstep (fun a b ↦ q = .ok a ∧ a = b) (Check.ofExcept q) (Check.ofExcept q) := by
  cases q with
  | ok a => exact pure ⟨rfl, rfl⟩
  | error e => exact throw e

theorem record (r : Record) : Lockstep (fun _ _ ↦ True) (Check.record r) (Check.record r) := by
  intro s t
  have hends := EndTogether.answers (s := s) (t := t) (R := fun _ _ : Unit ↦ True)
    (a := ()) (b := ()) trivial [] [.record r]
  simp only [adding, List.append_nil] at hends
  exact hends

theorem mapM {ι : Type} {f g : ι → Check α} {l : List ι}
    (h : ∀ i ∈ l, Lockstep (· = ·) (f i) (g i)) :
    Lockstep (· = ·) (l.mapM f) (l.mapM g) := by
  induction l with
  | nil => exact pure rfl
  | cons i l ih =>
    obtain ⟨hi, hl⟩ := List.forall_mem_cons.1 h
    rw [List.mapM_cons, List.mapM_cons]
    apply bind hi
    rintro a _ rfl
    apply bind (ih hl)
    rintro as _ rfl
    exact pure rfl

theorem run_ok (h : Lockstep R x y) {s t s' : Session} {a : α} (hx : x s = .ok a s') :
    ∃ b t', y t = .ok b t' ∧ R a b := by
  have hends := h s t
  rw [hx] at hends
  generalize y t = r at hends ⊢
  cases hends with
  | answers hR calls entries => exact ⟨_, _, rfl, hR⟩

end Lockstep

namespace Check

variable {α β : Type} {x : Check α} {a b : α}

/-- A check that goes the same way whatever the settings are, and leaves them alone. -/
abbrev IgnoresSettings (x : Check α) : Prop := Lockstep (· = ·) x x

def Answers (x : Check α) (a : α) : Prop := ∀ s, ∃ t, x s = .ok a t

theorem Answers.unique (h : x.Answers a) (h' : x.Answers b) : a = b := by
  obtain ⟨t, ha⟩ := h .initial
  obtain ⟨t', hb⟩ := h' .initial
  rw [ha] at hb
  cases hb
  rfl

theorem IgnoresSettings.answers (hx : x.IgnoresSettings) {s t : Session} (h : x s = .ok a t) :
    x.Answers a := by
  intro s'
  obtain ⟨_, t', hrun, rfl⟩ := hx.run_ok h (t := s')
  exact ⟨t', hrun⟩

theorem not_answers_of_run {s t : Session} (h : x s = .ok a t) (hab : a ≠ b) : ¬ x.Answers b := by
  intro hb
  obtain ⟨t', hb⟩ := hb s
  rw [h] at hb
  cases hb
  exact hab rfl

theorem Answers.pure (a : α) : (Pure.pure a : Check α).Answers a := fun s ↦ ⟨s, rfl⟩

theorem Answers.bind {f : α → Check β} {b : β} (hx : x.Answers a) (hf : (f a).Answers b) :
    (x >>= f).Answers b := by
  intro s
  obtain ⟨s', hx⟩ := hx s
  obtain ⟨t, hf⟩ := hf s'
  exact ⟨t, by rw [bind_of_ok hx, hf]⟩

theorem Answers.ofExcept {q : Except Fault α} (h : q = .ok a) : (Check.ofExcept q).Answers a :=
  fun s ↦ ⟨s, ofExcept_run h s⟩

theorem Answers.mapM {ι : Type} {f : ι → Check α} {l : List ι} {as : List α}
    (h : List.Forall₂ (fun i a ↦ (f i).Answers a) l as) : (l.mapM f).Answers as := by
  induction h with
  | nil => exact .pure []
  | cons ha _ ih =>
    rw [List.mapM_cons]
    exact .bind ha (.bind ih (.pure _))

theorem ignoresSettings_of_lockstep {y : Check α} (h : Lockstep (· = ·) x y) :
    x.IgnoresSettings := by
  intro s t
  -- both runs of `x` are compared with one and the same run of `y`
  have hs := h s s
  have ht := h t s
  generalize x s = r at hs ⊢
  generalize x t = r' at ht ⊢
  generalize y s = r'' at hs ht
  cases hs with
  | @answers a _ hab calls entries =>
    subst hab
    generalize hends : s.adding calls entries = u at ht
    cases ht with
    | answers hab' calls' entries' =>
      subst hab'
      obtain ⟨rfl, rfl⟩ := adding_inj hends
      exact .answers rfl calls entries
  | faults e calls entries =>
    generalize hends : s.adding calls entries = u at ht
    cases ht with
    | faults _ calls' entries' =>
      obtain ⟨rfl, rfl⟩ := adding_inj hends
      exact .faults e calls entries

theorem forall₂_answers_of_mapM {ι : Type} {f : ι → Check α} (hf : ∀ i, (f i).IgnoresSettings)
    {l : List ι} {as : List α} {s t : Session} (h : l.mapM f s = .ok as t) :
    List.Forall₂ (fun i a ↦ (f i).Answers a) l as := by
  induction l generalizing as s with
  | nil =>
    cases h
    exact .nil
  | cons i l ih =>
    rw [List.mapM_cons] at h
    obtain ⟨a, s₁, hi, h⟩ := bind_eq_ok h
    obtain ⟨as', s₂, hl, h⟩ := bind_eq_ok h
    cases h
    exact .cons ((hf i).answers hi) (ih hl)

theorem forall_answers_of_all {ι : Type} {f : ι → Check Bool} (hf : ∀ i, (f i).IgnoresSettings)
    {l : List ι} {s t : Session}
    (h : (l.mapM f >>= fun verdicts ↦ Pure.pure (verdicts.all id)) s = .ok true t) :
    ∀ i ∈ l, (f i).Answers true := by
  obtain ⟨verdicts, s', hverdicts, hpure⟩ := bind_eq_ok h
  have hall : verdicts.all id = true := by injection hpure
  have heach := forall₂_answers_of_mapM hf hverdicts
  clear h hverdicts hpure
  induction heach with
  | nil => exact List.forall_mem_nil _
  | cons hi _ ih =>
    obtain ⟨rfl, hall⟩ := Bool.and_eq_true_iff.1 hall
    exact List.forall_mem_cons.2 ⟨hi, ih hall⟩

theorem Answers.all {ι : Type} {f : ι → Check Bool} {l : List ι}
    (h : ∀ i ∈ l, (f i).Answers true) :
    (l.mapM f >>= fun verdicts ↦ Pure.pure (verdicts.all id)).Answers true := by
  have hyes : List.Forall₂ (fun i verdict ↦ (f i).Answers verdict) l (l.map fun _ ↦ true) :=
    List.forall₂_map_right_iff.2 (List.forall₂_same.2 h)
  refine .bind (.mapM hyes) ?_
  simpa using Answers.pure true

end Check

namespace Store

variable {st : Store} {e g : Evaluator}

theorem call_lockstep (he : e.IsIntact) (hg : g.IsIntact) (method : Method) (c : Constraint) :
    Lockstep (fun _ _ ↦ True) (e.call method c) (g.call method c) := by
  intro s t
  rw [Evaluator.call_run he, Evaluator.call_run hg]
  have hends := EndTogether.answers (s := s) (t := t) (R := fun _ _ : Unit ↦ True)
    (a := ()) (b := ()) trivial [⟨method, c⟩] []
  simp only [adding, List.append_nil] at hends
  exact hends

theorem offers_lockstep (he : e.IsIntact) (hg : g.IsIntact) {name : String}
    (hname : name ∈ Builtin.evaluator.operationNames) :
    Lockstep (fun _ _ ↦ True) (Check.ofExcept (e.offers name)) (Check.ofExcept (g.offers name)) := by
  rw [he name hname, hg name hname]
  exact .pure trivial

mutual
/-- Evaluators differ in their policies alone, and acceptance does not ask for these. -/
theorem accepts_lockstep (he : e.IsIntact) (hg : g.IsIntact) (c : Constraint) (v : Value) :
    Lockstep (· = ·) (st.accepts e c v) (st.accepts g c v) := by
  cases c with
  | type target =>
    simp only [accepts]
    refine .bind (call_lockstep he hg _ _) fun _ _ _ ↦ ?_
    exact (Lockstep.ofExcept _).mono fun _ _ h ↦ h.2
  | literals literals =>
    simp only [accepts]
    refine .bind (call_lockstep he hg _ _) fun _ _ _ ↦ ?_
    exact (Lockstep.ofExcept _).mono fun _ _ h ↦ h.2
  | array element =>
    simp only [accepts]
    refine .bind (call_lockstep he hg _ _) fun _ _ _ ↦ ?_
    cases st.arrayItems? v with
    | none => exact .pure rfl
    | some items =>
      refine .bind (offers_lockstep he hg (by decide)) fun _ _ _ ↦ ?_
      refine .bind (.mapM fun item _ ↦ accepts_lockstep he hg element item) ?_
      rintro verdicts _ rfl
      exact .pure rfl
  | union branches =>
    simp only [accepts]
    refine .bind (call_lockstep he hg _ _) fun _ _ _ ↦ ?_
    refine .bind (acceptsEach_lockstep he hg branches v) ?_
    rintro verdicts _ rfl
    exact .pure rfl
  | refused fault =>
    simp only [accepts]
    exact .bind (call_lockstep he hg _ _) fun _ _ _ ↦ .throw fault
termination_by structural c
theorem acceptsEach_lockstep (he : e.IsIntact) (hg : g.IsIntact) (cs : List Constraint)
    (v : Value) : Lockstep (· = ·) (st.acceptsEach e cs v) (st.acceptsEach g cs v) := by
  cases cs with
  | nil => exact .pure rfl
  | cons c cs =>
    simp only [acceptsEach]
    refine .bind (accepts_lockstep he hg c v) ?_
    rintro verdict _ rfl
    refine .bind (acceptsEach_lockstep he hg cs v) ?_
    rintro verdicts _ rfl
    exact .pure rfl
termination_by structural cs
end

theorem accepts_ignoresSettings (he : e.IsIntact) (c : Constraint) (v : Value) :
    (st.accepts e c v).IgnoresSettings := accepts_lockstep he he c v

theorem mismatches_lockstep (he : e.IsIntact) (hg : g.IsIntact) (element : Constraint)
    (items : List Value) :
    Lockstep (· = ·) (st.mismatches e element items) (st.mismatches g element items) := by
  refine .bind (.mapM fun item _ ↦ accepts_lockstep he hg element item) ?_
  rintro verdicts _ rfl
  exact .pure rfl

theorem answers_call (he : e.IsIntact) (method : Method) (c : Constraint) :
    (e.call method c).Answers () := fun s ↦ ⟨_, Evaluator.call_run he method c s⟩

theorem answers_accepts_of_run (he : e.IsIntact) (hg : g.IsIntact) {c : Constraint} {v : Value}
    {b : Bool} {s t : Session} (h : st.accepts g c v s = .ok b t) :
    (st.accepts e c v).Answers b := by
  intro s'
  obtain ⟨_, t', hrun, rfl⟩ := (accepts_lockstep hg he c v).run_ok h (t := s')
  exact ⟨t', hrun⟩

theorem acceptsEach_eq_mapM (cs : List Constraint) (v : Value) :
    st.acceptsEach e cs v = cs.mapM (st.accepts e · v) := by
  induction cs with
  | nil => rfl
  | cons c cs ih => rw [acceptsEach, List.mapM_cons, ih]

theorem ne_none_of_said {α : Type} {name : Check α} {say : α → Check (Option String)}
    (hsay : ∀ a s t, say a s ≠ .ok none t) {s t : Session} : (name >>= say) s ≠ .ok none t := by
  intro h
  obtain ⟨a, s', -, h⟩ := bind_eq_ok h
  exact hsay a s' t h

theorem isNone_eq_of_answer {b : Bool} {complain : Check (Option String)}
    {diagnostic? : Option String} {s t : Session} (hcomplain : complain s ≠ .ok none t)
    (h : (if b = true then pure none else complain : Check (Option String)) s = .ok diagnostic? t) :
    diagnostic?.isNone = b := by
  cases b with
  | true =>
    cases h
    rfl
  | false =>
    cases diagnostic? with
    | none => exact absurd h hcomplain
    | some text => rfl

theorem said_ne_none {α : Type} {say : α → String} (a : α) (s t : Session) :
    (pure (some (say a)) : Check (Option String)) s ≠ .ok none t := nofun

theorem answers_of_arrayDiagnostic (he : e.IsIntact) (hg : g.IsIntact) {element : Constraint}
    {v : Value} {label : String} {diagnostic? : Option String} {s t : Session}
    (h : st.arrayDiagnostic g element v label s = .ok diagnostic? t) :
    (st.accepts e (.array element) v).Answers diagnostic?.isNone := by
  rw [arrayDiagnostic] at h
  obtain ⟨-, s₁, -, h⟩ := bind_eq_ok h
  rw [accepts]
  refine .bind (answers_call he _ _) ?_
  cases hv : st.arrayItems? v with
  | none =>
    simp only [hv] at h
    cases h
    exact .pure false
  | some items =>
    simp only [hv] at h
    obtain ⟨-, s₂, -, h⟩ := bind_eq_ok h
    obtain ⟨offending, s₃, hoffending, h⟩ := bind_eq_ok h
    rw [mismatches] at hoffending
    obtain ⟨verdicts, s₄, hverdicts, hoffending⟩ := bind_eq_ok hoffending
    cases hoffending
    have hall : diagnostic?.isNone = verdicts.all id := by
      rw [isNone_eq_of_answer (ne_none_of_said fun _ _ _ ↦ ne_none_of_said said_ne_none) h,
        Bool.eq_iff_iff, List.isEmpty_iff, List.map_eq_nil_iff, filter_zipIdx_eq_nil_iff]
    have hitems := Check.forall₂_answers_of_mapM
      (fun item ↦ accepts_ignoresSettings hg element item) hverdicts
    rw [hall]
    refine .bind (.ofExcept (he _ (by decide))) (.bind (.mapM ?_) (.pure _))
    refine hitems.imp fun item b hitem ↦ ?_
    obtain ⟨t', hrun⟩ := hitem .initial
    exact answers_accepts_of_run he hg hrun

mutual
/-- If a diagnosis answers, it says nothing of those values only that are accepted. -/
theorem answers_of_diagnose (he : e.IsIntact) (hg : g.IsIntact) (c : Constraint) {v : Value}
    {label : String} {diagnostic? : Option String} {s t : Session}
    (h : st.diagnose g c v label s = .ok diagnostic? t) :
    (st.accepts e c v).Answers diagnostic?.isNone := by
  cases c with
  | type target =>
    rw [diagnose] at h
    obtain ⟨-, s₁, -, h⟩ := bind_eq_ok h
    obtain ⟨b, s₂, hb, h⟩ := bind_eq_ok h
    rw [isNone_eq_of_answer (ne_none_of_said said_ne_none) h, accepts]
    exact .bind (answers_call he _ _) (.ofExcept (Check.of_ofExcept_run hb))
  | literals literals =>
    rw [diagnose] at h
    obtain ⟨-, s₁, -, h⟩ := bind_eq_ok h
    obtain ⟨b, s₂, hb, h⟩ := bind_eq_ok h
    rw [isNone_eq_of_answer (ne_none_of_said said_ne_none) h]
    exact answers_accepts_of_run he hg hb
  | array element =>
    rw [diagnose] at h
    obtain ⟨-, s₁, -, h⟩ := bind_eq_ok h
    exact answers_of_arrayDiagnostic he hg h
  | union branches =>
    rw [diagnose] at h
    obtain ⟨-, s₁, -, h⟩ := bind_eq_ok h
    obtain ⟨-, s₂, -, h⟩ := bind_eq_ok h
    obtain ⟨diagnostics, s₃, hdiagnostics, h⟩ := bind_eq_ok h
    have hverdicts := List.forall₂_map_right_iff.2 (answers_of_diagnoseEach he hg branches hdiagnostics)
    have hany : diagnostic?.isNone = (diagnostics.map Option.isNone).any id := by
      rw [isNone_eq_of_answer (ne_none_of_said said_ne_none) h, List.any_map]
      rfl
    rw [hany, accepts, acceptsEach_eq_mapM]
    exact .bind (answers_call he _ _) (.bind (.mapM hverdicts) (.pure _))
  | refused fault =>
    rw [diagnose] at h
    obtain ⟨-, s₁, -, h⟩ := bind_eq_ok h
    cases h
termination_by structural c
theorem answers_of_diagnoseEach (he : e.IsIntact) (hg : g.IsIntact) (cs : List Constraint)
    {v : Value} {label : String} {diagnostics : List (Option String)} {s t : Session}
    (h : st.diagnoseEach g cs v label s = .ok diagnostics t) :
    List.Forall₂ (fun c d ↦ (st.accepts e c v).Answers d.isNone) cs diagnostics := by
  cases cs with
  | nil =>
    cases h
    exact .nil
  | cons c cs =>
    rw [diagnoseEach] at h
    obtain ⟨diagnostic?, s₁, hc, h⟩ := bind_eq_ok h
    obtain ⟨diagnostics', s₂, hrest, h⟩ := bind_eq_ok h
    cases h
    exact .cons (answers_of_diagnose he hg c hc) (answers_of_diagnoseEach he hg cs hrest)
termination_by structural cs
end

end Store

end Conformance
