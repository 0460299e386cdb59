import Conformance.Proofs.Evaluation.Concordance

namespace Conformance

/-- What a violation is about, whatever its message says. -/
def Violation.cause (v : Violation) : Value × Value × Value := (v.name, v.constraint, v.actual)

/-- The same fault, or failed validations that differ in their messages only. -/
inductive Fault.SameKind : Fault → Fault → Prop
  | same (e : Fault) : SameKind e e
  | invalid {typeName : String} {vs ws : List Violation}
      (h : vs.map Violation.cause = ws.map Violation.cause) :
      SameKind (.invalid typeName vs) (.invalid typeName ws)

namespace Store

variable {st : Store} {s t : Session}

def SettingsFail (st : Store) (s : Session) (e : Fault) : Prop :=
  st.policyIn .shared s = .error e ∨ st.severityIn s = .error e

theorem settingsFail_of_sameSettings {e : Fault} (h : s.SameSettings t)
    (ht : st.SettingsFail t e) : st.SettingsFail s e := by
  unfold SettingsFail at ht ⊢
  rwa [policyIn_of_sameSettings h, severityIn_of_sameSettings h] at ht

/-- How two runs end that start from two sessions. -/
inductive EndsAlike (st : Store) (s t : Session) {α β : Type} (R : α → β → Prop) :
    EStateM.Result Fault Session α → EStateM.Result Fault Session β → Prop
  | answers {a : α} {b : β} {s' t' : Session} (h : R a b) (hs : s.SameSettings s')
      (ht : t.SameSettings t') : EndsAlike st s t R (.ok a s') (.ok b t')
  | faults {e e' : Fault} {s' t' : Session} (h : e.SameKind e') :
      EndsAlike st s t R (.error e s') (.error e' t')
  | left {e : Fault} {s' : Session} (h : st.SettingsFail s e)
      (r : EStateM.Result Fault Session β) : EndsAlike st s t R (.error e s') r
  | right {e : Fault} {t' : Session} (h : st.SettingsFail t e)
      (r : EStateM.Result Fault Session α) : EndsAlike st s t R r (.error e t')

theorem EndsAlike.start {α β : Type} {R : α → β → Prop} {s' t' : Session}
    {r : EStateM.Result Fault Session α} {r' : EStateM.Result Fault Session β}
    (h : EndsAlike st s' t' R r r') (hs : s.SameSettings s') (ht : t.SameSettings t') :
    EndsAlike st s t R r r' := by
  cases h with
  | answers h hs' ht' => exact .answers h (hs.trans hs') (ht.trans ht')
  | faults h => exact .faults h
  | left h => exact .left (settingsFail_of_sameSettings hs h) _
  | right h => exact .right (settingsFail_of_sameSettings ht h) _

def Parallel (st : Store) {α β : Type} (R : α → β → Prop) (x : Check α) (y : Check β) : Prop :=
  ∀ s t, EndsAlike st s t R (x s) (y t)

namespace Parallel

variable {α β γ δ : Type} {R : α → β → Prop} {Q : γ → δ → Prop} {x : Check α} {y : Check β}

theorem bind {f : α → Check γ} {g : β → Check δ} (h : st.Parallel R x y)
    (hf : ∀ a b, R a b → st.Parallel Q (f a) (g b)) : st.Parallel Q (x >>= f) (y >>= g) := by
  intro s t
  have hxy := h s t
  simp only [Bind.bind, EStateM.bind]
  generalize x s = r at hxy ⊢
  generalize y t = r' at hxy ⊢
  cases hxy with
  | answers hR hs ht => exact (hf _ _ hR _ _).start hs ht
  | faults he => exact .faults he
  | left he => exact .left he _
  | right he => exact .right he _

theorem pure {a : α} {b : β} (h : R a b) : st.Parallel R (Pure.pure a) (Pure.pure b) :=
  fun s t ↦ .answers h (.refl s) (.refl t)

theorem throw {e e' : Fault} (h : e.SameKind e') :
    st.Parallel R (MonadExcept.throw e) (MonadExcept.throw e') :=
  fun _ _ ↦ .faults h

theorem of_lockstep (h : Lockstep R x y) : st.Parallel R x y := by
  intro s t
  have hends := h s t
  generalize x s = r at hends ⊢
  generalize y t = r' at hends ⊢
  cases hends with
  | answers hR calls entries =>
    exact .answers hR (s.sameSettings_adding _ _) (t.sameSettings_adding _ _)
  | faults e calls entries => exact .faults (.same e)

theorem ofExcept (q : Except Fault α) :
    st.Parallel (fun a b ↦ q = .ok a ∧ a = b) (Check.ofExcept q) (Check.ofExcept q) :=
  of_lockstep (.ofExcept q)

theorem noteAll (es fs : List Entry) :
    st.Parallel (fun _ _ ↦ True) (Check.noteAll es) (Check.noteAll fs) :=
  fun _ _ ↦ .answers trivial ⟨rfl, rfl⟩ ⟨rfl, rfl⟩

theorem record (r r' : Record) :
    st.Parallel (fun _ _ ↦ True) (Check.record r) (Check.record r') :=
  fun _ _ ↦ .answers trivial ⟨rfl, rfl⟩ ⟨rfl, rfl⟩

theorem mapM {ι κ : Type} (φ : β → κ) {f g : ι → Check β} {l : List ι}
    (h : ∀ i ∈ l, st.Parallel (fun a b ↦ φ a = φ b) (f i) (g i)) :
    st.Parallel (fun as bs ↦ as.map φ = bs.map φ) (l.mapM f) (l.mapM g) := by
  induction l with
  | nil => exact pure rfl
  | cons i l ih =>
    rw [List.mapM_cons, List.mapM_cons]
    apply bind (h i List.mem_cons_self)
    intro a b hab
    apply bind (ih fun j hj ↦ h j (List.mem_cons_of_mem i hj))
    intro as bs habs
    refine pure ?_
    rw [List.map_cons, List.map_cons, hab, habs]

end Parallel

theorem setting_parallel {κ : Type} {part : String} {asRead : Settings → κ}
    {asRecorded : Value → Except Fault κ}
    (hfail : ∀ s e, st.settingIn part asRead asRecorded s = .error e → st.SettingsFail s e) :
    st.Parallel (fun _ _ ↦ True) (st.setting part asRead asRecorded)
      (st.setting part asRead asRecorded) := by
  intro s t
  cases hs : st.settingIn part asRead asRecorded s with
  | error e =>
    rw [setting_error hs]
    exact .left (hfail s e hs) _
  | ok a =>
    cases ht : st.settingIn part asRead asRecorded t with
    | error e =>
      rw [setting_error ht]
      exact .right (hfail t e ht) _
    | ok b =>
      rw [setting_run hs, setting_run ht]
      exact .answers trivial s.sameSettings_loaded t.sameSettings_loaded

theorem policyFor_parallel :
    st.Parallel (fun _ _ ↦ True) (st.policyFor .shared) (st.policyFor .shared) := by
  have hpolicy : st.policyFor .shared = st.policyInForce := rfl
  rw [hpolicy]
  apply setting_parallel
  intro s e h
  exact .inl h

theorem severityInForce_parallel :
    st.Parallel (fun _ _ ↦ True) st.severityInForce st.severityInForce := by
  refine Parallel.bind (setting_parallel ?_) fun _ _ _ ↦ .pure trivial
  intro s e h
  right
  rw [severityIn, h]
  rfl

theorem unionDiagnostic_parallel {branches : List Constraint} {v : Value}
    (hnamed : (st.arrayItems? v).isSome → ∃ names, st.constraintNames branches = .ok names)
    {ds es : List String} (hlength : ds.length = es.length) (label : String) :
    st.Parallel (fun _ _ ↦ True) (st.unionDiagnostic .shared branches ds v label)
      (st.unionDiagnostic .shared branches es v label) := by
  have hpolicy : st.Parallel (fun _ _ ↦ True)
      (do
        let p ← st.policyFor .shared
        st.unionWording branches v label (st.accusedArray? branches v p))
      (do
        let p ← st.policyFor .shared
        st.unionWording branches v label (st.accusedArray? branches v p)) :=
    .bind policyFor_parallel fun p q _ ↦ .of_lockstep (unionWording_lockstep hnamed label p q)
  by_cases hsingle : branches.length = 1 ∧ ds.length = 1
  · obtain ⟨c, rfl⟩ := List.length_eq_one_iff.1 hsingle.1
    obtain ⟨d, rfl⟩ := List.length_eq_one_iff.1 hsingle.2
    obtain ⟨e, rfl⟩ := List.length_eq_one_iff.1 (hlength.symm.trans hsingle.2)
    exact .pure trivial
  · rw [unionDiagnostic_of_many .shared hsingle, unionDiagnostic_of_many .shared (hlength ▸ hsingle)]
    exact hpolicy

mutual
theorem diagnose_parallel (c : Constraint) (v : Value) (label : String) :
    st.Parallel (st.SameDiagnosis c v) (st.diagnose .shared c v label)
      (st.diagnose .shared c v label) := by
  have hshared : Evaluator.shared.IsIntact := Evaluator.isIntact_ofPolicy none
  cases c with
  | union branches =>
    simp only [diagnose]
    refine .bind (.of_lockstep (call_lockstep hshared hshared _ _)) fun _ _ _ ↦ ?_
    refine .bind (.ofExcept _) fun _ _ _ ↦ ?_
    refine .bind (diagnoseEach_parallel branches v label) ?_
    rintro as bs ⟨hsome, hnamed⟩
    rw [any_isNone_of_map hsome]
    cases hany : bs.any Option.isNone with
    | true => exact .pure (sameDiagnosis_none _)
    | false =>
      have hbs := all_isSome_of_any_isNone hany
      have has := all_isSome_of_any_isNone ((any_isNone_of_map hsome).trans hany)
      have hlength : (as.filterMap id).length = (bs.filterMap id).length := by
        rw [length_filterMap_of_all has, length_filterMap_of_all hbs]
        simpa using congrArg List.length hsome
      refine .bind (unionDiagnostic_parallel (hnamed has) hlength label) fun _ _ _ ↦ ?_
      exact .pure (sameDiagnosis_some fun hv ↦ exists_unionName (hnamed has hv))
  | _ =>
    refine .of_lockstep ((diagnose_lockstep_of_ne_union hshared hshared ?_ v label).mono ?_)
    · exact fun _ h ↦ by cases h
    · exact fun _ _ h ↦ h.2
termination_by structural c
theorem diagnoseEach_parallel (cs : List Constraint) (v : Value) (label : String) :
    st.Parallel (st.SameDiagnoses cs v) (st.diagnoseEach .shared cs v label)
      (st.diagnoseEach .shared cs v label) := by
  cases cs with
  | nil => exact .pure sameDiagnoses_nil
  | cons c cs =>
    simp only [diagnoseEach]
    refine .bind (diagnose_parallel c v label) fun a b h ↦ ?_
    exact .bind (diagnoseEach_parallel cs v label) fun as bs hs ↦ .pure (sameDiagnoses_cons h hs)
termination_by structural cs
end

end Store

end Conformance
