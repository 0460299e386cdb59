import Conformance.Proofs.Evaluation.Contrast

namespace Conformance

namespace Constraint

mutual
/-- The unions of which a constraint is made up, by their branches. Those of the elements of arrays
are none of them. -/
def unions : Constraint → List (List Constraint)
  | .union branches => branches :: unionsOfAll branches
  | _ => []
termination_by structural c => c
def unionsOfAll : List Constraint → List (List Constraint)
  | [] => []
  | c :: cs => c.unions ++ unionsOfAll cs
termination_by structural cs => cs
end

end Constraint

namespace Session

/-- A session in which the settings have been read since, if they could be. -/
def HasRead (s t : Session) : Prop :=
  ∀ settings, s.settingsInForce = .ok settings → t.settings = some settings

theorem hasRead_loaded (s : Session) : s.HasRead s.loaded := fun _ ↦ settings_loaded

theorem HasRead.start {s s' t : Session} (h : s'.HasRead t) (hs : s.SameSettings s') :
    s.HasRead t := fun settings hsettings ↦ h settings (hs.inForce.trans hsettings)

theorem HasRead.adding {s t : Session} (h : s.HasRead t) (calls : List Call)
    (entries : List Entry) : s.HasRead (t.adding calls entries) := h

end Session

namespace Check

variable {α : Type}

/-- A check that reads the settings: it fails where they cannot be read, and where they can they are
kept. -/
structure ReadsSettings (x : Check α) : Prop where
  fails {s : Session} {e : Fault} (h : s.settingsInForce = .error e) : ∃ t, x s = .error e t
  keeps (s : Session) : s.HasRead (x.after s)

theorem IgnoresSettings.not_readsSettings {x : Check α} (h : x.IgnoresSettings) :
    ¬ x.ReadsSettings := by
  intro hreads
  have hkept := hreads.keeps .initial ⟨.element, false⟩ rfl
  have hends := h .initial .initial
  unfold after at hkept
  generalize x .initial = r at hkept hends
  cases hends <;> cases hkept

end Check

namespace Store

variable {st : Store} {ev : Evaluator}

theorem policyIn_of_force {s : Session} {e : Fault} (he : ev.policy? = .ok none)
    (h : s.settingsInForce = .error e) : st.policyIn ev s = .error e := by
  rw [policyIn, he]
  simp only [settingIn, h]
  rfl

/-- The ends of two checks that do the same, except that the first one may read the settings. If
these fail it, or if the second one fails after they were read, there is nothing to compare. -/
inductive Consulted (st : Store) (ev : Evaluator) (s t : Session) {α : Type} (reads : Prop)
    (R : α → α → Prop) :
    EStateM.Result Fault Session α → EStateM.Result Fault Session α → Prop
  | ignored {a b : α} (h : ¬ reads) (hR : R a b) (calls : List Call) (entries : List Entry) :
      Consulted st ev s t reads R (.ok a (s.adding calls entries)) (.ok b (t.adding calls entries))
  | faults (e : Fault) (calls : List Call) (entries : List Entry) :
      Consulted st ev s t reads R (.error e (s.adding calls entries))
        (.error e (t.adding calls entries))
  | read {p : Policy} {a b : α} {s' t' : Session} (h : reads) (hp : st.policyIn ev s = .ok p)
      (hR : R a b) (hs : s.SameSettings s') (hread : s.HasRead s') :
      Consulted st ev s t reads R (.ok a s') (.ok b t')
  | unread {e : Fault} {b : α} {s' t' : Session} (h : reads) (he : st.policyIn ev s = .error e)
      (hread : s.HasRead s') : Consulted st ev s t reads R (.error e s') (.ok b t')
  | raises {e : Fault} {t' : Session} (h : reads) (r : EStateM.Result Fault Session α) :
      Consulted st ev s t reads R r (.error e t')

namespace Consulted

variable {α : Type} {s t s' t' : Session} {reads reads' : Prop} {R : α → α → Prop}
  {r r' : EStateM.Result Fault Session α}

theorem prepend {calls : List Call} {entries : List Entry} (hreads : ¬ reads')
    (h : Consulted st ev (s.adding calls entries) (t.adding calls entries) reads R r r') :
    Consulted st ev s t (reads' ∨ reads) R r r' := by
  have hs := s.sameSettings_adding calls entries
  cases h with
  | ignored h hR calls' entries' =>
    rw [Session.adding_adding, Session.adding_adding]
    exact .ignored (not_or.2 ⟨hreads, h⟩) hR _ _
  | faults e calls' entries' =>
    rw [Session.adding_adding, Session.adding_adding]
    exact .faults e _ _
  | read h hp hR hs' hread =>
    exact .read (.inr h) (policyIn_of_sameSettings hs ev ▸ hp) hR (hs.trans hs') (hread.start hs)
  | unread h he hread =>
    exact .unread (.inr h) (policyIn_of_sameSettings hs ev ▸ he) (hread.start hs)
  | raises h r => exact .raises (.inr h) r

theorem append {p : Policy} (hreads : reads') (hp : st.policyIn ev s = .ok p)
    (hs : s.SameSettings s') (hread : s.HasRead s')
    (h : Consulted st ev s' t' reads R r r') : Consulted st ev s t (reads' ∨ reads) R r r' := by
  cases h with
  | ignored h hR calls entries =>
    exact .read (.inl hreads) hp hR (hs.trans (s'.sameSettings_adding _ _)) (hread.adding _ _)
  | faults e calls entries => exact .raises (.inl hreads) _
  | read h _ hR hs' hread' => exact .read (.inl hreads) hp hR (hs.trans hs') (hread'.start hs)
  | unread h he hread' =>
    exact .unread (.inl hreads) (policyIn_of_sameSettings hs ev ▸ he) (hread'.start hs)
  | raises h r => exact .raises (.inl hreads) r

end Consulted

def Consults (st : Store) (ev : Evaluator) {α : Type} (reads : Prop) (R : α → α → Prop)
    (x y : Check α) : Prop :=
  ∀ s t, Consulted st ev s t reads R (x s) (y t)

namespace Consults

variable {α β : Type} {reads reads' : Prop} {R : α → α → Prop} {Q : β → β → Prop} {x y : Check α}
  {f g : α → Check β}

theorem of_lockstep (h : ¬ reads) (hxy : Lockstep R x y) : st.Consults ev reads R x y := by
  intro s t
  have hends := hxy s t
  generalize x s = r at hends ⊢
  generalize y t = r' at hends ⊢
  cases hends with
  | answers hR calls entries => exact .ignored h hR calls entries
  | faults e calls entries => exact .faults e calls entries

theorem congr (h : st.Consults ev reads R x y) (hreads : reads ↔ reads') :
    st.Consults ev reads' R x y := propext hreads ▸ h

theorem and_right {S : α → Prop} (h : st.Consults ev reads R x y)
    (hy : ∀ b t t', y t = .ok b t' → S b) : st.Consults ev reads (fun a b ↦ R a b ∧ S b) x y := by
  intro s t
  have hends := h s t
  have hb := fun b t' ↦ hy b t t'
  generalize x s = r at hends ⊢
  generalize y t = r' at hends hb ⊢
  cases hends with
  | ignored h hR calls entries => exact .ignored h ⟨hR, hb _ _ rfl⟩ calls entries
  | faults e calls entries => exact .faults e calls entries
  | read h hp hR hs hread => exact .read h hp ⟨hR, hb _ _ rfl⟩ hs hread
  | unread h he hread => exact .unread h he hread
  | raises h r => exact .raises h r

theorem bind (h : st.Consults ev reads R x y)
    (hf : ∀ a b, R a b → st.Consults ev reads' Q (f a) (g b)) :
    st.Consults ev (reads ∨ reads') Q (x >>= f) (y >>= g) := by
  intro s t
  have hxy := h s t
  simp only [Bind.bind, EStateM.bind]
  generalize x s = r at hxy ⊢
  generalize y t = r' at hxy ⊢
  cases hxy with
  | ignored h hR calls entries => exact (hf _ _ hR _ _).prepend h
  | faults e calls entries => exact .faults e calls entries
  | read h hp hR hs hread => exact (hf _ _ hR _ _).append h hp hs hread
  | @unread e b s' t' h he hread =>
    -- the first check is at its end, and the second one goes on without it
    simp only
    cases g b t' with
    | ok c u => exact .unread (.inl h) he hread
    | error e' u => exact .raises (.inl h) _
  | raises h r => exact .raises (.inl h) _

theorem after_lockstep (hxy : Lockstep R x y)
    (hf : ∀ a b, R a b → st.Consults ev reads Q (f a) (g b)) :
    st.Consults ev reads Q (x >>= f) (y >>= g) :=
  ((of_lockstep not_false hxy).bind hf).congr (by rw [false_or])

theorem then_lockstep (h : st.Consults ev reads R x y)
    (hf : ∀ a b, R a b → Lockstep Q (f a) (g b)) : st.Consults ev reads Q (x >>= f) (y >>= g) :=
  (h.bind fun a b hR ↦ of_lockstep not_false (hf a b hR)).congr (by rw [or_false])

theorem lockstep (h : st.Consults ev reads R x y) (hreads : ¬ reads) (hR : ∀ a b, R a b → a = b) :
    Lockstep (· = ·) x y := by
  intro s t
  have hends := h s t
  generalize x s = r at hends ⊢
  generalize y t = r' at hends ⊢
  cases hends with
  | ignored _ h calls entries => exact .answers (hR _ _ h) calls entries
  | faults e calls entries => exact .faults e calls entries
  | read h => exact absurd h hreads
  | unread h => exact absurd h hreads
  | raises h => exact absurd h hreads

theorem readsSettings (h : st.Consults ev reads R x y) (hreads : reads)
    (he : ev.policy? = .ok none) {b : α} {s₀ t₀ : Session} (hy : y s₀ = .ok b t₀) :
    x.ReadsSettings where
  fails {s e} hs := by
    have hends := h s s₀
    rw [hy] at hends
    generalize x s = r at hends ⊢
    cases hends with
    | ignored hnone => exact absurd hreads hnone
    | read _ hp => cases hp.symm.trans (policyIn_of_force he hs)
    | unread _ hp =>
      cases hp.symm.trans (policyIn_of_force he hs)
      exact ⟨_, rfl⟩
  keeps s := by
    have hends := h s s₀
    rw [hy] at hends
    unfold Check.after
    generalize x s = r at hends ⊢
    cases hends with
    | ignored hnone => exact absurd hreads hnone
    | read _ _ _ _ hread => exact hread
    | unread _ _ hread => exact hread

end Consults

/-- Among some unions there is one of several branches, none of which accepts a value. -/
def SomeUnionRejects (st : Store) (ev : Evaluator) (unions : List (List Constraint)) (v : Value) :
    Prop :=
  ∃ branches ∈ unions, 2 ≤ branches.length ∧ ∀ c ∈ branches, ¬ (st.accepts ev c v).Answers true

variable {v : Value} {branches : List Constraint}

theorem not_someUnionRejects_nil : ¬ st.SomeUnionRejects ev [] v := by
  rintro ⟨branches, hbranches, -⟩
  cases hbranches

theorem someUnionRejects_append {unions unions' : List (List Constraint)} :
    st.SomeUnionRejects ev (unions ++ unions') v ↔
      st.SomeUnionRejects ev unions v ∨ st.SomeUnionRejects ev unions' v := by
  simp only [SomeUnionRejects, List.mem_append, or_and_right, exists_or]

theorem someUnionRejects_singleton : st.SomeUnionRejects ev [branches] v ↔
    2 ≤ branches.length ∧ ∀ c ∈ branches, ¬ (st.accepts ev c v).Answers true := by
  simp only [SomeUnionRejects, List.mem_singleton, exists_eq_left]

theorem someUnionRejects_of_fails (hb : branches ≠ []) (hsingle : branches.length ≠ 1)
    (hfails : ∀ c ∈ branches, ¬ (st.accepts ev c v).Answers true) :
    st.SomeUnionRejects ev [branches] v := by
  have hpos := List.length_pos_of_ne_nil hb
  exact someUnionRejects_singleton.2 ⟨by omega, hfails⟩

theorem someUnionRejects_cons {unions : List (List Constraint)} :
    st.SomeUnionRejects ev (branches :: unions) v ↔
      st.SomeUnionRejects ev unions v ∨ st.SomeUnionRejects ev [branches] v := by
  rw [← List.singleton_append, someUnionRejects_append, or_comm]

theorem any_isNone_iff_accepted {cs : List Constraint} {diagnostics : List (Option String)}
    (h : List.Forall₂ (fun c d ↦ (st.accepts ev c v).Answers d.isNone) cs diagnostics) :
    diagnostics.any Option.isNone = true ↔ ∃ c ∈ cs, (st.accepts ev c v).Answers true := by
  induction h with
  | nil => simp
  | @cons c d cs ds hc _ ih =>
    have hhead : d.isNone = true ↔ (st.accepts ev c v).Answers true :=
      ⟨fun hd ↦ hd ▸ hc, hc.unique⟩
    rw [List.any_cons, Bool.or_eq_true, List.exists_mem_cons_iff, ih, hhead]

variable {g : Evaluator} {p q : Policy} {label : String}

theorem policyFor_consults (he : ev.policy? = .ok none) (hg : g.policy? = .ok (some q)) :
    st.Consults ev True (fun _ _ ↦ True) (st.policyFor ev) (st.policyFor g) := by
  have hpolicy : st.policyFor ev = st.policyInForce := by
    rw [policyFor, he]
    rfl
  have hpolicyIn (s : Session) : st.policyIn ev s =
      st.settingIn "union_array_messages" Settings.policy (fun v ↦ pure (policyOf v)) s := by
    rw [policyIn, he]
    rfl
  intro s t
  rw [policyFor_of_policy hg, hpolicy]
  cases h : st.policyIn ev s with
  | error e =>
    rw [policyInForce, setting_error (hpolicyIn s ▸ h)]
    exact .unread trivial h s.hasRead_loaded
  | ok p =>
    rw [policyInForce, setting_run (hpolicyIn s ▸ h)]
    exact .read trivial h trivial s.sameSettings_loaded s.hasRead_loaded

def SameUnless (st : Store) (ev : Evaluator) (c : Constraint) (v : Value) (a b : Option String) :
    Prop :=
  st.SameDiagnosis c v a b ∧ (¬ st.SomeUnionRejects ev c.unions v → a = b)

def SameUnlessEach (st : Store) (ev : Evaluator) (cs : List Constraint) (v : Value)
    (as bs : List (Option String)) : Prop :=
  st.SameDiagnoses cs v as bs ∧
    (¬ st.SomeUnionRejects ev (Constraint.unionsOfAll cs) v → as = bs)

theorem sameUnless_cons {c : Constraint} {cs : List Constraint} {a b : Option String}
    {as bs : List (Option String)} (h : st.SameUnless ev c v a b)
    (hs : st.SameUnlessEach ev cs v as bs) :
    st.SameUnlessEach ev (c :: cs) v (a :: as) (b :: bs) := by
  refine ⟨sameDiagnoses_cons h.1 hs.1, fun hnone ↦ ?_⟩
  rw [Constraint.unionsOfAll, someUnionRejects_append, not_or] at hnone
  rw [h.2 hnone.1, hs.2 hnone.2]

theorem unionVerdict_consults (he : ev.policy? = .ok none) (hg : g.policy? = .ok (some q))
    (hb : branches ≠ []) {as bs : List (Option String)}
    (h : st.SameUnlessEach ev branches v as bs)
    (hverdicts : List.Forall₂ (fun c d ↦ (st.accepts ev c v).Answers d.isNone) branches bs) :
    st.Consults ev (st.SomeUnionRejects ev [branches] v) (st.SameUnless ev (.union branches) v)
      (if as.any Option.isNone then return none
        else return some (← st.unionDiagnostic ev branches (as.filterMap id) v label))
      (if bs.any Option.isNone then return none
        else return some (← st.unionDiagnostic g branches (bs.filterMap id) v label)) := by
  rw [any_isNone_of_map h.1.1]
  have haccepted := any_isNone_iff_accepted hverdicts
  cases hany : bs.any Option.isNone with
  | true =>
    refine .of_lockstep ?_ (.pure ⟨sameDiagnosis_none _, fun _ ↦ rfl⟩)
    obtain ⟨c, hc, hanswers⟩ := haccepted.1 hany
    rw [someUnionRejects_singleton]
    exact fun hrejects ↦ hrejects.2 c hc hanswers
  | false =>
    have hbs := all_isSome_of_any_isNone hany
    have has := all_isSome_of_any_isNone ((any_isNone_of_map h.1.1).trans hany)
    have hname (hv : (st.arrayItems? v).isSome) := exists_unionName (h.1.2 has hv)
    by_cases hsingle : branches.length = 1
    -- a single branch leaves the policy alone, but may have asked for it before
    · obtain ⟨c, rfl⟩ := List.length_eq_one_iff.1 hsingle
      obtain ⟨text', rfl⟩ := exists_singleton_of_all hverdicts.length_eq.symm hbs
      obtain ⟨text, rfl⟩ :=
        exists_singleton_of_all (by simpa using congrArg List.length h.1.1) has
      refine .of_lockstep ?_ (.pure ⟨sameDiagnosis_some hname, fun hnone ↦ ?_⟩)
      · rw [someUnionRejects_singleton]
        exact fun hrejects ↦ absurd hrejects.1 (by simp)
      · cases h.2 fun hrejects ↦ hnone (someUnionRejects_cons.2 (.inl hrejects))
        rfl
    · have hfails : ∀ c ∈ branches, ¬ (st.accepts ev c v).Answers true := fun c hc hanswers ↦
        absurd (haccepted.2 ⟨c, hc, hanswers⟩) (by rw [hany]; exact Bool.false_ne_true)
      have hrejects := someUnionRejects_of_fails hb hsingle hfails
      have hpolicy : st.Consults ev (st.SomeUnionRejects ev [branches] v) (fun _ _ ↦ True)
          (st.policyFor ev) (st.policyFor g) :=
        (policyFor_consults he hg).congr (iff_of_true trivial hrejects)
      have hwording := hpolicy.then_lockstep fun p q _ ↦
        unionWording_lockstep (h.1.2 has) label p q
      rw [unionDiagnostic_of_many ev fun h ↦ hsingle h.1,
        unionDiagnostic_of_many g fun h ↦ hsingle h.1]
      refine hwording.then_lockstep fun _ _ _ ↦ .pure ⟨sameDiagnosis_some hname, fun hnone ↦ ?_⟩
      exact absurd (someUnionRejects_cons.2 (.inr hrejects)) hnone

theorem diagnose_consults_of_ne_union (hev : ev.IsIntact) (hg : g.IsIntact) {c : Constraint}
    (hc : ∀ branches, c ≠ .union branches) (v : Value) (label : String) :
    st.Consults ev (st.SomeUnionRejects ev c.unions v) (st.SameUnless ev c v)
      (st.diagnose ev c v label) (st.diagnose g c v label) := by
  have hunions : c.unions = [] := by
    cases c with
    | union branches => exact absurd rfl (hc branches)
    | _ => rfl
  have hdiagnose : Lockstep (fun a b ↦ a = b ∧ st.SameDiagnosis c v a b) (st.diagnose ev c v label)
      (st.diagnose g c v label) := diagnose_lockstep_of_ne_union hev hg hc v label
  refine .of_lockstep ?_ (hdiagnose.mono fun a b h ↦ ⟨h.2, fun _ ↦ h.1⟩)
  rw [hunions]
  exact not_someUnionRejects_nil

mutual
/-- A diagnosis by an evaluator without a policy, side by side with one by an evaluator that has one.
-/
theorem diagnose_consults (hev : ev.IsIntact) (he : ev.policy? = .ok none) (hg : g.IsIntact)
    (hq : g.policy? = .ok (some q)) (c : Constraint) (hc : c.HasBranches) (v : Value)
    (label : String) :
    st.Consults ev (st.SomeUnionRejects ev c.unions v) (st.SameUnless ev c v)
      (st.diagnose ev c v label) (st.diagnose g c v label) := by
  cases c with
  | union branches =>
    simp only [diagnose]
    refine .after_lockstep (call_lockstep hev hg _ _) fun _ _ _ ↦ ?_
    refine .after_lockstep (offers_lockstep hev hg (by decide)) fun _ _ _ ↦ ?_
    have hbranches := (diagnoseEach_consults hev he hg hq branches hc.2 v label).and_right
      fun _ _ _ h ↦ answers_of_diagnoseEach hev hg branches h
    exact (hbranches.bind fun as bs h ↦ unionVerdict_consults he hq hc.1 h.1 h.2).congr
      someUnionRejects_cons.symm
  | _ => exact diagnose_consults_of_ne_union hev hg (fun _ h ↦ by cases h) v label
termination_by structural c
theorem diagnoseEach_consults (hev : ev.IsIntact) (he : ev.policy? = .ok none) (hg : g.IsIntact)
    (hq : g.policy? = .ok (some q)) (cs : List Constraint) (hcs : Constraint.AllHaveBranches cs)
    (v : Value) (label : String) :
    st.Consults ev (st.SomeUnionRejects ev (Constraint.unionsOfAll cs) v)
      (st.SameUnlessEach ev cs v) (st.diagnoseEach ev cs v label)
      (st.diagnoseEach g cs v label) := by
  cases cs with
  | nil =>
    exact .of_lockstep not_someUnionRejects_nil
      (.pure ⟨sameDiagnoses_nil, fun _ ↦ rfl⟩)
  | cons c cs =>
    simp only [diagnoseEach]
    refine (Consults.bind (diagnose_consults hev he hg hq c hcs.1 v label) fun a b h ↦ ?_).congr
      someUnionRejects_append.symm
    exact (diagnoseEach_consults hev he hg hq cs hcs.2 v label).then_lockstep fun as bs hs ↦
      .pure (sameUnless_cons h hs)
termination_by structural cs
end

theorem settingsInForce_eq_unknownPolicy_iff {s : Session} {given : String} :
    s.settingsInForce = .error (.unknownPolicy given) ↔ s.settings = none ∧
      s.environment.unionArrayMessages = some given ∧ Policy.read? given = none := by
  unfold Session.settingsInForce
  cases s.settings with
  | some settings => exact ⟨nofun, nofun⟩
  | none =>
    simp only [true_and, Settings.parse, Policy.parse]
    cases s.environment.unionArrayMessages with
    | none => exact ⟨nofun, nofun⟩
    | some text =>
      rw [Option.some.injEq]
      constructor
      · intro h
        cases hread : Policy.read? text with
        | some p =>
          simp only [hread] at h
          cases h
        | none =>
          simp only [hread] at h
          cases h
          exact ⟨rfl, hread⟩
      · rintro ⟨rfl, hread⟩
        simp only [hread]
        rfl

/-- A record of the settings that has been tampered with does not hide what the environment says. -/
theorem force_of_policyIn {s : Session} {given : String} (he : ev.policy? = .ok none)
    (h : st.policyIn ev s = .error (.unknownPolicy given)) :
    s.settingsInForce = .error (.unknownPolicy given) := by
  rw [policyIn, he] at h
  cases hs : s.settingsInForce with
  | error e =>
    simp only [settingIn, hs] at h
    cases h
    rfl
  | ok settings =>
    simp only [settingIn, hs] at h
    cases hrecord : s.settingsRecord with
    | none =>
      rw [hrecord] at h
      cases h
    | some id =>
      rw [hrecord] at h
      have hlooksUp : LooksUp (st.attributeOf (.object (.builtin .settings) id)
          "union_array_messages" >>= fun v ↦ pure (policyOf v)) :=
        .bind (st.lookUp_attributeOf _ _) fun _ ↦ .pure _
      cases hlooksUp _ h

/-- Who has a policy, and who only accepts, has nothing to do with the settings. A diagnosis by any
other evaluator reads them if and only if some union of several branches rejects the value, unless it
fails for another reason; then it fails for the settings where they have not been read before, and
cannot be. -/
theorem settings_consulted (st : Store) (hev : ev.IsIntact) (c : Constraint) (v : Value)
    (label : String) :
    let x := st.diagnose ev c v label
    (∀ p, ev.policy? = .ok (some p) → x.IgnoresSettings) ∧
    (st.accepts ev c v).IgnoresSettings ∧
    (ev.policy? = .ok none → c.HasBranches →
      (x.ReadsSettings → st.SomeUnionRejects ev c.unions v) ∧
      (¬ st.SomeUnionRejects ev c.unions v → x.IgnoresSettings) ∧
      ∀ p d s₀ t₀, st.diagnose (.ofPolicy (some p)) c v label s₀ = .ok d t₀ →
        (st.SomeUnionRejects ev c.unions v → x.ReadsSettings) ∧
        ∀ s given, (∃ t, x s = .error (.unknownPolicy given) t) ↔
          st.SomeUnionRejects ev c.unions v ∧ s.settings = none ∧
            s.environment.unionArrayMessages = some given ∧ Policy.read? given = none) ∧
    (c.IsProper → st.CanName c → st.CanCompare c v → ∀ p s,
      ∃ d t, st.diagnose (.ofPolicy (some p)) c v label s = .ok d t) := by
  intro x
  refine ⟨fun p hp ↦ diagnose_ignoresSettings hev hp c v label, accepts_ignoresSettings hev c v,
    fun hp hc ↦ ?_, fun hc hn hv p s ↦ ?_⟩
  · have hconsults (p : Policy) : st.Consults ev (st.SomeUnionRejects ev c.unions v)
        (st.SameUnless ev c v) x (st.diagnose (.ofPolicy (some p)) c v label) :=
      diagnose_consults hev hp (Evaluator.isIntact_ofPolicy (some p)) rfl c hc v label
    have hignores (hnone : ¬ st.SomeUnionRejects ev c.unions v) : x.IgnoresSettings :=
      Check.ignoresSettings_of_lockstep ((hconsults .default).lockstep hnone fun _ _ h ↦ h.2 hnone)
    refine ⟨fun hreads ↦ ?_, hignores, fun p d s₀ t₀ hrun ↦ ⟨fun hrejects ↦ ?_, fun s given ↦ ?_⟩⟩
    · by_contra hnone
      exact (hignores hnone).not_readsSettings hreads
    · exact (hconsults p).readsSettings hrejects hp hrun
    · rw [← settingsInForce_eq_unknownPolicy_iff]
      refine ⟨fun ⟨t, ht⟩ ↦ ?_, fun ⟨hrejects, hforce⟩ ↦ ?_⟩
      · have hends := hconsults p s s₀
        rw [ht, hrun] at hends
        cases hends with
        | unread hrejects hpolicy => exact ⟨hrejects, force_of_policyIn hp hpolicy⟩
      · exact ((hconsults p).readsSettings hrejects hp hrun).fails hforce
  · exact exists_diagnose_of_policy (Evaluator.isIntact_ofPolicy (some p)) rfl hc hn hv label s

/-- A number of either type or a text: a text fits, but only after the numbers have been tried, and
with that the settings. -/
theorem settings_consulted_numbers :
    let c := Constraint.union [.union [.type (.ofClass (.builtin .integer)),
      .type (.ofClass (.builtin .float))], .type (.ofClass (.builtin .text))]
    let v := Value.text "one"
    let loud := { Session.initial with environment := ⟨some "loud", none⟩ }
    Evaluator.shared.IsIntact ∧ Evaluator.shared.policy? = .ok none ∧ c.HasBranches ∧
      (∃ t, initial.diagnose (.ofPolicy (some .element)) c v "Size" loud = .ok none t) ∧
      (initial.diagnose .shared c v "Size").ReadsSettings ∧
      ∃ t, initial.diagnose .shared c v "Size" loud = .error (.unknownPolicy "loud") t := by
  intro c v loud
  have hev : Evaluator.shared.IsIntact := Evaluator.isIntact_ofPolicy none
  have hb : c.HasBranches :=
    ⟨List.cons_ne_nil _ _, ⟨List.cons_ne_nil _ _, trivial, trivial, trivial⟩, trivial, trivial⟩
  have hrejects : initial.SomeUnionRejects .shared c.unions v := by
    refine ⟨_, List.mem_cons_of_mem _ List.mem_cons_self, Nat.le_refl 2, ?_⟩
    have hinteger : ∃ t, initial.accepts .shared (.type (.ofClass (.builtin .integer)))
        (.text "one") .initial = .ok false t := ⟨_, rfl⟩
    have hfloat : ∃ t, initial.accepts .shared (.type (.ofClass (.builtin .float)))
        (.text "one") .initial = .ok false t := ⟨_, rfl⟩
    obtain ⟨t, hinteger⟩ := hinteger
    obtain ⟨t', hfloat⟩ := hfloat
    refine List.forall_mem_cons.2 ⟨Check.not_answers_of_run hinteger (by decide), ?_⟩
    exact List.forall_mem_singleton.2 (Check.not_answers_of_run hfloat (by decide))
  have hrun : ∃ t, initial.diagnose (.ofPolicy (some .element)) c v "Size" loud = .ok none t :=
    ⟨_, rfl⟩
  obtain ⟨-, -, hconsulted, -⟩ := settings_consulted initial hev c v "Size"
  obtain ⟨t, hrun⟩ := hrun
  obtain ⟨-, -, hconsulted⟩ := hconsulted rfl hb
  obtain ⟨hreads, hraises⟩ := hconsulted .element none loud t hrun
  exact ⟨hev, rfl, hb, ⟨t, hrun⟩, hreads hrejects,
    (hraises loud "loud").2 ⟨hrejects, rfl, rfl, by decide⟩⟩

/-- Settings that cannot be read go unnoticed where a comparison that fails comes first: a note is
neither a number nor a text, but it is asked before whether it is another note. -/
theorem not_settings_consulted :
    ¬ ∀ (st : Store) (ev : Evaluator) (c : Constraint) (v : Value) (label : String) (s : Session)
      (given : String), ev.IsIntact → ev.policy? = .ok none → c.IsProper → c.HasBranches →
      ((∃ t, st.diagnose ev c v label s = .error (.unknownPolicy given) t) ↔
        st.SomeUnionRejects ev c.unions v ∧ s.settings = none ∧
          s.environment.unionArrayMessages = some given ∧ Policy.read? given = none) := by
  intro h
  let note := Value.object (.defined 1)
  let loud := { Session.initial with environment := ⟨some "loud", none⟩ }
  let c := Constraint.union [.literals [note ⟨4⟩],
    .union [.type (.ofClass (.builtin .integer)), .type (.ofClass (.builtin .text))]]
  have hiff := h withNotes .shared c (note ⟨5⟩) "Field" loud "loud"
    (Evaluator.isIntact_ofPolicy none) rfl ⟨trivial, ⟨trivial, trivial, trivial⟩, trivial⟩
    ⟨List.cons_ne_nil _ _, trivial, ⟨List.cons_ne_nil _ _, trivial, trivial, trivial⟩, trivial⟩
  have hrejects : withNotes.SomeUnionRejects .shared c.unions (note ⟨5⟩) := by
    refine ⟨_, List.mem_cons_of_mem _ List.mem_cons_self, Nat.le_refl 2, ?_⟩
    have hinteger : ∃ t, withNotes.accepts .shared (.type (.ofClass (.builtin .integer)))
        (.object (.defined 1) ⟨5⟩) .initial = .ok false t := ⟨_, rfl⟩
    have htext : ∃ t, withNotes.accepts .shared (.type (.ofClass (.builtin .text)))
        (.object (.defined 1) ⟨5⟩) .initial = .ok false t := ⟨_, rfl⟩
    obtain ⟨t, hinteger⟩ := hinteger
    obtain ⟨t', htext⟩ := htext
    refine List.forall_mem_cons.2 ⟨Check.not_answers_of_run hinteger (by decide), ?_⟩
    exact List.forall_mem_singleton.2 (Check.not_answers_of_run htext (by decide))
  obtain ⟨t, hrun⟩ := hiff.2 ⟨hrejects, rfl, rfl, by decide⟩
  have hfault : ∃ t, withNotes.diagnose .shared c (note ⟨5⟩) "Field" loud =
      .error (.notCallable "int") t := ⟨_, rfl⟩
  obtain ⟨t', hfault⟩ := hfault
  rw [hfault] at hrun
  cases hrun

end Store

end Conformance
