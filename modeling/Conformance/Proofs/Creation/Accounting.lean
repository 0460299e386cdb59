import Conformance.Proofs.Creation.Ending
import Conformance.Proofs.Evaluation.Steadiness

namespace Conformance

open EStateM (Result)

def Session.Accounts (s : Session) (account : List Entry) (t : Session) : Prop :=
  ∃ new, t.journal = s.journal ++ new ∧ new.filter Entry.isAccount = account

theorem Session.Accounts.trans {s t u : Session} {as bs : List Entry} (h : s.Accounts as t)
    (h' : t.Accounts bs u) : s.Accounts (as ++ bs) u := by
  obtain ⟨es, hes, rfl⟩ := h
  obtain ⟨fs, hfs, rfl⟩ := h'
  exact ⟨es ++ fs, by rw [hfs, hes, List.append_assoc], List.filter_append ..⟩

theorem Session.Accounts.of_journal_eq {s t : Session} (h : t.journal = s.journal) :
    s.Accounts [] t := ⟨[], by rw [h, List.append_nil], rfl⟩

theorem Session.Accounts.of_adds {s t : Session} (h : s.Adds (·.isAccount = false) t) :
    s.Accounts [] t := by
  obtain ⟨es, hes, hfalse⟩ := h
  exact ⟨es, hes, List.filter_eq_nil_iff.2 fun e he ↦ by rw [hfalse e he]; exact Bool.false_ne_true⟩

abbrev Quiet {α : Type} (x : Check α) : Prop :=
  Scripted (fun e ↦ e.isInvalid = false) (fun e ↦ e.isAccount = false) x

theorem Admits.quiet : Admits (fun e ↦ e.isInvalid = false) (fun e ↦ e.isAccount = false) :=
  ⟨fun _ h ↦ h, fun _ h ↦ h⟩

theorem filter_creationEntries (typeName : Value) (violated : List Value) :
    (creationEntries typeName violated).filter Entry.isAccount =
      creationEntries typeName violated := by
  refine List.filter_eq_self.2 fun e he ↦ ?_
  rcases List.mem_cons.1 he with rfl | he
  · rfl
  · obtain ⟨name, -, rfl⟩ := List.mem_map.1 he
    rfl

def refusalAccount (typeName : String) (severity : Severity) (vs : List Violation) : List Entry :=
  .created (.text typeName) false :: vs.map (fun v ↦ .violated (.text typeName) v.name) ++
    [.record (.validationFailed severity (failureReason typeName (vs.map Violation.message)))]

/-- A creation that ends in one of three ways: it succeeds, it is refused for its values, or it does
not come to a verdict. The journal tells of the first two. -/
inductive Accounted (typeName : String) (severity : Severity) (s : Session) {α : Type} :
    Result Fault Session α → Prop
  | created (a : α) {t : Session} (h : s.Accounts [.created (.text typeName) true] t) :
      Accounted typeName severity s (.ok a t)
  | refused {vs : List Violation} {t : Session} (hvs : vs ≠ [])
      (h : s.Accounts (refusalAccount typeName severity vs) t) :
      Accounted typeName severity s (.error (.invalid typeName vs) t)
  | failed {e : Fault} {t : Session} (he : e.isInvalid = false) (h : s.Accounts [] t) :
      Accounted typeName severity s (.error e t)

namespace Accounted

variable {α β : Type} {typeName : String} {severity : Severity} {s s' : Session}

theorem start {r : Result Fault Session α} (h : Accounted typeName severity s' r)
    (hs : s.Accounts [] s') : Accounted typeName severity s r := by
  cases h with
  | created a h => exact .created a (hs.trans h)
  | refused hvs h => exact .refused hvs (hs.trans h)
  | failed he h => exact .failed he (hs.trans h)

theorem bind {x : Check α} {f : α → Check β} (hx : Quiet x)
    (hf : ∀ a s', x s = .ok a s' → s.SameSettings s' → Accounted typeName severity s' (f a s')) :
    Accounted typeName severity s ((x >>= f) s) := by
  have hadding := hx.adding .quiet
  cases hrun : x s with
  | ok a s' =>
    rw [bind_of_ok hrun]
    exact (hf a s' hrun (hx.steady.sameSettings hrun)).start (.of_adds (hadding.answers hrun))
  | error e s' =>
    rw [bind_of_error hrun]
    obtain ⟨he, hadds⟩ := hadding.faults hrun
    exact .failed he (.of_adds hadds)

theorem andReturn {x : Check α} (h : Accounted typeName severity s (x s)) (b : β) :
    Accounted typeName severity s ((do let _ ← x; return b : Check β) s) := by
  generalize hr : x s = r at h
  cases h with
  | created a h =>
    rw [bind_of_ok hr]
    exact .created b h
  | refused hvs h =>
    rw [bind_of_error hr]
    exact .refused hvs h
  | failed he h =>
    rw [bind_of_error hr]
    exact .failed he h

end Accounted

namespace Store

variable {st : Store} {s : Session} {severity : Severity}

theorem accounted_approve {judge : Judge} (hjudge : judge.FailsWithin (·.isInvalid = false))
    (hseverity : st.severityIn s = .ok severity) (typeName : String)
    (fields values : Entries Value Value) :
    Accounted typeName severity s (st.approve judge typeName fields values s) := by
  have hquiet : Quiet (st.violations judge fields (st.givenBy values)) :=
    scripted_violations .quiet hjudge fields fun name ↦ st.mild_givenBy values name
  have hadding := hquiet.adding .quiet
  cases hrun : st.violations judge fields (st.givenBy values) s with
  | error e t =>
    obtain ⟨he, hadds⟩ := hadding.faults hrun
    rw [approve, bind_of_error hrun]
    exact .failed he (.of_adds hadds)
  | ok vs t =>
    obtain ⟨hnone, hsome⟩ := approve_of_violations hrun (hquiet.steady.sameSettings hrun) hseverity
      typeName
    have hadds : s.Accounts [] t := .of_adds (hadding.answers hrun)
    by_cases hvs : vs = []
    · subst hvs
      rw [hnone rfl]
      exact .created () (hadds.trans ⟨_, rfl, rfl⟩)
    · rw [hsome hvs]
      have hloaded : (t.counting typeName vs).Accounts [] (t.counting typeName vs).loaded :=
        .of_adds ((t.counting typeName vs).adds_loaded .quiet)
      have hcounted : t.Accounts (.created (.text typeName) false ::
          vs.map fun v ↦ .violated (.text typeName) v.name) (t.counting typeName vs) := by
        have hentries := filter_creationEntries (.text typeName) (vs.map Violation.name)
        refine ⟨_, rfl, hentries.trans ?_⟩
        simp [creationEntries, hvs, Function.comp_def]
      exact .refused hvs (hadds.trans (hcounted.trans (hloaded.trans ⟨_, rfl, rfl⟩)))

theorem accounted_acceptedValues (hseverity : st.severityIn s = .ok severity) (typeName : String)
    (registry : Value) (es : Entries Value Value) :
    Accounted typeName severity s (st.acceptedValues (pure (.of .shared)) typeName
      (st.roster registry) (st.supplyOf es) s) := by
  have hnames : Mild ((st.supplyOf es).names >>= st.unknownNames (st.roster registry)) :=
    .bind (.pure _) (st.mild_unknownNames registry)
  refine .bind (scripted_rejectUnknown .quiet typeName hnames) fun _ s₁ _ h₁ ↦ ?_
  have hselected : Mild (st.selected (st.roster registry) (st.supplyOf es)) :=
    st.mild_selected registry (st.mild_givenBy es)
  refine .bind (.of_mild .quiet hselected) fun values s₂ _ h₂ ↦ ?_
  refine .bind (.of_mild .quiet (.pure _)) fun judge s₃ hjudge h₃ ↦ ?_
  refine .bind (.of_mild .quiet (st.mild_registered registry)) fun fields s₄ _ h₄ ↦ ?_
  have hshared : judge.FailsWithin (·.isInvalid = false) := by
    cases hjudge
    exact .of (Evaluator.failsWithin_ofPolicy _ none)
  have hforce : st.severityIn s₄ = .ok severity :=
    (severityIn_of_sameSettings (((h₁.trans h₂).trans h₃).trans h₄)).trans hseverity
  exact (accounted_approve hshared hforce typeName fields values).andReturn values

end Store

def Store.newValues (st : Store) (c : ClassId) (argument : Value) (named : List (String × Value)) :
    Check (Entries Value Value) := do
  let attributes ← Check.ofExcept (st.givenAttributes (st.className c) argument named)
  let registry ← Check.ofExcept (st.registry c)
  st.acceptedValues (pure (.of .shared)) (st.className c) (st.roster registry)
    (st.supplyOf attributes)

theorem Store.accounted_newValues {st : Store} {s : Session} {severity : Severity}
    (hseverity : st.severityIn s = .ok severity) (c : ClassId) (argument : Value)
    (named : List (String × Value)) :
    Accounted (st.className c) severity s (st.newValues c argument named s) := by
  refine .bind (.of_mild .quiet (st.mild_givenAttributes _ argument named)) fun es s₁ _ h₁ ↦ ?_
  refine .bind (.of_mild .quiet (st.mild_registry c)) fun registry s₂ _ h₂ ↦ ?_
  have hforce : st.severityIn s₂ = .ok severity :=
    (severityIn_of_sameSettings (h₁.trans h₂)).trans hseverity
  exact accounted_acceptedValues hforce (st.className c) registry es

def Action.ending {α : Type} (x : Action α) (s : State) : Except Fault α :=
  match x s with
  | .ok a _ => .ok a
  | .error e _ => .error e

/-- One creation of a run: the name of the class, how severe a refusal is at that time, and how the
creation ends. -/
structure Attempt where
  typeName : String
  severity : Severity
  ending : Except Fault Value

namespace Attempt

def account (a : Attempt) : List Entry :=
  match a.ending with
  | .ok _ => [.created (.text a.typeName) true]
  | .error (.invalid _ vs) => refusalAccount a.typeName a.severity vs
  | .error _ => []

def violations (a : Attempt) : List Violation :=
  match a.ending with
  | .ok _ => []
  | .error (.invalid _ vs) => vs
  | .error _ => []

def isJudged (a : Attempt) : Bool :=
  match a.ending with
  | .ok _ | .error (.invalid ..) => true
  | .error _ => false

/-- A creation that is refused for its values names its class, and says of at least one of them that
it is invalid. -/
def IsRegular (a : Attempt) : Prop :=
  ∀ name vs, a.ending = .error (.invalid name vs) → name = a.typeName ∧ vs ≠ []

variable {a : Attempt} {e : Fault}

theorem isRegular_of_error (h : a.ending = .error e) (he : e.isInvalid = false) : a.IsRegular := by
  intro name vs hinvalid
  rw [h] at hinvalid
  cases hinvalid
  cases he

theorem account_of_error (h : a.ending = .error e) (he : e.isInvalid = false) : a.account = [] := by
  rw [account, h]
  cases e <;> first | rfl | cases he

end Attempt

open Conformance.Action

theorem mild_soleArgument (st : Store) (c : ClassId) (positional : List Value) :
    Mild (st.soleArgument c positional) := by
  refine .ite (.throw rfl) (.bind (st.mild_checkInitializer c) fun _ ↦ ?_)
  cases positional with
  | nil => exact .pure _
  | cons argument others =>
    cases others with
    | nil => exact .pure _
    | cons => exact .throw rfl

theorem Accounted.attempt {α : Type} {a : Attempt} {s t : Session} {r : Result Fault Session α}
    (h : Accounted a.typeName a.severity s r)
    (hok : ∀ x t', r = .ok x t' → (∃ v, a.ending = .ok v) ∧ t = t')
    (herror : ∀ e t', r = .error e t' → a.ending = .error e ∧ t = t') :
    a.IsRegular ∧ s.Accounts a.account t := by
  cases h with
  | created x h =>
    obtain ⟨⟨v, hending⟩, rfl⟩ := hok x _ rfl
    refine ⟨fun name vs hinvalid ↦ ?_, ?_⟩
    · rw [hending] at hinvalid
      cases hinvalid
    · rw [Attempt.account, hending]
      exact h
  | refused hvs h =>
    obtain ⟨hending, rfl⟩ := herror _ _ rfl
    refine ⟨fun name vs hinvalid ↦ ?_, ?_⟩
    · rw [hending] at hinvalid
      cases hinvalid
      exact ⟨rfl, hvs⟩
    · rw [Attempt.account, hending]
      exact h
  | failed he h =>
    obtain ⟨hending, rfl⟩ := herror _ _ rfl
    rw [Attempt.account_of_error hending he]
    exact ⟨Attempt.isRegular_of_error hending he, h⟩

/-- Whatever a creation is given, it adds to the account what its end tells. -/
theorem attempt_accounted {s : State} {c : ClassId} (hc : s.store.nature c = .validated)
    {severity : Severity} (hseverity : s.store.severityIn s.session = .ok severity)
    (positional : List Value) (named : List (String × Value)) :
    let a : Attempt := ⟨s.store.className c, severity, ending (instantiate c positional named) s⟩
    a.IsRegular ∧
      s.session.Accounts a.account (after (instantiate c positional named) s).session := by
  intro a
  have hstart := instantiate_validated (s := s) hc positional named
  cases hsole : s.store.soleArgument c positional with
  | error e =>
    have hrun : instantiate c positional named s = .error e s :=
      hstart.trans (bind_of_error (ask_of_error hsole))
    have hfailed : Accounted a.typeName a.severity s.session
        (.error e s.session : Result Fault Session Unit) :=
      .failed (mild_soleArgument s.store c positional e hsole) (.of_journal_eq rfl)
    refine hfailed.attempt (fun x t h ↦ by cases h) fun e' t h ↦ ?_
    cases h
    exact ⟨by simp only [a, ending, hrun], by rw [after_of_error hrun]⟩
  | ok argument =>
    have hnew : instantiate c positional named s = newValidated c argument named s :=
      hstart.trans (bind_of_ok (ask_of_ok hsole))
    refine (Store.accounted_newValues hseverity c argument named).attempt
      (fun values t hvalues ↦ ?_) fun e t hvalues ↦ ?_
    · have hrun := hnew.trans (bind_of_ok (check_of_ok hvalues))
      exact ⟨⟨_, by simp only [a, ending, hrun]; rfl⟩, by rw [after, hrun]; rfl⟩
    · have hrun := hnew.trans (bind_of_error (check_of_error hvalues))
      exact ⟨by simp only [a, ending, hrun], by rw [after_of_error hrun]⟩

/-- A run in which objects of validated classes are created. Before each creation the settings can
be told, and what happens in between has no part in the account. -/
inductive Creations : State → List Attempt → State → Prop
  | none (s : State) : Creations s [] s
  | create {s u : State} {attempts : List Attempt} (c : ClassId) (positional : List Value)
      (named : List (String × Value)) {severity : Severity} (hc : s.store.nature c = .validated)
      (hseverity : s.store.severityIn s.session = .ok severity)
      (rest : Creations (after (instantiate c positional named) s) attempts u) :
      Creations s
        (⟨s.store.className c, severity, ending (instantiate c positional named) s⟩ :: attempts) u
  | meanwhile {s t u : State} {attempts : List Attempt} (h : s.session.Accounts [] t.session)
      (rest : Creations t attempts u) : Creations s attempts u

def Entry.isCreation : Entry → Bool
  | .created .. => true
  | _ => false

def Entry.isViolation : Entry → Bool
  | .violated .. => true
  | _ => false

namespace Attempt

@[simp] theorem countP_account_isCreation (a : Attempt) :
    a.account.countP Entry.isCreation = a.isJudged.toNat := by
  unfold account isJudged
  split
  · rfl
  · simp [refusalAccount, Entry.isCreation, List.countP_cons, List.countP_map, Function.comp_def]
  · rfl

@[simp] theorem countP_account_isViolation (a : Attempt) :
    a.account.countP Entry.isViolation = a.violations.length := by
  unfold account violations
  split
  · rfl
  · simp [refusalAccount, Entry.isViolation, List.countP_map, Function.comp_def]
  · rfl

theorem countP_accounts_isCreation (attempts : List Attempt) :
    (attempts.flatMap account).countP Entry.isCreation = attempts.countP isJudged := by
  induction attempts with
  | nil => rfl
  | cons a attempts ih =>
    rw [List.flatMap_cons, List.countP_append, ih, a.countP_account_isCreation, List.countP_cons,
      Nat.add_comm]
    cases a.isJudged <;> rfl

theorem countP_accounts_isViolation (attempts : List Attempt) :
    (attempts.flatMap account).countP Entry.isViolation = (attempts.flatMap violations).length := by
  induction attempts with
  | nil => rfl
  | cons a attempts ih =>
    rw [List.flatMap_cons, List.countP_append, ih, a.countP_account_isViolation, List.flatMap_cons,
      List.length_append]

end Attempt

theorem countP_filter_isAccount {p : Entry → Bool} (hp : ∀ e, p e = true → e.isAccount = true)
    (es : List Entry) : (es.filter Entry.isAccount).countP p = es.countP p := by
  rw [List.countP_filter]
  refine List.countP_congr fun e _ ↦ ?_
  rw [Bool.and_eq_true]
  exact ⟨And.left, fun h ↦ ⟨h, hp e h⟩⟩

theorem accounts_of_creations {s t : State} {attempts : List Attempt} (h : Creations s attempts t) :
    (∀ a ∈ attempts, a.IsRegular) ∧
    s.session.Accounts (attempts.flatMap Attempt.account) t.session := by
  induction h with
  | none s => exact ⟨List.forall_mem_nil _, .of_journal_eq rfl⟩
  | create c positional named hc hseverity rest ih =>
    obtain ⟨hregular, haccounts⟩ := attempt_accounted hc hseverity positional named
    exact ⟨List.forall_mem_cons.2 ⟨hregular, ih.1⟩, haccounts.trans ih.2⟩
  | meanwhile h rest ih => exact ⟨ih.1, h.trans ih.2⟩

/-- What the journal tells of a run is what the ends of its creations tell, in their order. So as
many creations are counted as come to a verdict, and as many violations as these find in all. -/
theorem creations_accounted {s t : State} {attempts : List Attempt} (h : Creations s attempts t) :
    (∀ a ∈ attempts, a.IsRegular) ∧
    ∃ new, t.session.journal = s.session.journal ++ new ∧
      new.filter Entry.isAccount = attempts.flatMap Attempt.account ∧
      new.countP Entry.isCreation = attempts.countP Attempt.isJudged ∧
      new.countP Entry.isViolation = (attempts.flatMap Attempt.violations).length := by
  obtain ⟨hregular, new, hnew, haccount⟩ := accounts_of_creations h
  refine ⟨hregular, new, hnew, haccount, ?_, ?_⟩
  · have hcreation (e : Entry) (he : e.isCreation = true) : e.isAccount = true := by
      cases e <;> first | rfl | cases he
    rw [← countP_filter_isAccount hcreation, haccount, Attempt.countP_accounts_isCreation]
  · have hviolation (e : Entry) (he : e.isViolation = true) : e.isAccount = true := by
      cases e <;> first | rfl | cases he
    rw [← countP_filter_isAccount hviolation, haccount, Attempt.countP_accounts_isViolation]

/-- Three creations in a row: a crate, one whose weight is refused after such refusals have been
made worth a warning, and one with a colour, which crates do not have. -/
theorem creations_accounted_withCrate :
    let s₁ := after (instantiate (.defined 1) [] [("label", .text "kiwi")]) withCrate
    let s₂ : State := { s₁ with session := { s₁.session with
      environment := ⟨none, some "yes"⟩, settings := none, settingsRecord := none } }
    let s₃ := after (instantiate (.defined 1) [.dictionary (.cell 2)] [("weight", .text "heavy")]) s₂
    let s₄ := after (instantiate (.defined 1) [] [("colour", .text "green")]) s₃
    s₄.session.journal.filter Entry.isAccount = [.created (.text "Crate") true,
      .created (.text "Crate") false, .violated (.text "Crate") (.text "weight"),
      .record (.validationFailed .warning
        (failureReason "Crate" ["Weight is a String, not a Integer"]))] ∧
    s₄.session.journal.countP Entry.isCreation = 2 ∧
    s₄.session.journal.countP Entry.isViolation = 1 := by
  intro s₁ s₂ s₃ s₄
  have hdebug : withCrate.store.severityIn withCrate.session = .ok .debug :=
    eq_ok_of_toOption (by decide +kernel)
  have hwarning : s₂.store.severityIn s₂.session = .ok .warning :=
    eq_ok_of_toOption (by decide +kernel)
  have hwarning' : s₃.store.severityIn s₃.session = .ok .warning :=
    eq_ok_of_toOption (by decide +kernel)
  have hrun : Creations withCrate _ s₄ :=
    .create (.defined 1) [] [("label", .text "kiwi")] (by decide +kernel) hdebug
      (.meanwhile (t := s₂) (.of_journal_eq rfl)
        (.create (.defined 1) [.dictionary (.cell 2)] [("weight", .text "heavy")] (by decide +kernel)
          hwarning (.create (.defined 1) [] [("colour", .text "green")] (by decide +kernel) hwarning'
            (.none s₄))))
  obtain ⟨-, new, hnew, haccount, hcreations, hviolations⟩ := creations_accounted hrun
  have hempty : s₄.session.journal = new := hnew
  rw [hempty, haccount, hcreations, hviolations]
  exact ⟨by decide +kernel, by decide +kernel, by decide +kernel⟩

end Conformance
