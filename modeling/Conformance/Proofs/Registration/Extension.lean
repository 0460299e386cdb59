import Conformance.Creation
import Conformance.Proofs.Evaluation.Steadiness
import Conformance.Proofs.Outcome
import Conformance.Proofs.Registration.Coherence

namespace Conformance

namespace Store

variable {st : Store} {b c : ClassId}

theorem violations_append (judge : Judge) (fs gs : Entries Value Value)
    (valueOf : Value → Except Fault Value) : st.violations judge (fs ++ gs) valueOf = do
      let vs ← st.violations judge fs valueOf
      let ws ← st.violations judge gs valueOf
      return vs ++ ws := by
  simp [violations, List.mapM_append]

@[simp] theorem judge_nil (st : Store) (operation : String) :
    st.judge .nil operation = .ok (.of .shared) := rfl

theorem collected_of_linearization (h : st.linearization c = c :: st.linearization b) :
    st.collected c = Entries.putAll (st.collected b) (st.fieldsOf (st.body c)) := by
  rw [collected, h, List.reverse_cons, List.flatMap_append, Entries.ofList, Entries.putAll,
    List.foldl_append]
  simp [collected, Entries.ofList, Entries.putAll]

/-- The fields of a class that extends one other class, and has none of its names. -/
theorem collected_extends (h : st.linearization c = c :: st.linearization b)
    (hnodup : (st.body c).keys.Nodup)
    (hown : ∀ n ∈ (st.fieldsOf (st.body c)).keys, (st.collected b).get? n = none) :
    st.collected c = st.collected b ++ st.fieldsOf (st.body c) := by
  rw [collected_of_linearization h]
  apply Entries.putAll_of_nodup
  have hkeys : (st.collected b ++ st.fieldsOf (st.body c)).keys =
      (st.collected b).keys ++ (st.fieldsOf (st.body c)).keys := by simp [Entries.keys]
  rw [hkeys, List.nodup_append]
  refine ⟨Entries.nodup_keys_ofList _, st.nodup_keys_fieldsOf hnodup, ?_⟩
  intro n hn m hm hnm
  subst hnm
  exact (Entries.get?_eq_none_iff _ n).1 (hown n hm) hn

theorem linearization_of_bases (h : st.HasHierarchy) (hbases : st.bases c = [b])
    (hb : .root ∈ st.linearization b) :
    ∃ n < st.classes.size, c = .defined n ∧ st.linearization c = c :: st.linearization b := by
  cases c with
  | builtin d =>
    -- the only base of a builtin class is builtin
    have hbuiltin : b ∈ st.bases (.builtin d) := hbases ▸ List.mem_singleton_self b
    obtain ⟨e, -, rfl⟩ := List.mem_map.1 hbuiltin
    obtain ⟨n, -, hn⟩ := exists_of_root_mem hb
    cases hn
  | defined n =>
    by_cases hn : n < st.classes.size
    · obtain ⟨-, rest, hlin, -, -, hone⟩ := h.isLinear n hn
      exact ⟨n, hn, rfl, hone b hbases ▸ hlin⟩
    · have hnone : st.bases (.defined n) = [] := by
        simp only [Table.size] at hn
        simp [bases, Table.get, hn]
        rfl
      rw [hnone] at hbases
      cases hbases

@[simp] theorem asTexts_append (fs gs : Entries String Value) :
    Entries.asTexts (fs ++ gs) = fs.asTexts ++ gs.asTexts := List.map_append

theorem offers_of_registered {registry : Value} {fields : Entries Value Value}
    (h : st.registered registry = .ok fields) : st.offers registry "items" none = .ok () := by
  obtain ⟨_, hoffers, -⟩ := answer_of_bind h
  exact hoffers

end Store

namespace Action

open Store

variable {s : State}

theorem judgeFields_eq_ok {registry values evaluator outcome : Value} {t : State}
    (h : judgeFields registry values evaluator s = .ok outcome t) :
    ∃ judge fields vs session, s.store.judge evaluator Method.diagnose.name = .ok judge ∧
      s.store.registered registry = .ok fields ∧
      s.store.violations judge fields (s.store.valueOrNil values) s.session = .ok vs session ∧
      t.store.Tells outcome vs := by
  obtain ⟨vs, s', hcheck, hrest⟩ := bind_eq_ok h
  obtain ⟨session, hrun, rfl⟩ := check_eq_ok hcheck
  obtain ⟨judge, session', hjudge, hrun⟩ := bind_eq_ok hrun
  obtain ⟨fields, session'', hfields, hrun⟩ := bind_eq_ok hrun
  have hjudge' := Check.of_ofExcept_run hjudge
  have hfields' := Check.of_ofExcept_run hfields
  rw [Check.ofExcept_run hjudge'] at hjudge
  cases hjudge
  rw [Check.ofExcept_run hfields'] at hfields
  cases hfields
  obtain ⟨outcome', t', hrun', htells, -⟩ := outcomeOf_run vs { s with session }
  rw [hrun'] at hrest
  cases hrest
  exact ⟨judge, fields, vs, session, hjudge', hfields', hrun, htells⟩

theorem judgeFields_of_ok {registry values evaluator : Value} {judge : Judge}
    {fields : Entries Value Value} {vs : List Violation} {session : Session}
    (hjudge : s.store.judge evaluator Method.diagnose.name = .ok judge)
    (hfields : s.store.registered registry = .ok fields)
    (hrun : s.store.violations judge fields (s.store.valueOrNil values) s.session =
      .ok vs session) :
    ∃ outcome t, judgeFields registry values evaluator s = .ok outcome t ∧
      t.store.Tells outcome vs := by
  obtain ⟨outcome, t, hrun', htells, -⟩ := outcomeOf_run vs { s with session }
  refine ⟨outcome, t, (bind_of_ok (check_of_ok ?_)).trans hrun', htells⟩
  exact (bind_of_ok (Check.ofExcept_run hjudge _)).trans
    ((bind_of_ok (Check.ofExcept_run hfields _)).trans hrun)

/-- A class whose only base is a validated class, and which declares none of its names, finds the
violations that its base finds, in front of those of its own fields. So what it accepts, its base
accepts. -/
theorem judgeFields_extends (h : Reachable s) {c b : ClassId} (hbases : s.store.bases c = [b])
    (hb : .root ∈ s.store.linearization b) :
    ∃ registry inherited, s.store.registry c = .ok registry ∧
      s.store.registry b = .ok inherited ∧
      let own := s.store.fieldsOf (s.store.body c)
      ((∀ n ∈ own.keys, s.store.item? inherited (.text n) = .ok none) →
        s.store.offers inherited "items" none = .ok () →
        ∀ values evaluator outcome t, judgeFields registry values evaluator s = .ok outcome t →
        ∃ vs ws, t.store.Tells outcome (vs ++ ws) ∧
          (∃ outcome' t', judgeFields inherited values evaluator s = .ok outcome' t' ∧
            t'.store.Tells outcome' vs ∧
            (t.store.Tells outcome [] → t'.store.Tells outcome' [])) ∧
          ∃ judge session, s.store.judge evaluator Method.diagnose.name = .ok judge ∧
            s.store.violations judge own.asTexts (s.store.valueOrNil values) s.session =
              .ok ws session) := by
  have hs := coherent_of_reachable h
  have hhierarchy := hs.wellFormed.hierarchy
  obtain ⟨n, hn, rfl, hlin⟩ := linearization_of_bases hhierarchy hbases hb
  obtain ⟨m, hm, rfl⟩ := exists_of_root_mem hb
  have hc : .root ∈ s.store.linearization (.defined n) := hlin ▸ List.mem_cons_of_mem _ hb
  obtain ⟨registry, hr, hlists⟩ := hs.registers _ hc
  obtain ⟨inherited, hi, hlists'⟩ := hs.registers _ hb
  refine ⟨registry, inherited, registry_of_lists (c := .defined n) hhierarchy hn hr hlists,
    registry_of_lists (c := .defined m) hhierarchy hm hi hlists', ?_⟩
  intro own hown hitems values evaluator outcome t hrun
  obtain ⟨judge, fields, all, session, hjudge, hfields, hviolations, htells⟩ :=
    judgeFields_eq_ok hrun
  have hcollected : s.store.collected (.defined n) = s.store.collected (.defined m) ++ own := by
    refine collected_extends hlin (hs.wellFormed.nodup n) fun k hk ↦ ?_
    have hitem := hown k hk
    rw [item?_text hlists'] at hitem
    exact Except.ok.inj hitem
  have hregistered := registered_of_lists hlists (offers_of_registered hfields)
  rw [hregistered] at hfields
  cases hfields
  rw [hcollected, asTexts_append, violations_append] at hviolations
  obtain ⟨vs, session', hvs, hviolations⟩ := bind_eq_ok hviolations
  obtain ⟨ws, session'', hws, hall⟩ := bind_eq_ok hviolations
  cases hall
  obtain ⟨outcome', t', hrun', htells'⟩ :=
    judgeFields_of_ok hjudge (registered_of_lists hlists' hitems) hvs
  -- the own fields are judged in the session in which the inherited ones have been judged
  have hsame := (steady_violations _ _ _).sameSettings hvs
  obtain ⟨session₀, hws₀, -⟩ := (steady_violations _ _ _).run hsame.symm hws
  refine ⟨vs, ws, htells, ⟨outcome', t', hrun', htells', fun hnone ↦ ?_⟩, judge, session₀, hjudge,
    hws₀⟩
  have hnil := htells.unique hnone
  rwa [(List.append_eq_nil_iff.1 hnil).1] at htells'

def rackDefined : State := after (defineClass "Rack" "store" [.defined 1] []) shelfDefined

def rackMeasured : State :=
  after (declareOn (.ofClass (.defined 2)) "validates" (.text "depth")
    (.ofClass (.builtin .integer)) .nil false) rackDefined

def rackLabelled : State :=
  after (declareOn (.ofClass (.defined 1)) "validates" (.text "label")
    (.ofClass (.builtin .text)) .nil false) rackMeasured

theorem reachable_rackLabelled : Reachable rackLabelled := by
  have hshelf : Step .initial shelfDefined :=
    .define (List.forall_mem_nil _) (List.forall_mem_nil _) "Shelf" "store"
  have hbases : ∀ b ∈ [ClassId.defined 1], shelfDefined.store.HasClass b :=
    List.forall_mem_singleton.2 (by decide +kernel : 1 < shelfDefined.store.classes.size)
  have hrack : Step shelfDefined rackDefined :=
    .define hbases (List.forall_mem_nil _) "Rack" "store"
  have hname {m : String} (hm : isReserved m = false) :
      ∀ n, (Value.text m).text? = some n → isReserved n = false := by
    intro n hn
    cases hn
    exact hm
  have hdepth : Step rackDefined rackMeasured :=
    .declare (by decide +kernel) (hname (by decide +kernel)) "validates"
      (.ofClass (.builtin .integer)) .nil false
  have hlabel : Step rackMeasured rackLabelled :=
    .declare (by decide +kernel) (hname (by decide +kernel)) "validates"
      (.ofClass (.builtin .text)) .nil false
  exact .tail (.tail (.tail (.single hshelf) hrack) hdepth) hlabel

/-- Of a rack without attributes the label is found missing first, and then the depth. -/
theorem judgeFields_extends_rackLabelled :
    rackLabelled.store.bases (.defined 2) = [.defined 1] ∧
      .root ∈ rackLabelled.store.linearization (.defined 1) ∧
      ∃ registry outcome t vs ws, rackLabelled.store.registry (.defined 2) = .ok registry ∧
        judgeFields registry (.dictionary (.cell 0)) .nil rackLabelled = .ok outcome t ∧
        t.store.Tells outcome (vs ++ ws) ∧
        ws.map Violation.message = ["Depth is a Nil, not a Integer"] := by
  have hbases : rackLabelled.store.bases (.defined 2) = [.defined 1] := by decide +kernel
  have hroot : .root ∈ rackLabelled.store.linearization (.defined 1) := by decide +kernel
  have hregistry : rackLabelled.store.registry (.defined 2) =
      .ok (.object (.builtin .fieldRegistry) ⟨9⟩) := eq_ok_of_toOption (by decide +kernel)
  have hinherited : rackLabelled.store.registry (.defined 1) =
      .ok (.object (.builtin .fieldRegistry) ⟨8⟩) := eq_ok_of_toOption (by decide +kernel)
  obtain ⟨registry, inherited, hr, hi, hextends⟩ :=
    judgeFields_extends reachable_rackLabelled hbases hroot
  rw [hregistry] at hr
  cases hr
  rw [hinherited] at hi
  cases hi
  have hown : (rackLabelled.store.fieldsOf (rackLabelled.store.body (.defined 2))).keys =
      ["depth"] := by decide +kernel
  have hnew : ∀ n ∈ (rackLabelled.store.fieldsOf (rackLabelled.store.body (.defined 2))).keys,
      rackLabelled.store.item? (.object (.builtin .fieldRegistry) ⟨8⟩) (.text n) = .ok none := by
    intro n hn
    rw [hown] at hn
    cases List.mem_singleton.1 hn
    exact eq_ok_of_toOption (by decide +kernel)
  have hitems : rackLabelled.store.offers (.object (.builtin .fieldRegistry) ⟨8⟩) "items" none =
      .ok () := eq_ok_of_toOption (by decide +kernel)
  have hjudged : ((judgeFields (.object (.builtin .fieldRegistry) ⟨9⟩) (.dictionary (.cell 0))
      .nil).run' rackLabelled).isSome = true := by decide +kernel
  obtain ⟨outcome, t, hrun⟩ := exists_run_of_isSome hjudged
  obtain ⟨vs, ws, htells, -, judge, session, hjudge, hws⟩ := hextends hnew hitems _ _ _ _ hrun
  refine ⟨hbases, hroot, _, outcome, t, vs, ws, hregistry, hrun, htells, ?_⟩
  rw [judge_nil] at hjudge
  cases hjudge
  have hmessages : ((rackLabelled.store.violations (.of .shared)
      (rackLabelled.store.fieldsOf (rackLabelled.store.body (.defined 2))).asTexts
      (rackLabelled.store.valueOrNil (.dictionary (.cell 0)))).run' rackLabelled.session).map
        (·.map Violation.message) = some ["Depth is a Nil, not a Integer"] := by decide +kernel
  rw [run'_of_ok hws] at hmessages
  exact Option.some.inj hmessages

def rackWith (attributes : List (String × Value)) : State :=
  after (declareOn (.ofClass (.defined 1)) "validates" (.text "label")
    (.ofClass (.builtin .text)) .nil false)
    (after (defineClass "Rack" "store" [.defined 1] attributes) shelfDefined)

/-- It is not enough that the fields stay clear of the reserved names. A class with a number under
the name of the refresh does not come to know the label that its base gets, and goes on to accept
what its base has come to refuse. -/
theorem not_judgeFields_extends_of_fields :
    ¬ ∀ attributes : List (String × Value),
      (∀ e ∈ attributes, State.initial.store.isField e.2 = true → isReserved e.1 = false) →
      ∀ registry inherited outcome t outcome' t',
        (rackWith attributes).store.registry (.defined 2) = .ok registry →
        (rackWith attributes).store.registry (.defined 1) = .ok inherited →
        judgeFields registry (.dictionary (.cell 0)) .nil (rackWith attributes) = .ok outcome t →
        judgeFields inherited (.dictionary (.cell 0)) .nil (rackWith attributes) =
          .ok outcome' t' →
        t.store.Tells outcome [] → t'.store.Tells outcome' [] := by
  intro h
  have hfields : ∀ e ∈ [("_refresh_registry", Value.int 5)],
      State.initial.store.isField e.2 = true → isReserved e.1 = false :=
    List.forall_mem_singleton.2 fun hfield ↦ nomatch hfield
  have hregistry : (rackWith [("_refresh_registry", .int 5)]).store.registry (.defined 2) =
      .ok (.object (.builtin .fieldRegistry) ⟨2⟩) := eq_ok_of_toOption (by decide +kernel)
  have hinherited : (rackWith [("_refresh_registry", .int 5)]).store.registry (.defined 1) =
      .ok (.object (.builtin .fieldRegistry) ⟨5⟩) := eq_ok_of_toOption (by decide +kernel)
  have hnone : (rackWith [("_refresh_registry", .int 5)]).store.registered
      (.object (.builtin .fieldRegistry) ⟨2⟩) = .ok [] := eq_ok_of_toOption (by decide +kernel)
  have hjudged : ((judgeFields (.object (.builtin .fieldRegistry) ⟨5⟩) (.dictionary (.cell 0))
      .nil).run' (rackWith [("_refresh_registry", .int 5)])).isSome = true := by decide +kernel
  have hfound : ((do
      let fields ← Check.ofExcept ((rackWith [("_refresh_registry", .int 5)]).store.registered
        (.object (.builtin .fieldRegistry) ⟨5⟩))
      (rackWith [("_refresh_registry", .int 5)]).store.violations (.of .shared) fields
        ((rackWith [("_refresh_registry", .int 5)]).store.valueOrNil (.dictionary (.cell 0)))).run'
          (rackWith [("_refresh_registry", .int 5)]).session).map List.length = some 1 := by
    decide +kernel
  have hextends := h _ hfields
  generalize rackWith [("_refresh_registry", .int 5)] = s at *
  have hpasses : ∃ outcome t, judgeFields (.object (.builtin .fieldRegistry) ⟨2⟩)
      (.dictionary (.cell 0)) .nil s = .ok outcome t ∧ t.store.Tells outcome [] :=
    judgeFields_of_ok (s.store.judge_nil _) hnone (pure_run [] s.session)
  obtain ⟨outcome, t, hrun, htells⟩ := hpasses
  obtain ⟨outcome', t', hrun'⟩ := exists_run_of_isSome hjudged
  obtain ⟨judge, fields, vs, session, hjudge, hlabel, hvs, htells'⟩ := judgeFields_eq_ok hrun'
  rw [judge_nil] at hjudge
  cases hjudge
  have hnil := htells'.unique (hextends _ _ _ _ _ _ hregistry hinherited hrun hrun' htells)
  rw [run'_of_ok ((bind_of_ok (Check.ofExcept_run hlabel _)).trans hvs), hnil] at hfound
  cases hfound

end Action

end Conformance
