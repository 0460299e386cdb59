import Conformance.Action

namespace Conformance

theorem mapM_congr {m : Type → Type} [Monad m] [LawfulMonad m] {α β : Type} {f g : α → m β}
    {l : List α} (h : ∀ a ∈ l, f a = g a) : l.mapM f = l.mapM g := by
  induction l with
  | nil => rfl
  | cons a l ih =>
    obtain ⟨ha, hl⟩ := List.forall_mem_cons.1 h
    rw [List.mapM_cons, List.mapM_cons, ha, ih hl]

section Sequence

variable {ε σ α β : Type} {x : EStateM ε σ α} {f : α → EStateM ε σ β} {s t u : σ}

theorem bind_of_ok {a : α} (h : x s = .ok a t) : (x >>= f) s = f a t := by
  simp only [bind, EStateM.bind, h]

theorem bind_of_error {e : ε} (h : x s = .error e t) : (x >>= f) s = .error e t := by
  simp only [bind, EStateM.bind, h]

theorem bind_eq_ok {b : β} (h : (x >>= f) s = .ok b u) :
    ∃ a t, x s = .ok a t ∧ f a t = .ok b u := by
  cases hx : x s with
  | ok a t => exact ⟨a, t, rfl, by rwa [bind_of_ok hx] at h⟩
  | error e t => rw [bind_of_error hx] at h; cases h

theorem bind_eq_error {e : ε} (h : (x >>= f) s = .error e u) :
    x s = .error e u ∨ ∃ a t, x s = .ok a t ∧ f a t = .error e u := by
  cases hx : x s with
  | ok a t => exact .inr ⟨a, t, rfl, by rwa [bind_of_ok hx] at h⟩
  | error e' t => rw [bind_of_error hx] at h; cases h; exact .inl rfl

theorem run'_of_ok {a : α} (h : x s = .ok a t) : x.run' s = some a := by
  show (match x s with | .ok a _ => some a | .error _ _ => none) = some a
  rw [h]

theorem run'_of_error {e : ε} (h : x s = .error e t) : x.run' s = none := by
  show (match x s with | .ok a _ => some a | .error _ _ => none) = none
  rw [h]

theorem exists_run_of_isSome (h : (x.run' s).isSome = true) : ∃ a t, x s = .ok a t := by
  cases hx : x s with
  | ok a t => exact ⟨a, t, rfl⟩
  | error e t =>
    rw [run'_of_error hx] at h
    cases h

@[simp] theorem pure_run (a : α) (s : σ) : (pure a : EStateM ε σ α) s = .ok a s := rfl

@[simp] theorem get_run (s : σ) : (get : EStateM ε σ σ) s = .ok s s := rfl

theorem mapM_run (g : α → β) (next : σ → α → σ) (P : σ → Prop) (l : List α)
    (hf : ∀ a ∈ l, ∀ s, P s → f a s = .ok (g a) (next s a) ∧ P (next s a)) (hs : P s) :
    l.mapM f s = .ok (l.map g) (l.foldl next s) := by
  induction l generalizing s with
  | nil => rfl
  | cons a l ih =>
    obtain ⟨ha, hnext⟩ := hf a (by simp) s hs
    have hl := ih (fun b hb ↦ hf b (by simp [hb])) hnext
    rw [List.mapM_cons, bind_of_ok ha, bind_of_ok hl]
    rfl

theorem exists_run_of_mapM {l : List α} {bs : List β} {s t : σ} (h : l.mapM f s = .ok bs t) :
    ∀ a ∈ l, ∃ b s' t', f a s' = .ok b t' := by
  induction l generalizing s t bs with
  | nil => intro a ha; cases ha
  | cons a l ih =>
    rw [List.mapM_cons] at h
    obtain ⟨b, s', hb, h'⟩ := bind_eq_ok h
    obtain ⟨bs', t', hl, -⟩ := bind_eq_ok h'
    intro a' ha'
    rcases List.mem_cons.1 ha' with rfl | ha'
    · exact ⟨b, s, s', hb⟩
    · exact ih hl a' ha'

end Sequence

section Question

variable {α β : Type} {f : α → Except Fault β}

theorem answer_of_bind {x : Except Fault α} {b : β} (h : (x >>= f) = .ok b) :
    ∃ a, x = .ok a ∧ f a = .ok b := by
  cases x with
  | ok a => exact ⟨a, rfl, h⟩
  | error e => cases h

theorem bind_congr_of_ok {x : Except Fault α} {g : α → Except Fault β}
    (h : ∀ a, x = .ok a → f a = g a) : (x >>= f) = (x >>= g) := by
  cases x with
  | ok a => exact h a rfl
  | error e => rfl

theorem eq_ok_of_toOption {x : Except Fault α} {a : α} (h : x.toOption = some a) : x = .ok a := by
  cases x with
  | ok b => exact congrArg Except.ok (Option.some.inj h)
  | error e => cases h

theorem mapM_ok (g : α → β) {l : List α} (h : ∀ a ∈ l, f a = .ok (g a)) :
    l.mapM f = .ok (l.map g) := by
  induction l with
  | nil => rfl
  | cons a l ih =>
    rw [List.mapM_cons, h a (by simp), ih (fun b hb ↦ h b (by simp [hb]))]
    rfl

theorem mapM_error {l : List α} (h : ∃ a ∈ l, ∃ e, f a = .error e) :
    ∃ a ∈ l, ∃ e, f a = .error e ∧ l.mapM f = .error e := by
  induction l with
  | nil =>
    obtain ⟨a, ha, -⟩ := h
    cases ha
  | cons a l ih =>
    rw [List.mapM_cons]
    cases ha : f a with
    | error e => exact ⟨a, List.mem_cons_self, e, ha, rfl⟩
    | ok b =>
      obtain ⟨a', ha', e, he⟩ := h
      have hrest : a' ∈ l := by
        rcases List.mem_cons.1 ha' with rfl | hrest
        · rw [ha] at he
          cases he
        · exact hrest
      obtain ⟨a'', ha'', e', he', hl⟩ := ih ⟨a', hrest, e, he⟩
      refine ⟨a'', List.mem_cons_of_mem a ha'', e', he', ?_⟩
      rw [hl]
      rfl

theorem exists_of_mem_mapM {l : List α} {bs : List β} (h : l.mapM f = .ok bs) :
    ∀ b ∈ bs, ∃ a ∈ l, f a = .ok b := by
  induction l generalizing bs with
  | nil =>
    cases h
    intro b hb
    cases hb
  | cons a l ih =>
    rw [List.mapM_cons] at h
    obtain ⟨b, hb, h⟩ := answer_of_bind h
    obtain ⟨bs', hbs, h⟩ := answer_of_bind h
    cases h
    intro b' hb'
    rcases List.mem_cons.1 hb' with rfl | hb'
    · exact ⟨a, List.mem_cons_self, hb⟩
    · obtain ⟨a', ha', hb'⟩ := ih hbs b' hb'
      exact ⟨a', List.mem_cons_of_mem a ha', hb'⟩

theorem exists_answer_of_foldlM {f : β → α → Except Fault β} {l : List α} {b c : β}
    (h : l.foldlM f b = .ok c) : ∀ a ∈ l, ∃ b' c', f b' a = .ok c' := by
  induction l generalizing b with
  | nil => intro a ha; cases ha
  | cons a l ih =>
    rw [List.foldlM_cons] at h
    obtain ⟨b', hb, h⟩ := answer_of_bind h
    intro a' ha'
    rcases List.mem_cons.1 ha' with rfl | ha'
    · exact ⟨b, b', hb⟩
    · exact ih h a' ha'

theorem exists_mapM {l : List α} (h : ∀ a ∈ l, ∃ b, f a = .ok b) : ∃ bs, l.mapM f = .ok bs := by
  induction l with
  | nil => exact ⟨[], rfl⟩
  | cons a l ih =>
    obtain ⟨⟨b, ha⟩, hl⟩ := List.forall_mem_cons.1 h
    obtain ⟨bs, hbs⟩ := ih hl
    exact ⟨b :: bs, by rw [List.mapM_cons, ha, hbs]; rfl⟩

theorem exists_anyM {p : α → Except Fault Bool} {l : List α} (h : ∀ a ∈ l, ∃ b, p a = .ok b) :
    ∃ b, l.anyM p = .ok b := by
  induction l with
  | nil => exact ⟨false, rfl⟩
  | cons a l ih =>
    obtain ⟨b, ha⟩ := h a (by simp)
    rw [List.anyM, ha]
    cases b with
    | true => exact ⟨true, rfl⟩
    | false => exact ih fun a' ha' ↦ h a' (by simp [ha'])

end Question

namespace Check

variable {α : Type}

theorem ofExcept_run {x : Except Fault α} {a : α} (h : x = .ok a) (s : Session) :
    ofExcept x s = .ok a s := by
  rw [h]; rfl

theorem of_ofExcept_run {x : Except Fault α} {a : α} {s t : Session} (h : ofExcept x s = .ok a t) :
    x = .ok a := by
  cases x with
  | ok b => cases h; rfl
  | error e => cases h

def after (x : Check α) (s : Session) : Session :=
  match x s with
  | .ok _ t => t
  | .error _ t => t

end Check

namespace Action

variable {α : Type} {s t : State}

theorem check_of_ok {c : Store → Check α} {a : α} {session : Session}
    (h : c s.store s.session = .ok a session) : check c s = .ok a { s with session } := by
  simp only [check, h]

theorem check_of_error {c : Store → Check α} {e : Fault} {session : Session}
    (h : c s.store s.session = .error e session) : check c s = .error e { s with session } := by
  simp only [check, h]

theorem ask_of_ok {q : Store → Except Fault α} {a : α} (h : q s.store = .ok a) :
    ask q s = .ok a s := by
  simp only [ask, h]

theorem ask_of_error {q : Store → Except Fault α} {e : Fault} (h : q s.store = .error e) :
    ask q s = .error e s := by
  simp only [ask, h]

theorem attempt_of_ok {f : Store → Except Fault Store} {store : Store} (h : f s.store = .ok store) :
    attempt f s = .ok () { s with store } :=
  bind_of_ok (ask_of_ok h)

theorem check_eq_ok {c : Store → Check α} {a : α} (h : check c s = .ok a t) :
    ∃ session, c s.store s.session = .ok a session ∧ t = { s with session } := by
  unfold check at h
  split at h
  · next session hc => cases h; exact ⟨session, hc, rfl⟩
  · cases h

theorem check_eq_error {c : Store → Check α} {e : Fault} (h : check c s = .error e t) :
    ∃ session, c s.store s.session = .error e session ∧ t = { s with session } := by
  unfold check at h
  split at h
  · cases h
  · next session hc => cases h; exact ⟨session, hc, rfl⟩

theorem ask_eq_ok {q : Store → Except Fault α} {a : α} (h : ask q s = .ok a t) :
    q s.store = .ok a ∧ t = s := by
  unfold ask at h
  split at h
  · next hq => cases h; exact ⟨hq, rfl⟩
  · cases h

/-- What an action leaves behind, whether it fails or not. -/
def after (x : Action α) (s : State) : State :=
  match x s with
  | .ok _ t => t
  | .error _ t => t

variable {β : Type} {x : Action α} {f : α → Action β}

theorem after_bind_of_ok {a : α} (h : x s = .ok a t) : after (x >>= f) s = after (f a) t := by
  rw [after, bind_of_ok h]
  rfl

theorem after_congr {y : Action α} (h : x s = y s) : after x s = after y s := by
  rw [after, after, h]

theorem after_of_error {e : Fault} (h : x s = .error e t) : after x s = t := by
  rw [after, h]

theorem after_bind_of_error {e : Fault} (h : x s = .error e t) : after (x >>= f) s = t :=
  after_of_error (bind_of_error h)

theorem after_bind_pure (x : Action α) (b : β) (s : State) :
    after (do let _ ← x; return b) s = after x s := by
  cases hx : x s with
  | ok a t => rw [after_bind_of_ok hx, after, after, hx]; rfl
  | error e t => rw [after_bind_of_error hx, after_of_error hx]

theorem after_bind_ask {P : State → Prop} {q : Store → Except Fault α} (hs : P s)
    (hf : ∀ a, q s.store = .ok a → P (after (f a) s)) : P (after (ask q >>= f) s) := by
  cases hq : q s.store with
  | ok a =>
    rw [after_bind_of_ok (ask_of_ok hq)]
    exact hf a hq
  | error e => rwa [after_bind_of_error (ask_of_error hq)]

end Action

end Conformance
