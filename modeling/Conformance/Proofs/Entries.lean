import Conformance.Entries

namespace Conformance

namespace Entries

section Values

variable {κ ν : Type} [BEq κ] {P : ν → Prop} {es : Entries κ ν}

theorem forall_put (h : ∀ e ∈ es, P e.2) {v : ν} (hv : P v) (k : κ) : ∀ e ∈ put es k v, P e.2 := by
  induction es with
  | nil => exact List.forall_mem_singleton.2 hv
  | cons e es ih =>
    obtain ⟨he, hes⟩ := List.forall_mem_cons.1 h
    rw [put]
    split
    · exact List.forall_mem_cons.2 ⟨hv, hes⟩
    · exact List.forall_mem_cons.2 ⟨he, ih hes⟩

theorem eq_of_get?_single {k k' : κ} {v w : ν} (h : get? [(k, v)] k' = some w) : w = v := by
  rw [get?] at h
  split at h
  · cases h
    rfl
  · cases h

end Values

section Lookup

variable {κ ν : Type} [BEq κ] [LawfulBEq κ]

theorem has_iff_mem_keys (es : Entries κ ν) (k : κ) : has es k = true ↔ k ∈ keys es := by
  induction es with
  | nil => simp [has, get?, keys]
  | cons e es ih =>
    by_cases h : e.1 = k
    · simp [has, get?, keys, h]
    · have hk : ¬ k = e.1 := fun h' ↦ h h'.symm
      simpa [has, get?, keys, h, hk] using ih

theorem mem_of_get? {es : Entries κ ν} {k : κ} {v : ν} (h : get? es k = some v) : (k, v) ∈ es := by
  induction es with
  | nil => cases h
  | cons e es ih =>
    rw [get?] at h
    split at h
    · next hk =>
      cases h
      rw [← beq_iff_eq.1 hk]
      exact List.mem_cons_self
    · exact List.mem_cons_of_mem _ (ih h)

theorem mem_put {es : Entries κ ν} {k : κ} {v : ν} {e : κ × ν} (h : e ∈ put es k v) :
    e ∈ es ∨ e = (k, v) := by
  induction es with
  | nil => exact .inr (List.mem_singleton.1 h)
  | cons e' es ih =>
    rw [put] at h
    split at h
    · next hk =>
      rcases List.mem_cons.1 h with rfl | h
      · exact .inr (by rw [beq_iff_eq.1 hk])
      · exact .inl (List.mem_cons_of_mem _ h)
    · rcases List.mem_cons.1 h with rfl | h
      · exact .inl List.mem_cons_self
      · exact (ih h).imp_left (List.mem_cons_of_mem _)

theorem mem_putAll {es new : Entries κ ν} {e : κ × ν} (h : e ∈ putAll es new) : e ∈ es ∨ e ∈ new := by
  induction new generalizing es with
  | nil => exact .inl h
  | cons e' new ih =>
    rcases ih h with h | h
    · rcases mem_put h with h | rfl
      · exact .inl h
      · exact .inr List.mem_cons_self
    · exact .inr (List.mem_cons_of_mem _ h)

theorem mem_ofList {pairs : List (κ × ν)} {e : κ × ν} (h : e ∈ ofList pairs) : e ∈ pairs := by
  rcases mem_putAll h with h | h
  · cases h
  · exact h

theorem get?_eq_none_iff (es : Entries κ ν) (k : κ) : get? es k = none ↔ k ∉ keys es := by
  rw [← has_iff_mem_keys, has, Bool.not_eq_true, Option.isSome_eq_false_iff,
    Option.isNone_iff_eq_none]

@[simp] theorem get?_append (es fs : Entries κ ν) (k : κ) :
    get? (es ++ fs) k = (get? es k).or (get? fs k) := by
  induction es with
  | nil => rfl
  | cons e es ih =>
    by_cases h : e.1 = k <;> simp [get?, h, ih]

theorem get?_flatMap {α : Type} (l : List α) (f : α → Entries κ ν) (k : κ) :
    get? (l.flatMap f) k = l.findSome? fun a ↦ get? (f a) k := by
  induction l with
  | nil => rfl
  | cons a l ih =>
    rw [List.flatMap_cons, get?_append, ih, List.findSome?_cons]
    cases get? (f a) k <;> rfl

theorem get?_of_mem {es : Entries κ ν} (h : (keys es).Nodup) {k : κ} {v : ν} (hv : (k, v) ∈ es) :
    get? es k = some v := by
  induction es with
  | nil => exact absurd hv List.not_mem_nil
  | cons e es ih =>
    obtain ⟨hk', hes⟩ := List.nodup_cons.1 h
    obtain rfl | hv := List.mem_cons.1 hv
    · simp [get?]
    · have hk : e.1 ≠ k := by
        rintro rfl
        exact hk' (List.mem_map.2 ⟨_, hv, rfl⟩)
      simpa [get?, hk] using ih hes hv

theorem get?_filter_of_nodup {es : Entries κ ν} (h : (keys es).Nodup) (p : ν → Bool) (k : κ) :
    get? (es.filter fun e ↦ p e.2) k = (get? es k).filter p := by
  induction es with
  | nil => rfl
  | cons e es ih =>
    obtain ⟨k', v⟩ := e
    obtain ⟨hk', hes⟩ := List.nodup_cons.1 h
    have ih := ih hes
    by_cases hk : k' = k
    · subst hk
      have hnone : get? es k' = none := (get?_eq_none_iff es k').2 hk'
      rw [hnone] at ih
      cases hv : p v <;> simp [get?, hv, ih, Option.filter_some]
    · cases hv : p v <;> simp [get?, hv, hk, ih]

theorem get?_reverse_of_nodup {es : Entries κ ν} (h : (keys es).Nodup) (k : κ) :
    get? es.reverse k = get? es k := by
  induction es with
  | nil => rfl
  | cons e es ih =>
    obtain ⟨k', v⟩ := e
    obtain ⟨hk', hes⟩ := List.nodup_cons.1 h
    rw [List.reverse_cons, get?_append, ih hes]
    by_cases hk : k' = k
    · subst hk
      have hnone : get? es k' = none := (get?_eq_none_iff es k').2 hk'
      simp [get?, hnone]
    · simp [get?, hk]

theorem get?_map {l : List κ} (f : κ → ν) (k : κ) :
    get? (l.map fun k ↦ (k, f k)) k = if k ∈ l then some (f k) else none := by
  induction l with
  | nil => rfl
  | cons k' l ih =>
    by_cases h : k' = k
    · simp [get?, h]
    · have hk : ¬ k = k' := fun h' ↦ h h'.symm
      simpa [get?, h, hk] using ih

theorem keys_put (es : Entries κ ν) (k : κ) (v : ν) :
    keys (put es k v) = if k ∈ keys es then keys es else keys es ++ [k] := by
  split
  · next h => exact keys_put_of_has ((has_iff_mem_keys es k).2 h) v
  · next h =>
    refine keys_put_of_not_has ?_ v
    rwa [Bool.eq_false_iff, ne_eq, has_iff_mem_keys]

theorem nodup_keys_put {es : Entries κ ν} (h : (keys es).Nodup) (k : κ) (v : ν) :
    (keys (put es k v)).Nodup := by
  rw [keys_put]
  split
  · exact h
  · next hk =>
    rw [List.nodup_append]
    refine ⟨h, List.pairwise_singleton _ _, fun a ha b hb hab ↦ hk ?_⟩
    rwa [← List.mem_singleton.1 hb, ← hab]

theorem nodup_keys_putAll {es : Entries κ ν} (h : (keys es).Nodup) (new : Entries κ ν) :
    (keys (putAll es new)).Nodup := by
  induction new generalizing es with
  | nil => exact h
  | cons e new ih => exact ih (nodup_keys_put h e.1 e.2)

theorem nodup_keys_ofList (pairs : List (κ × ν)) : (keys (ofList pairs)).Nodup :=
  nodup_keys_putAll (show (keys ([] : Entries κ ν)).Nodup from List.nodup_nil) pairs

theorem get?_putAll (es new : Entries κ ν) (k : κ) :
    get? (putAll es new) k = (get? new.reverse k).or (get? es k) := by
  induction new generalizing es with
  | nil => rfl
  | cons e new ih =>
    rw [putAll_cons, ih, get?_put, List.reverse_cons, get?_append, Option.or_assoc]
    by_cases h : e.1 = k <;> simp [get?, h]

@[simp] theorem get?_ofList (pairs : List (κ × ν)) (k : κ) :
    get? (ofList pairs) k = get? pairs.reverse k := by
  rw [ofList, get?_putAll, get?, Option.or_none]

theorem get?_ofList_map (l : List κ) (f : κ → ν) (k : κ) :
    get? (ofList (l.map fun k ↦ (k, f k))) k = if k ∈ l then some (f k) else none := by
  rw [get?_ofList, ← List.map_reverse, get?_map]
  simp

theorem keys_putAll (es new : Entries κ ν) :
    keys (putAll es new) = keys es ++ ((keys new).removeAll (keys es)).eraseDups := by
  induction new generalizing es with
  | nil => simp [putAll, keys]
  | cons e new ih =>
    have hkeys : keys (e :: new) = e.1 :: keys new := rfl
    rw [putAll_cons, ih, keys_put, hkeys, List.cons_removeAll]
    by_cases h : e.1 ∈ keys es
    · simp [h]
    · simp only [h, if_false, List.contains_eq_mem, decide_false, if_true, List.eraseDups_cons,
        List.append_assoc, List.singleton_append]
      congr 3
      simp only [List.removeAll, List.filter_filter]
      refine List.filter_congr fun k _ ↦ ?_
      by_cases hk : k = e.1 <;> simp [hk]

@[simp] theorem keys_ofList (pairs : List (κ × ν)) : keys (ofList pairs) = (keys pairs).eraseDups := by
  rw [ofList, keys_putAll]
  simp [keys]

theorem put_of_not_mem {es : Entries κ ν} {k : κ} (h : k ∉ keys es) (v : ν) :
    put es k v = es ++ [(k, v)] := by
  induction es with
  | nil => rfl
  | cons e es ih =>
    obtain ⟨hk, hes⟩ : k ≠ e.1 ∧ k ∉ keys es := by simpa [keys] using h
    have hk : ¬ e.1 = k := fun h' ↦ hk h'.symm
    simp [put, hk, ih hes]

theorem putAll_of_nodup {es new : Entries κ ν} (h : (keys (es ++ new)).Nodup) :
    putAll es new = es ++ new := by
  induction new generalizing es with
  | nil => simp [putAll]
  | cons e new ih =>
    have hsplit : es ++ e :: new = es ++ [e] ++ new := by simp
    have hk : e.1 ∉ keys es := by
      have hkeys : keys (es ++ e :: new) = keys es ++ e.1 :: keys new := by simp [keys]
      rw [hkeys, List.nodup_append] at h
      exact fun hmem ↦ h.2.2 _ hmem _ (by simp) rfl
    rw [putAll_cons, put_of_not_mem hk, hsplit]
    exact ih (hsplit ▸ h)

theorem ofList_of_nodup {pairs : List (κ × ν)} (h : (keys pairs).Nodup) : ofList pairs = pairs :=
  putAll_of_nodup h

end Lookup

end Entries

end Conformance
