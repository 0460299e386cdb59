import Conformance.Proofs.Entries
import Conformance.Proofs.Run

namespace Conformance

def Value.isAmong (names : List String) (k : Value) : Bool := k.text?.any names.contains

def Entries.named? {ν : Type} (es : Entries Value ν) (n : String) : Option ν :=
  (es.find? fun e ↦ e.1.text? == some n).map (·.2)

/-- Entries with a value under a name, which keeps the place that it has. -/
def Entries.putNamed {ν : Type} (es : Entries Value ν) (n : String) (v : ν) : Entries Value ν :=
  match es with
  | [] => [(.text n, v)]
  | (k, w) :: es => if k.text? == some n then (k, v) :: es else (k, w) :: putNamed es n v

def Entries.asTexts {ν : Type} (es : Entries String ν) : Entries Value ν :=
  es.map fun e ↦ (.text e.1, e.2)

/-- A way to compare keys that tells texts from all else. -/
structure ComparesNames (b : BEq Value) : Prop where
  beq_text (k : Value) (n : String) : b.beq k (.text n) = (k.text? == some n)
  text_beq (n : String) (k : Value) : b.beq (.text n) k = (k.text? == some n)

namespace Value

variable {deep : Value → Value → Except Fault Bool} {n : String}

@[simp] theorem text?_derived (c : ClassId) (v : Value) (id : ObjectId) :
    (derived c v id).text? = v.text? := rfl

theorem equals_text (h : ∀ v, deep v (.text n) = .ok false) (v : Value) :
    v.equals deep (.text n) = .ok (v.text? == some n) := by
  match v with
  | .derived c v id =>
    rw [Value.equals, text?_derived]
    exact equals_text h v
  | .nil | .bool _ | .int _ | .float .. | .complex .. | .bytes _ | .range .. | .frozenSet _
  | .byteArray _ | .list _ | .set _ | .dictionary _ | .mappingView _ | .ofClass _ | .object ..
  | .operation _ | .property _ => exact h _
  | .text s => exact congrArg Except.ok (Option.some_beq_some (a := s) (b := n)).symm
  | .tuple vs => rfl
termination_by structural v

theorem text_equals (h : ∀ v, deep (.text n) v = .ok false) (v : Value) :
    (text n).equals deep v = .ok (v.text? == some n) := by
  rw [Value.equals, text?]
  · cases v.plain with
    | text s =>
      refine congrArg Except.ok ?_
      rw [Option.some_beq_some, Bool.eq_iff_iff, beq_iff_eq, beq_iff_eq]
      exact eq_comm
    | _ => exact h _
  all_goals simp

@[simp] theorem isSame_text (v : Value) (n : String) : v.isSame (text n) = false := by
  cases v <;> rfl

@[simp] theorem text_isSame (n : String) (v : Value) : (text n).isSame v = false := rfl

theorem beq_of_equals {v w : Value} {b : Bool} (hsame : v.isSame w = false)
    (h : v.equals (fun v w ↦ pure (v.isSame w)) w = .ok b) : (v == w) = b := by
  have hsame' : v.orSame w (v.equals (fun v w ↦ pure (v.isSame w)) w) = .ok b := by
    rw [orSame, hsame, h]
    rfl
  unfold BEq.beq instBEqValue
  simp only [hsame']

theorem comparesNames : ComparesNames (inferInstanceAs (BEq Value)) where
  beq_text k n := by
    have heq : k.equals (fun v w ↦ pure (v.isSame w)) (text n) = .ok (k.text? == some n) :=
      equals_text (fun v ↦ congrArg Except.ok (isSame_text v n)) k
    exact beq_of_equals (isSame_text k n) heq
  text_beq n k := by
    have heq : (text n).equals (fun v w ↦ pure (v.isSame w)) k = .ok (k.text? == some n) :=
      text_equals (fun _ ↦ rfl) k
    exact beq_of_equals (text_isSame n k) heq

end Value

namespace Store

variable (st : Store)

theorem equalCells_text (depth : Nat) (v : Value) (n : String) :
    st.equalCells (depth + 1) v (.text n) = .ok false := by
  unfold equalCells
  split
  · next h => cases h
  · next h _ => cases h
  · next h _ _ => cases h
  · split
    · next h _ _ _ => cases h
    · next h _ _ _ => cases h
    · exact congrArg Except.ok (Value.isSame_text _ n)

theorem equalCells_of_text (depth : Nat) (n : String) (v : Value) :
    st.equalCells (depth + 1) (.text n) v = .ok false := by
  unfold equalCells
  split
  · next h _ => cases h
  · next h _ _ => cases h
  · next h _ _ _ => cases h
  · rfl

theorem comparesNames_sameKey : ComparesNames ⟨st.sameKey⟩ where
  beq_text k n := by
    have heq : st.equal k (.text n) = .ok (k.text? == some n) :=
      Value.equals_text (fun v ↦ st.equalCells_text _ v n) k
    change (st.sameOrEqual k (.text n)).toOption.getD false = _
    rw [sameOrEqual, Value.orSame, Value.isSame_text, heq]
    rfl
  text_beq n k := by
    have heq : st.equal (.text n) k = .ok (k.text? == some n) :=
      Value.text_equals (fun v ↦ st.equalCells_of_text _ n v) k
    change (st.sameOrEqual (.text n) k).toOption.getD false = _
    rw [sameOrEqual, Value.orSame, Value.text_isSame, heq]
    rfl

end Store

namespace Entries

section Lookup

variable {ν : Type} {b : BEq Value} (es : Entries Value ν)

theorem named?_cons (k : Value) (v : ν) (n : String) :
    named? ((k, v) :: es) n = if k.text? = some n then some v else es.named? n := by
  by_cases h : k.text? = some n <;> simp [named?, h]

theorem get?_text (hb : ComparesNames b) (n : String) : es.get? (.text n) = es.named? n := by
  induction es with
  | nil => rfl
  | cons e es ih =>
    rw [get?, named?_cons, ih]
    simp only [hb.beq_text, beq_iff_eq]

theorem named?_put (hb : ComparesNames b) (n m : String) (v : ν) :
    (es.put (.text n) v).named? m = if n = m then some v else es.named? m := by
  induction es with
  | nil => simp [put, named?, Value.text?, Value.plain]
  | cons e es ih =>
    obtain ⟨k, w⟩ := e
    rw [put, hb.beq_text]
    by_cases hk : k.text? = some n
    · simp only [hk, beq_self_eq_true, if_true, named?_cons, Option.some.injEq]
      split <;> rfl
    · simp only [beq_iff_eq, hk, if_false, named?_cons, ih]
      by_cases hm : k.text? = some m
      · have hne : n ≠ m := fun h ↦ hk (h ▸ hm)
        simp [hm, hne]
      · simp [hm]

theorem put_text (hb : ComparesNames b) (n : String) (v : ν) :
    es.put (.text n) v = es.putNamed n v := by
  induction es with
  | nil => rfl
  | cons e es ih => rw [put, hb.beq_text, ih, putNamed]

theorem filter_put (hb : ComparesNames b) {p : Value → Bool} {n : String}
    (hp : ∀ k, k.text? = some n → p k = false) (v : ν) :
    (es.put (.text n) v).filter (fun e ↦ p e.1) = es.filter fun e ↦ p e.1 := by
  induction es with
  | nil => simp [put, hp (.text n) rfl]
  | cons e es ih =>
    rw [put, hb.beq_text]
    by_cases hk : e.1.text? = some n
    · simp [hk, hp e.1 hk]
    · simp only [beq_iff_eq, hk, if_false, List.filter_cons, ih]

end Lookup

section Texts

variable {ν : Type} {b : BEq Value}

@[simp] theorem asTexts_cons (e : String × ν) (es : Entries String ν) :
    asTexts (e :: es) = (.text e.1, e.2) :: es.asTexts := rfl

@[simp] theorem keys_asTexts (es : Entries String ν) : es.asTexts.keys = es.keys.map .text := by
  simp [asTexts, keys]

@[simp] theorem named?_asTexts (es : Entries String ν) (n : String) : es.asTexts.named? n = es.get? n := by
  induction es with
  | nil => rfl
  | cons e es ih =>
    rw [asTexts_cons, named?_cons, ih, get?]
    simp [Value.text?, Value.plain]

theorem get?_asTexts (hb : ComparesNames b) (es : Entries String ν) (k : Value) :
    es.asTexts.get? k = k.text?.bind es.get? := by
  induction es with
  | nil => cases k.text? <;> rfl
  | cons e es ih =>
    rw [asTexts_cons, get?, hb.text_beq, ih]
    cases k.text? with
    | none => rfl
    | some s =>
      by_cases h : s = e.1
      · simp [get?, h]
      · have h' : ¬ e.1 = s := fun he ↦ h he.symm
        simp [get?, h, h']

theorem isSome_get?_asTexts (hb : ComparesNames b) (es : Entries String ν) (k : Value) :
    (es.asTexts.get? k).isSome = k.isAmong es.keys := by
  rw [get?_asTexts hb, Value.isAmong]
  cases k.text? with
  | none => rfl
  | some s =>
    have hmem := es.has_iff_mem_keys s
    rw [Bool.eq_iff_iff]
    simpa [has] using hmem

theorem put_asTexts (hb : ComparesNames b) (es : Entries String ν) (n : String) (v : ν) :
    es.asTexts.put (.text n) v = (es.put n v).asTexts := by
  induction es with
  | nil => rfl
  | cons e es ih =>
    rw [asTexts_cons, put, hb.beq_text, put]
    by_cases h : e.1 = n
    · simp [h, Value.text?, Value.plain, asTexts]
    · simp [h, Value.text?, Value.plain, ih]

end Texts

end Entries

namespace Store

variable (st : Store)

@[simp] theorem valueAt?_text (es : Entries Value Value) (n : String) :
    st.valueAt? es (.text n) = es.named? n := es.get?_text st.comparesNames_sameKey n

@[simp] theorem putAt_asTexts (es : Entries String Value) (n : String) (v : Value) :
    st.putAt es.asTexts (.text n) v = (es.put n v).asTexts :=
  Entries.put_asTexts st.comparesNames_sameKey es n v

/-- What is written under names is the same whatever the store holds. -/
theorem putAllAt_asTexts (es : Entries Value Value) (new : Entries String Value) :
    st.putAllAt es new.asTexts = new.foldl (fun es e ↦ es.putNamed e.1 e.2) es := by
  induction new generalizing es with
  | nil => rfl
  | cons e new ih =>
    rw [Entries.asTexts_cons, putAllAt, List.foldl_cons, List.foldl_cons,
      ← es.put_text st.comparesNames_sameKey, ← ih]
    rfl

theorem named?_putAllAt (es : Entries Value Value) {new : Entries String Value}
    (h : new.keys.Nodup) (n : String) :
    (st.putAllAt es new.asTexts).named? n = (new.get? n).or (es.named? n) := by
  induction new generalizing es with
  | nil => rfl
  | cons e new ih =>
    obtain ⟨he, hnew⟩ := List.nodup_cons.1 h
    have hput := es.named?_put st.comparesNames_sameKey e.1 n e.2
    rw [Entries.asTexts_cons, putAllAt, List.foldl_cons]
    refine (ih _ hnew).trans ?_
    rw [putAt, hput, Entries.get?]
    by_cases hn : e.1 = n
    · have hnone : Entries.get? new n = none := (Entries.get?_eq_none_iff new n).2 (hn ▸ he)
      simp [hn, hnone]
    · simp [hn]

theorem filter_putAllAt (es : Entries Value Value) (new : Entries String Value)
    {p : Value → Bool} (hp : ∀ k, ∀ n ∈ new.keys, k.text? = some n → p k = false) :
    (st.putAllAt es new.asTexts).filter (fun e ↦ p e.1) = es.filter fun e ↦ p e.1 := by
  induction new generalizing es with
  | nil => rfl
  | cons e new ih =>
    rw [Entries.asTexts_cons, putAllAt, List.foldl_cons]
    refine (ih _ fun k n hn ↦ hp k n (List.mem_cons_of_mem _ hn)).trans ?_
    exact es.filter_put st.comparesNames_sameKey (fun k ↦ hp k e.1 List.mem_cons_self) e.2

end Store

end Conformance
