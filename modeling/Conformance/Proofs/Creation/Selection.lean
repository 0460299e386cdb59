import Conformance.Creation
import Conformance.Proofs.Name

namespace Conformance

namespace Store

variable {st : Store}

@[simp] theorem hash_text (n : String) : st.hash (.text n) = .ok () := rfl

theorem foldlM_putAt {valueOf : Value → Except Fault Value} {names : List String}
    (value : String → Value) (h : ∀ n ∈ names, valueOf (.text n) = .ok (value n))
    (es : Entries String Value) :
    (names.map Value.text).foldlM (fun es name ↦ do
      let v ← valueOf name
      st.hash name
      return st.putAt es name v) es.asTexts =
      .ok (es.putAll (names.map fun n ↦ (n, value n))).asTexts := by
  induction names generalizing es with
  | nil => rfl
  | cons n names ih =>
    have hrest := ih (fun m hm ↦ h m (List.mem_cons_of_mem _ hm)) (es.put n (value n))
    rw [← putAt_asTexts] at hrest
    rw [List.map_cons, List.foldlM_cons, h n List.mem_cons_self]
    exact hrest

/-- Each name is asked for its value once, and the values stand in the order of the names. -/
theorem selected_run {r : Roster} {s : Supply} {names : List String} (value : String → Value)
    (hr : r.names = .ok (names.map .text))
    (hs : ∀ n ∈ names, s.valueOf (.text n) = .ok (value n)) :
    st.selected r s = .ok (Entries.ofList (names.map fun n ↦ (n, value n))).asTexts := by
  rw [selected, hr]
  exact foldlM_putAt value hs []

theorem exists_of_selected {r : Roster} {s : Supply} {values : Entries Value Value}
    (h : st.selected r s = .ok values) :
    ∃ names, r.names = .ok names ∧ ∀ name ∈ names, ∃ v, s.valueOf name = .ok v := by
  obtain ⟨names, hnames, h⟩ := answer_of_bind h
  refine ⟨names, hnames, fun name hname ↦ ?_⟩
  obtain ⟨es, es', h⟩ := exists_answer_of_foldlM h name hname
  obtain ⟨v, hv, -⟩ := answer_of_bind h
  exact ⟨v, hv⟩

@[simp] theorem givenBy_text (es : Entries Value Value) (n : String) :
    st.givenBy es (.text n) = .ok ((es.named? n).getD .nil) := by
  rw [← st.valueAt?_text]
  rfl

theorem eq_of_valueOrNil {v w : Value} {n : String} (h : st.valueOrNil v (.text n) = .ok w)
    {es : Entries Value Value} (hes : st.mapping? v = some es) : w = (es.named? n).getD .nil := by
  obtain ⟨-, -, h⟩ := answer_of_bind h
  simp only [hes, givenBy_text] at h
  exact (Except.ok.inj h).symm

end Store

end Conformance
