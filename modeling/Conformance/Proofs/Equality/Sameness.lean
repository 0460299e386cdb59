import Conformance.Proofs.Equality.Decision
import Conformance.Proofs.Equality.Exactness
import Conformance.Proofs.Equality.Reflexive

namespace Conformance

/-- What a comparison sees of a value: a datum or an identity; items in a row, of a tuple, a list or a
record of a class; members in any order; entries, of a mapping or of a validated object of a class. -/
inductive Sight
  | identity (v : Value)
  | number (e : Exact × Exact)
  | bytes (data : List UInt8)
  | range (items : List Int)
  | tuple (items : List Value)
  | list (items : List Value)
  | record (c : ClassId) (parts : List Value)
  | members (vs : List Value)
  | mapping (es : Entries Value Value)
  | validated (c : ClassId) (es : Entries Value Value)

inductive Sight.Related (R : Value → Value → Prop) : Sight → Sight → Prop
  | identity (v : Value) : Related R (.identity v) (.identity v)
  | number (e : Exact × Exact) : Related R (.number e) (.number e)
  | bytes (data : List UInt8) : Related R (.bytes data) (.bytes data)
  | range (items : List Int) : Related R (.range items) (.range items)
  | tuple {vs ws : List Value} (h : List.Forall₂ R vs ws) : Related R (.tuple vs) (.tuple ws)
  | list {vs ws : List Value} (h : List.Forall₂ R vs ws) : Related R (.list vs) (.list ws)
  | record (c : ClassId) {vs ws : List Value} (h : List.Forall₂ R vs ws) :
    Related R (.record c vs) (.record c ws)
  | members {vs ws : List Value} (h : Matched R vs ws) : Related R (.members vs) (.members ws)
  | mapping {es fs : Entries Value Value} (h : Matched (EntryRelated R) es fs) :
    Related R (.mapping es) (.mapping fs)
  | validated (c : ClassId) {es fs : Entries Value Value} (h : Matched (EntryRelated R) es fs) :
    Related R (.validated c es) (.validated c fs)

namespace Sight.Related

variable {R S : Value → Value → Prop} {a b c : Sight}

theorem imp (hR : ∀ v w, R v w → S v w) (h : Related R a b) : Related S a b := by
  have hentry (e f : Value × Value) (h : EntryRelated R e f) : EntryRelated S e f :=
    ⟨hR _ _ h.1, hR _ _ h.2⟩
  cases h with
  | identity v => exact .identity v
  | number e => exact .number e
  | bytes data => exact .bytes data
  | range items => exact .range items
  | tuple h => exact .tuple (h.imp hR)
  | list h => exact .list (h.imp hR)
  | record c h => exact .record c (h.imp hR)
  | members h => exact .members (h.imp hR)
  | mapping h => exact .mapping (h.imp hentry)
  | validated c h => exact .validated c (h.imp hentry)

theorem swap (h : Related R a b) : Related (fun w v ↦ R v w) b a := by
  cases h with
  | identity v => exact .identity v
  | number e => exact .number e
  | bytes data => exact .bytes data
  | range items => exact .range items
  | tuple h => exact .tuple h.flip
  | list h => exact .list h.flip
  | record c h => exact .record c h.flip
  | members h => exact .members h.swap
  | mapping h => exact .mapping h.swap
  | validated c h => exact .validated c h.swap

theorem forall₂_comp {l m n : List Value} (h : List.Forall₂ R l m) (h' : List.Forall₂ S m n) :
    List.Forall₂ (Relation.Comp R S) l n := by
  induction h generalizing n with
  | nil =>
    cases h'
    exact .nil
  | cons hab _ ih =>
    cases h' with
    | cons hbc h' => exact .cons ⟨_, hab, hbc⟩ (ih h')

theorem comp (h : Related R a b) (h' : Related S b c) : Related (Relation.Comp R S) a c := by
  have hentry (e g : Value × Value) (h : Relation.Comp (EntryRelated R) (EntryRelated S) e g) :
      EntryRelated (Relation.Comp R S) e g := by
    obtain ⟨f, hef, hfg⟩ := h
    exact ⟨⟨f.1, hef.1, hfg.1⟩, f.2, hef.2, hfg.2⟩
  cases h with
  | identity v => cases h'; exact .identity v
  | number e => cases h'; exact .number e
  | bytes data => cases h'; exact .bytes data
  | range items => cases h'; exact .range items
  | tuple h => cases h' with | tuple h' => exact .tuple (forall₂_comp h h')
  | list h => cases h' with | list h' => exact .list (forall₂_comp h h')
  | record c h => cases h' with | record _ h' => exact .record c (forall₂_comp h h')
  | members h => cases h' with | members h' => exact .members (h.comp h')
  | mapping h => cases h' with | mapping h' => exact .mapping ((h.comp h').imp hentry)
  | validated c h => cases h' with | validated _ h' => exact .validated c ((h.comp h').imp hentry)

theorem eq_of_identity {v w : Value} (h : Related R (.identity v) (.identity w)) : v = w := by
  cases h
  rfl

end Sight.Related

namespace Store

variable (st : Store)

/-- What a comparison sees of an object: nothing, if it cannot be told what the object reports or is
made of. -/
def sightOfObject? (c : ClassId) (id : ObjectId) : Option Sight :=
  match st.mapping? (.object c id), st.natureOf (.object c id) with
  | some es, _ => some (.mapping es)
  | none, .validated => (st.reported (.object c id)).toOption.map (.validated c)
  | none, .record b => (st.parts (.object c id) b).toOption.map (.record c)
  | none, _ => some (.identity (.object c id))

/-- What a comparison sees of a value: of an object of an extending class what it carries, and nothing
of a number that differs from itself. -/
def sight? : Value → Option Sight
  | .derived _ v _ => sight? v
  | .bool b => (Number.int (if b then 1 else 0)).value?.map .number
  | .int n => (Number.int n).value?.map .number
  | .float x _ => (Number.float x).value?.map .number
  | .complex re im _ => (Number.complex re im).value?.map .number
  | .bytes data => some (.bytes data)
  | .byteArray id => some (.bytes (st.byteArray id))
  | .range a b c => some (.range (rangeItems a b c))
  | .tuple vs => some (.tuple vs)
  | .list id => some (.list (st.items id))
  | .frozenSet vs => some (.members vs)
  | .set id => some (.members (st.setMembers id))
  | .dictionary id | .mappingView id => some (.mapping (st.entries id))
  | .object c id => st.sightOfObject? c id
  | v => some (.identity v)

def Alike (R : Value → Value → Prop) (v w : Value) : Prop :=
  ∃ a b, st.sight? v = some a ∧ st.sight? w = some b ∧ a.Related R b

/-- Whether two values are the same, however they are nested. -/
def Same (v w : Value) : Prop :=
  ∃ R : Value → Value → Prop, (∀ v w, R v w → v = w ∨ st.Alike R v w) ∧ R v w

variable {st} {R S : Value → Value → Prop} {u v w : Value}

namespace Alike

theorem imp (hR : ∀ v w, R v w → S v w) (h : st.Alike R v w) : st.Alike S v w := by
  obtain ⟨a, b, ha, hb, hab⟩ := h
  exact ⟨a, b, ha, hb, hab.imp hR⟩

theorem swap (h : st.Alike R v w) : st.Alike (fun w v ↦ R v w) w v := by
  obtain ⟨a, b, ha, hb, hab⟩ := h
  exact ⟨b, a, hb, ha, hab.swap⟩

theorem comp (h : st.Alike R u v) (h' : st.Alike S v w) : st.Alike (Relation.Comp R S) u w := by
  obtain ⟨a, b, ha, hb, hab⟩ := h
  obtain ⟨b', c, hb', hc, hbc⟩ := h'
  cases hb.symm.trans hb'
  exact ⟨a, c, ha, hc, hab.comp hbc⟩

end Alike

namespace Same

theorem alike (h : st.Same v w) : v = w ∨ st.Alike st.Same v w := by
  obtain ⟨R, hR, hvw⟩ := h
  exact (hR v w hvw).imp_right (.imp fun _ _ h ↦ ⟨R, hR, h⟩)

theorem of_alike (h : st.Alike st.Same v w) : st.Same v w :=
  ⟨fun v w ↦ v = w ∨ st.Alike st.Same v w,
    fun _ _ h ↦ h.imp_right (.imp fun _ _ ↦ alike), .inr h⟩

theorem refl (v : Value) : st.Same v v := ⟨Eq, fun _ _ ↦ .inl, rfl⟩

theorem symm (h : st.Same v w) : st.Same w v := by
  refine ⟨fun w v ↦ st.Same v w, fun w v h ↦ ?_, h⟩
  exact h.alike.imp Eq.symm .swap

theorem trans (h : st.Same u v) (h' : st.Same v w) : st.Same u w := by
  refine ⟨Relation.Comp st.Same st.Same, fun u w h ↦ ?_, v, h, h'⟩
  obtain ⟨v, huv, hvw⟩ := h
  rcases huv.alike with rfl | halike
  · exact hvw.alike.imp_right (.imp fun v w h ↦ ⟨v, refl v, h⟩)
  · rcases hvw.alike with rfl | halike'
    · exact .inr (halike.imp fun v w h ↦ ⟨w, h, refl w⟩)
    · exact .inr (halike.comp halike')

end Same

theorem alike_self (h : v.showsIdentity = false) : st.Alike st.Same v v := by
  have hrow (vs : List Value) : List.Forall₂ st.Same vs vs := List.forall₂_same.2 fun v _ ↦ .refl v
  cases v with
  | nil | text | ofClass | operation | property => exact ⟨_, _, rfl, rfl, .identity _⟩
  | bool | int => exact ⟨_, _, rfl, rfl, .number _⟩
  | bytes => exact ⟨_, _, rfl, rfl, .bytes _⟩
  | range => exact ⟨_, _, rfl, rfl, .range _⟩
  | tuple vs => exact ⟨_, _, rfl, rfl, .tuple (hrow vs)⟩
  | frozenSet vs => exact ⟨_, _, rfl, rfl, .members (.refl .refl vs)⟩
  | _ => cases h

theorem same_iff : st.Same v w ↔ v.isSame w = true ∨ st.Alike st.Same v w := by
  constructor
  · intro h
    rcases h.alike with rfl | halike
    · cases hv : v.showsIdentity with
      | true => exact .inl (Value.isSame_self hv)
      | false => exact .inr (alike_self hv)
    · exact .inr halike
  · rintro (h | h)
    · rw [Value.eq_of_isTwin (Bool.and_eq_true_iff.1 h).2]
      exact .refl w
    · exact .of_alike h

end Store

end Conformance
