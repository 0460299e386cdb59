import Conformance.Creation

namespace Conformance

def Fault.isInvalid : Fault → Bool
  | .invalid .. => true
  | _ => false

def FailsWithin {α : Type} (P : Fault → Prop) (q : Except Fault α) : Prop :=
  ∀ e, q = .error e → P e

abbrev Mild {α : Type} (q : Except Fault α) : Prop := FailsWithin (fun e ↦ e.isInvalid = false) q

def Fault.isLookUp : Fault → Bool
  | .noAttribute .. | .noClassAttribute .. | .noMember _ | .unhashable _ => true
  | _ => false

abbrev LooksUp {α : Type} (q : Except Fault α) : Prop := FailsWithin (fun e ↦ e.isLookUp = true) q

theorem Fault.isInvalid_of_isLookUp {e : Fault} (h : e.isLookUp = true) : e.isInvalid = false := by
  cases e with
  | invalid typeName violations => cases h
  | _ => rfl

namespace FailsWithin

variable {α β : Type} {P : Fault → Prop} {q : Except Fault α}

theorem pure (a : α) : FailsWithin P (Pure.pure a) := nofun

theorem throw {e : Fault} (h : P e) : FailsWithin P (MonadExcept.throw e : Except Fault α) := by
  rintro _ ⟨⟩
  exact h

theorem bind {f : α → Except Fault β} (hq : FailsWithin P q) (hf : ∀ a, FailsWithin P (f a)) :
    FailsWithin P (q >>= f) := by
  cases q with
  | ok a => exact hf a
  | error e => exact throw (hq e rfl)

theorem ite {c : Prop} [Decidable c] {p : Except Fault α} (hp : FailsWithin P p)
    (hq : FailsWithin P q) : FailsWithin P (if c then p else q) := by
  split
  · exact hp
  · exact hq

theorem imp {P' : Fault → Prop} (hq : FailsWithin P q) (h : ∀ e, P e → P' e) : FailsWithin P' q :=
  fun e he ↦ h e (hq e he)

theorem mild (hq : LooksUp q) : Mild q := hq.imp fun _ ↦ Fault.isInvalid_of_isLookUp

section Lists

variable {l : List α}

theorem mapM {f : α → Except Fault β} (h : ∀ a ∈ l, FailsWithin P (f a)) :
    FailsWithin P (l.mapM f) := by
  induction l with
  | nil => exact pure []
  | cons a l ih =>
    obtain ⟨ha, hl⟩ := List.forall_mem_cons.1 h
    rw [List.mapM_cons]
    exact bind ha fun b ↦ bind (ih hl) fun bs ↦ pure (b :: bs)

theorem foldlM {f : β → α → Except Fault β} (h : ∀ b, ∀ a ∈ l, FailsWithin P (f b a)) (b : β) :
    FailsWithin P (l.foldlM f b) := by
  induction l generalizing b with
  | nil => exact pure b
  | cons a l ih =>
    rw [List.foldlM_cons]
    exact bind (h b a List.mem_cons_self) fun b' ↦
      ih (fun b a ha ↦ h b a (List.mem_cons_of_mem _ ha)) b'

theorem forM {f : α → Except Fault PUnit} (h : ∀ a ∈ l, FailsWithin P (f a)) :
    FailsWithin P (l.forM f) := by
  induction l with
  | nil => exact pure PUnit.unit
  | cons a l ih =>
    obtain ⟨ha, hl⟩ := List.forall_mem_cons.1 h
    exact bind ha fun _ ↦ ih hl

variable {p : α → Except Fault Bool}

theorem anyM (h : ∀ a ∈ l, FailsWithin P (p a)) : FailsWithin P (l.anyM p) := by
  induction l with
  | nil => exact pure false
  | cons a l ih =>
    obtain ⟨ha, hl⟩ := List.forall_mem_cons.1 h
    rw [List.anyM]
    refine bind ha fun b ↦ ?_
    cases b with
    | true => exact pure true
    | false => exact ih hl

theorem allM (h : ∀ a ∈ l, FailsWithin P (p a)) : FailsWithin P (l.allM p) := by
  induction l with
  | nil => exact pure true
  | cons a l ih =>
    obtain ⟨ha, hl⟩ := List.forall_mem_cons.1 h
    rw [List.allM]
    refine bind ha fun b ↦ ?_
    cases b with
    | true => exact ih hl
    | false => exact pure false

end Lists

section Comparisons

variable {x y : Except Fault Bool}

theorem orSame (v w : Value) (hx : FailsWithin P x) : FailsWithin P (v.orSame w x) :=
  ite (pure true) hx

theorem both (hx : FailsWithin P x) (hy : FailsWithin P y) : FailsWithin P (bothEqual x y) := by
  refine bind hx fun b ↦ ?_
  exact ite hy (pure false)

theorem either (hx : FailsWithin P x) (hy : FailsWithin P y) : FailsWithin P (eitherEqual x y) := by
  match x, y with
  | .ok true, _ => exact pure true
  | .ok false, y => exact hy
  | .error _, .ok true => exact pure true
  | .error e, .ok false | .error e, .error _ => exact throw (hx e rfl)

theorem some {l : List α} {p : α → Except Fault Bool} (h : ∀ a ∈ l, FailsWithin P (p a)) :
    FailsWithin P (someEqual p l) := by
  induction l with
  | nil => exact pure false
  | cons a l ih =>
    obtain ⟨ha, hl⟩ := List.forall_mem_cons.1 h
    exact either ha (ih hl)

end Comparisons

end FailsWithin

namespace Value

variable {deep : Value → Value → Except Fault Bool}

theorem mild_equalsAtom (h : ∀ v w, Mild (deep v w)) (v w : Value) :
    Mild (v.equalsAtom deep w) := by
  unfold equalsAtom
  split
  · exact .pure _
  · split
    all_goals first | exact .pure _ | exact h _ _

mutual
theorem mild_equals (h : ∀ v w, Mild (deep v w)) (v w : Value) : Mild (v.equals deep w) := by
  cases v with
  | derived c v id => exact mild_equals h v w
  | tuple vs =>
    rw [equals]
    split
    · exact mild_equalLists h vs _
    · exact .pure false
  | frozenSet vs =>
    rw [equals]
    split
    · exact .ite (.both (mild_includedIn h _ vs) (.allM fun w _ ↦ mild_includes h w vs))
        (.pure false)
    · exact h _ _
  | _ => exact mild_equalsAtom h _ _
termination_by structural v
theorem mild_equalLists (h : ∀ v w, Mild (deep v w)) (vs ws : List Value) :
    Mild (equalLists deep vs ws) := by
  cases vs with
  | nil => exact .pure _
  | cons v vs =>
    cases ws with
    | nil => exact .pure false
    | cons w ws => exact .both (.orSame v w (mild_equals h v w)) (mild_equalLists h vs ws)
termination_by structural vs
theorem mild_includedIn (h : ∀ v w, Mild (deep v w)) (ws vs : List Value) :
    Mild (includedIn deep ws vs) := by
  cases vs with
  | nil => exact .pure true
  | cons v vs =>
    exact .both (.some fun w _ ↦ .orSame v w (mild_equals h v w)) (mild_includedIn h ws vs)
termination_by structural vs
theorem mild_includes (h : ∀ v w, Mild (deep v w)) (w : Value) (vs : List Value) :
    Mild (includes deep w vs) := by
  cases vs with
  | nil => exact .pure false
  | cons v vs => exact .either (.orSame v w (mild_equals h v w)) (mild_includes h w vs)
termination_by structural vs
end

theorem mild_equalSets (h : ∀ v w, Mild (deep v w)) (vs ws : List Value) :
    Mild (equalSets deep vs ws) :=
  .ite (.both (mild_includedIn h ws vs) (.allM fun w _ ↦ mild_includes h w vs)) (.pure false)

end Value

namespace Store

variable (st : Store)

theorem lookUp_hash (v : Value) : LooksUp (st.hash v) := by
  unfold hash
  split
  · exact .throw rfl
  · exact .pure ()

@[simp] theorem isLookUp_missing (v : Value) (name : String) : (st.missing v name).isLookUp = true := by
  unfold missing
  split
  · split <;> rfl
  · rfl

theorem lookUp_found (v : Value) (name : String) (w? : Option Value) :
    LooksUp (st.found v name w?) := by
  cases w? with
  | none => exact .throw (st.isLookUp_missing v name)
  | some w => exact .pure w

theorem lookUp_attributeOfClass (c : ClassId) (name : String) :
    LooksUp (st.attributeOfClass c name) := by
  unfold attributeOfClass
  split
  · exact .throw (st.isLookUp_missing _ _)
  · exact .throw (st.isLookUp_missing _ _)
  · exact st.lookUp_found _ _ _

theorem lookUp_attributeOfProperty (v : Value) (p : Property) :
    LooksUp (st.attributeOfProperty v p) := by
  cases p <;> first | exact st.lookUp_found _ _ _ | exact .pure _

theorem lookUp_attributeOfField (v field : Value) : LooksUp (st.attributeOfField v field) :=
  .bind (st.lookUp_found _ _ _) fun _ ↦ .bind (st.lookUp_hash _) fun _ ↦ .pure _

theorem lookUp_attributeOf (v : Value) (name : String) : LooksUp (st.attributeOf v name) := by
  unfold attributeOf
  split
  · exact st.lookUp_attributeOfClass _ _
  · split
    · exact st.lookUp_attributeOfProperty _ _
    · exact .ite (st.lookUp_attributeOfField _ _) (.pure _)
    · exact st.lookUp_found _ _ _

theorem mild_hash (v : Value) : Mild (st.hash v) := (st.lookUp_hash v).mild

theorem mild_found (v : Value) (name : String) (w? : Option Value) : Mild (st.found v name w?) :=
  (st.lookUp_found v name w?).mild

theorem mild_attributeOfClass (c : ClassId) (name : String) : Mild (st.attributeOfClass c name) :=
  (st.lookUp_attributeOfClass c name).mild

theorem mild_attributeOfProperty (v : Value) (p : Property) : Mild (st.attributeOfProperty v p) :=
  (st.lookUp_attributeOfProperty v p).mild

theorem mild_attributeOf (v : Value) (name : String) : Mild (st.attributeOf v name) :=
  (st.lookUp_attributeOf v name).mild

theorem mild_hasOperation (v : Value) (name : String) : Mild (st.hasOperation v name) := by
  refine .bind (st.mild_attributeOf v name) fun w ↦ ?_
  split
  · exact .pure ()
  · exact .throw rfl

theorem mild_offers (v : Value) (name : String) (argument? : Option Value) :
    Mild (st.offers v name argument?) := by
  refine .bind (st.mild_hasOperation v name) fun _ ↦ ?_
  split
  · exact .throw rfl
  · exact .throw rfl
  · exact .pure ()

theorem mild_refusal {α : Type} (v : Value) (name : String) :
    Mild (st.refusal v name : Except Fault α) :=
  .bind (st.mild_attributeOf v name) fun _ ↦ .throw rfl

theorem mild_contentWithin (depth : Nat) (v : Value) : Mild (st.contentWithin depth v) := by
  induction depth generalizing v with
  | zero => exact .throw rfl
  | succ depth ih => exact .ite (.bind (st.mild_found _ _ _) ih) (.pure v)

theorem mild_iterate (v : Value) : Mild (st.iterate v) := by
  refine .bind (st.mild_contentWithin _ v) fun w ↦ ?_
  split
  · exact .pure _
  · exact .throw rfl

theorem mild_registry (c : ClassId) : Mild (st.registry c) :=
  st.mild_attributeOfClass c registryName

theorem mild_declared (v : Value) : Mild (st.declared v) :=
  .bind (st.mild_registry _) fun registry ↦ .bind (st.mild_iterate registry) fun _ ↦
    .bind (.forM fun name _ ↦ st.mild_hash name) fun _ ↦ .pure _

theorem mild_reported (v : Value) : Mild (st.reported v) :=
  .bind (st.mild_offers v _ none) fun _ ↦ st.mild_declared v

theorem mild_parts (v : Value) (b : Builtin) : Mild (st.parts v b) :=
  .mapM fun part _ ↦ st.mild_attributeOf v part

section Equality

variable {deep : Value → Value → Except Fault Bool}

theorem mild_equalEntries (h : ∀ v w, Mild (deep v w)) (es fs : Entries Value Value) :
    Mild (equalEntries deep es fs) := by
  have hentry (e f : Value × Value) : Mild (bothEqual (e.1.orSame f.1 (e.1.equals deep f.1))
      (e.2.orSame f.2 (e.2.equals deep f.2))) :=
    .both (.orSame _ _ (Value.mild_equals h _ _)) (.orSame _ _ (Value.mild_equals h _ _))
  refine .ite (.both ?_ ?_) (.pure false)
  · exact .allM fun e _ ↦ .some fun f _ ↦ hentry e f
  · exact .allM fun f _ ↦ .some fun e _ ↦ hentry e f

theorem mild_equalObjects (h : ∀ v w, Mild (deep v w)) (v w : Value) :
    Mild (st.equalObjects deep v w) := by
  refine .ite (.pure _) ?_
  split
  · exact .bind (st.mild_reported v) fun _ ↦ .bind (st.mild_reported w) fun _ ↦
      mild_equalEntries h _ _
  · exact .bind (st.mild_parts v _) fun _ ↦ .bind (st.mild_parts w _) fun _ ↦
      Value.mild_equalLists h _ _
  · exact .pure _

end Equality

theorem mild_equalCells (depth : Nat) (v w : Value) : Mild (st.equalCells depth v w) := by
  induction depth generalizing v w with
  | zero => exact .throw rfl
  | succ depth ih =>
    unfold equalCells
    split
    · exact mild_equalEntries ih _ _
    · exact Value.mild_equalSets ih _ _
    · exact .pure _
    · split
      · exact .ite (Value.mild_equalLists ih _ _) (.pure false)
      · exact st.mild_equalObjects ih _ _
      · exact .pure _

theorem mild_equal (v w : Value) : Mild (st.equal v w) :=
  Value.mild_equals (st.mild_equalCells _) v w

theorem mild_sameOrEqual (v w : Value) : Mild (st.sameOrEqual v w) :=
  .orSame v w (st.mild_equal v w)

theorem mild_isAnyLiteral (literals : List Value) (v : Value) : Mild (st.isAnyLiteral literals v) :=
  .anyM fun literal _ ↦ .ite (.pure true) (.ite (st.mild_equal v literal) (.pure false))

section Written

variable {deep : List Value → Value → Except Fault String} {write : Value → Except Fault String}

theorem mild_writeAtom (h : ∀ v, Mild (write v)) (v : Value) : Mild (v.writeAtom st write) := by
  unfold Value.writeAtom
  split
  all_goals first | exact .pure _ | exact h _

mutual
theorem mild_write (h : ∀ entered v, Mild (deep entered v)) (entered : List Value) (v : Value) :
    Mild (v.write st deep entered) := by
  cases v with
  | derived c v id => exact .ite (h _ _) (mild_write h entered v)
  | tuple vs => exact .ite (.pure _) (.bind (mild_writeAll h _ vs) fun _ ↦ .pure _)
  | frozenSet vs => exact .bind (mild_writeAll h entered vs) fun _ ↦ .pure _
  | _ => exact st.mild_writeAtom (h entered) _
termination_by structural v
theorem mild_writeAll (h : ∀ entered v, Mild (deep entered v)) (entered : List Value)
    (vs : List Value) : Mild (Value.writeAll st deep entered vs) := by
  cases vs with
  | nil => exact .pure []
  | cons v vs =>
    exact .bind (mild_write h entered v) fun _ ↦ .bind (mild_writeAll h entered vs) fun _ ↦ .pure _
termination_by structural vs
end

theorem mild_memberName (h : ∀ v, Mild (write v)) (v : Value) :
    Mild (Value.display.memberName st write v) := by
  refine .bind (st.mild_attributeOfProperty v _) fun name ↦ ?_
  split
  · exact .pure _
  · exact .bind (h _) fun _ ↦ .pure _

theorem mild_display (h : ∀ v, Mild (write v)) (v : Value) : Mild (v.display st write) := by
  cases v with
  | text s => exact .pure s
  | derived c v id =>
    refine .ite (mild_display h v) (.ite (st.mild_memberName h _) ?_)
    split
    · exact .pure _
    · exact h _
  | object c id => exact .ite (st.mild_memberName h _) (h _)
  | _ => exact h _
termination_by structural v

end Written

theorem mild_writeObject {write display : Value → Except Fault String} (hw : ∀ v, Mild (write v))
    (hd : ∀ v, Mild (display v)) (v : Value) : Mild (st.writeObject write display v) := by
  have hparts (names : List String) : Mild (writeObject.namedParts st write v names) :=
    .mapM fun name _ ↦ .bind (st.mild_attributeOf v name) fun _ ↦ .bind (hw _) fun _ ↦ .pure _
  unfold writeObject
  split
  · exact .bind (st.mild_reported v) fun es ↦ .bind
      (.mapM fun e _ ↦ .bind (hd e.1) fun _ ↦ .bind (hw e.2) fun _ ↦ .pure _) fun _ ↦ .pure _
  · exact .bind (hparts _) fun _ ↦ .pure _
  · exact .bind (hparts _) fun _ ↦ .pure _
  · exact .bind (st.mild_iterate v) fun names ↦ .bind (.mapM fun name _ ↦ hw name) fun _ ↦ .pure _
  · exact .bind (st.mild_attributeOfProperty v _) fun _ ↦ .bind (hd _) fun _ ↦
      .bind (st.mild_attributeOfProperty v _) fun _ ↦ .bind (hw _) fun _ ↦ .pure _
  · exact .pure _

theorem mild_writeCell (depth : Nat) (entered : List Value) (v : Value) :
    Mild (st.writeCell depth entered v) := by
  induction depth generalizing entered v with
  | zero => exact .throw rfl
  | succ depth ih =>
    have hwithin (w : Value) : Mild (w.write st (st.writeCell depth) (v :: entered)) :=
      st.mild_write ih _ w
    unfold writeCell
    dsimp only
    split
    · exact .pure _
    · split
      · exact .bind (.mapM fun w _ ↦ hwithin w) fun _ ↦ .pure _
      · exact .bind (.mapM fun w _ ↦ hwithin w) fun _ ↦ .pure _
      · exact .bind (.mapM fun e _ ↦ .bind (hwithin e.1) fun _ ↦ .bind (hwithin e.2) fun _ ↦
          .pure _) fun _ ↦ .pure _
      · exact .bind (ih _ _) fun _ ↦ .pure _
      · exact st.mild_writeObject hwithin (st.mild_display hwithin) _
      · exact st.mild_writeObject hwithin (st.mild_display hwithin) _
      · exact .pure _

theorem mild_written (v : Value) : Mild (st.written v) := st.mild_write (st.mild_writeCell _) [] v

theorem mild_displayed (v : Value) : Mild (st.displayed v) := st.mild_display st.mild_written v

theorem mild_containsKey (keys : List Value) (key : Value) : Mild (st.containsKey keys key) :=
  .bind (st.mild_hash _) fun _ ↦ .pure _

theorem mild_index (sequence : String) (key : Value) : Mild (st.index sequence key) := by
  unfold index
  split
  · exact .ite (.pure _) (.throw rfl)
  · exact .throw rfl

theorem mild_place (whole : String) (size : Nat) (n : Int) : Mild (place whole size n) :=
  .ite (.pure _) (.throw rfl)

theorem mild_item? (container key : Value) : Mild (st.item? container key) := by
  refine .bind (st.mild_contentWithin _ container) fun w ↦ ?_
  split
  · exact .bind (st.mild_hash key) fun _ ↦ .pure _
  · exact .bind (st.mild_hash key) fun _ ↦ .pure _
  · exact .ite (.bind (st.mild_hash key) fun _ ↦ .pure _) (.throw rfl)
  · split
    · exact .bind (.bind (st.mild_index _ key) fun _ ↦ mild_place _ _ _) fun _ ↦ .pure _
    · exact .throw rfl

theorem mild_item (container key : Value) : Mild (st.item container key) := by
  refine .bind (st.mild_item? container key) fun v? ↦ ?_
  cases v? with
  | some v => exact .pure v
  | none => exact .bind (st.mild_written key) fun _ ↦ .throw rfl

theorem mild_containsIn (container key : Value) : Mild (st.containsIn container key) := by
  unfold containsIn
  split
  · exact .bind (st.mild_hash key) fun _ ↦ .pure _
  · exact .bind (st.mild_hash key) fun _ ↦ .pure _
  · exact st.mild_containsKey _ key
  · exact st.mild_containsKey _ key
  · split
    · exact .pure _
    · exact .throw rfl
  · split
    · exact .pure _
    · exact .throw rfl
    · exact .throw rfl
  · split
    · exact .bind (.ite (.pure _) (.throw rfl)) fun _ ↦ .pure _
    · exact .pure _
    · exact .throw rfl
    · exact .anyM fun v _ ↦ st.mild_sameOrEqual v key
    · exact .throw rfl

theorem mild_contains (container key : Value) : Mild (st.contains container key) :=
  .ite (.bind (st.mild_item? container key) fun _ ↦ .pure _) (st.mild_containsIn container key)

theorem mild_length (v : Value) : Mild (st.length v) := by
  refine .bind (st.mild_contentWithin _ v) fun w ↦ ?_
  split
  · exact .pure _
  · split
    · exact .pure _
    · exact .throw rfl

theorem mild_isTrue (v : Value) : Mild (st.isTrue v) := by
  refine .ite (.bind (st.mild_length v) fun _ ↦ .pure _) ?_
  split
  all_goals first | exact .pure _ | skip
  split <;> exact .pure _

theorem mild_entriesOf (v : Value) : Mild (st.entriesOf v) := by
  unfold entriesOf
  split
  · exact .pure _
  · exact .bind (st.mild_iterate v) fun _ ↦ .mapM fun key _ ↦
      .bind (st.mild_item v key) fun _ ↦ .pure _

theorem mild_givenBy (es : Entries Value Value) (key : Value) : Mild (st.givenBy es key) :=
  .bind (st.mild_hash key) fun _ ↦ .pure _

theorem mild_registered (registry : Value) : Mild (st.registered registry) :=
  .bind (st.mild_offers registry _ _) fun _ ↦ st.mild_entriesOf registry

mutual
theorem mild_isOf (v target : Value) : Mild (st.isOf v target) := by
  cases target with
  | ofClass c => exact .pure _
  | tuple targets => exact mild_isOfAny v targets
  | derived c target id =>
    cases target with
    | tuple targets => exact mild_isOfAny v targets
    | _ => exact .throw rfl
  | _ => exact .throw rfl
termination_by structural target
theorem mild_isOfAny (v : Value) (targets : List Value) : Mild (st.isOfAny v targets) := by
  cases targets with
  | nil => exact .pure false
  | cons target targets =>
    exact .bind (mild_isOf v target) fun _ ↦ .ite (.pure true) (mild_isOfAny v targets)
termination_by structural targets
end

theorem mild_hasType (target v : Value) : Mild (st.hasType target v) := by
  unfold hasType
  dsimp only
  split
  all_goals first | exact .pure _ | skip
  · exact .ite (.pure false) (st.mild_isOf v _)
  · exact st.mild_isOf v target

theorem mild_targetName (target : Value) : Mild (st.targetName target) := by
  refine .bind (st.mild_hash target) fun _ ↦ ?_
  split
  · exact .pure _
  · refine .bind (st.mild_written _) fun _ ↦ ?_
    split
    · exact st.mild_displayed _
    · exact .pure _

theorem mild_literalName (v : Value) : Mild (st.literalName v) := by
  unfold literalName
  split
  · exact .bind (st.mild_attributeOf v _) fun _ ↦ .bind (st.mild_displayed _) fun _ ↦ .pure _
  · split
    · exact .pure _
    · exact st.mild_written v

theorem mild_literalNames (vs : List Value) : Mild (st.literalNames vs) :=
  .bind (.mapM fun v _ ↦ st.mild_literalName v) fun _ ↦ .pure _

theorem mild_attributeLabel (name : Value) : Mild (st.attributeLabel name) := by
  refine .bind (st.mild_offers name _ _) fun _ ↦ ?_
  split
  · exact .pure _
  · exact .throw rfl
  · exact st.mild_refusal name _

theorem mild_passesUnseen (field value : Value) : Mild (st.passesUnseen field value) := by
  cases value
  case nil => exact .bind (st.mild_attributeOf field _) fun _ ↦ st.mild_isTrue _
  all_goals exact .pure false

theorem mild_unknownNames (registry : Value) (names : List Value) :
    Mild (st.unknownNames (st.roster registry) names) := by
  refine .bind (.mapM fun name _ ↦ .bind (st.mild_contains registry name) fun known ↦ ?_) fun _ ↦
    .pure _
  exact .ite (.pure none) (.bind (st.mild_displayed name) fun _ ↦ .pure _)

theorem mild_selected (registry : Value) {s : Supply} (hs : ∀ name, Mild (s.valueOf name)) :
    Mild (st.selected (st.roster registry) s) :=
  .bind (st.mild_iterate registry) fun _ ↦ .foldlM (fun _ name _ ↦ .bind (hs name) fun _ ↦
    .bind (st.mild_hash name) fun _ ↦ .pure _) []

theorem mild_givenAttributes (typeName : String) (argument : Value)
    (named : List (String × Value)) : Mild (st.givenAttributes typeName argument named) := by
  refine .ite (.pure _) (.ite ?_ (.throw rfl))
  exact .bind (st.mild_entriesOf argument) fun _ ↦ .pure _

theorem mild_checkInitializer (c : ClassId) : Mild (st.checkInitializer c) := by
  unfold checkInitializer
  split
  · exact .pure ()
  · exact .throw rfl

end Store

end Conformance
