import Conformance.Proofs.Content
import Conformance.Proofs.Equality.Sameness

namespace Conformance

namespace Store

variable {st : Store} {R : Value → Value → Prop} {v w : Value}

theorem plain_induction {P : Value → Prop}
    (derived : ∀ (c : ClassId) (v : Value) (id : ObjectId), P v → P (.derived c v id))
    (other : ∀ v : Value, v.plain = v → (∀ c w id, v ≠ .derived c w id) → P v) (v : Value) : P v := by
  match v with
  | .derived c v id => exact derived c v id (plain_induction derived other v)
  | .nil | .bool _ | .int _ | .float .. | .complex .. | .text _ | .bytes _ | .range .. | .tuple _
  | .frozenSet _ | .byteArray _ | .list _ | .set _ | .dictionary _ | .mappingView _ | .ofClass _
  | .object .. | .operation _ | .property _ => exact other _ rfl nofun
termination_by structural v

theorem plain_ne_derived {c : ClassId} {w : Value} {id : ObjectId} (v : Value) :
    v.plain ≠ .derived c w id := by
  induction v using plain_induction with
  | derived _ _ _ h => exact h
  | other v hv hne =>
    rw [hv]
    exact hne c w id

@[simp] theorem plain_plain (v : Value) : v.plain.plain = v.plain := by
  induction v using plain_induction with
  | derived _ _ _ h => exact h
  | other v hv _ => rw [hv, hv]

@[simp] theorem sight?_plain (v : Value) : st.sight? v.plain = st.sight? v := by
  induction v using plain_induction with
  | derived _ _ _ h => exact h
  | other v hv _ => rw [hv]

@[simp] theorem alike_plain : st.Alike R v w.plain ↔ st.Alike R v w := by
  rw [Alike, sight?_plain, Alike]

theorem alike_iff {a b : Sight} (ha : st.sight? v = some a) (hb : st.sight? w = some b) :
    st.Alike R v w ↔ a.Related R b := by
  constructor
  · rintro ⟨a', b', ha', hb', h⟩
    cases ha.symm.trans ha'
    cases hb.symm.trans hb'
    exact h
  · exact fun h ↦ ⟨a, b, ha, hb, h⟩

def ShownBy (st : Store) (v : Value) : Sight → Prop
  | .identity u => v = u
  | .number _ => v.number?.isSome
  | .bytes _ => (st.bytes? v).isSome
  | .range _ => ∃ a b c, v = .range a b c
  | .tuple _ => ∃ vs, v = .tuple vs
  | .list _ => ∃ id, v = .list id
  | .record c _ => ∃ id, v = .object c id ∧ ∃ b, st.nature c = .record b
  | .validated c _ => ∃ id, v = .object c id ∧ st.nature c = .validated
  | .members _ => (st.setMembers? v).isSome
  | .mapping _ => (st.mapping? v).isSome

theorem shownBy_of_sight {a : Sight} (hv : v.plain = v) (h : st.sight? v = some a) :
    st.ShownBy v a := by
  cases v with
  | object c id =>
    rw [sight?, sightOfObject?] at h
    split at h
    · next hmapping =>
      cases h
      exact Option.isSome_of_eq_some hmapping
    · next hnature =>
      obtain ⟨es, -, rfl⟩ := Option.map_eq_some_iff.1 h
      exact ⟨id, rfl, hnature⟩
    · next b _ hnature =>
      obtain ⟨vs, -, rfl⟩ := Option.map_eq_some_iff.1 h
      exact ⟨id, rfl, b, hnature⟩
    · cases h
      rfl
  | derived c v id => exact absurd hv (plain_ne_derived v)
  | range start stop step =>
    cases h
    exact ⟨start, stop, step, rfl⟩
  | tuple vs =>
    cases h
    exact ⟨vs, rfl⟩
  | list id =>
    cases h
    exact ⟨id, rfl⟩
  | dictionary | mappingView =>
    cases h
    rfl
  | bool | int | float | complex =>
    obtain ⟨e, -, rfl⟩ := Option.map_eq_some_iff.1 h
    rfl
  | _ =>
    cases h
    rfl

def IsDatum : Value → Prop
  | .bytes _ | .frozenSet _ | .byteArray _ | .list _ | .set _ | .dictionary _ | .mappingView _
  | .derived .. | .object .. => False
  | _ => True

theorem mapping?_of_isDatum (h : IsDatum v) : st.mapping? v = none := by
  have hkind : v.isOfOwnKind := by cases v <;> first | rfl | cases h
  have hnature : st.natureOf v ≠ .registry := by
    rw [natureOf_of_isOfOwnKind hkind]
    exact nofun
  refine mapping?_eq_none hnature ?_ ?_ <;> cases v <;> first | (cases h; done) | exact nofun

/-- Two plain values whose comparison is left to the one that sees their contents. -/
structure Deferred (st : Store) (v w : Value) : Prop where
  left : v.plain = v
  right : w.plain = w
  differ (hv : IsDatum v) : ¬st.Same v w

theorem decides_orSame {x : Except Fault Bool} (h : Decides x (st.Alike st.Same v w)) :
    Decides (v.orSame w x) (st.Same v w) := by
  rw [same_iff, Value.orSame]
  split
  · next hsame => exact .of_ok ⟨fun _ ↦ .inl hsame, fun _ ↦ rfl⟩
  · next hsame => exact h.congr ⟨.inr, fun h ↦ h.resolve_left hsame⟩

theorem not_same_of_deferred (h : st.Deferred v w)
    (hmapping : ¬((st.mapping? v).isSome ∧ (st.mapping? w).isSome))
    (hmembers : ¬((st.setMembers? v).isSome ∧ (st.setMembers? w).isSome))
    (hbytes : ¬((st.bytes? v).isSome ∧ (st.bytes? w).isSome))
    (hlists : ¬((∃ i, v = .list i) ∧ ∃ j, w = .list j))
    (hobjects : ¬((∃ c i, v = .object c i) ∧ ∃ d j, w = .object d j)) : ¬st.Same v w := by
  intro hsame
  have hdatum : ¬IsDatum v := fun hv ↦ h.differ hv hsame
  have hne : v ≠ w := by
    rintro rfl
    cases v with
    | bytes | byteArray => exact hbytes ⟨rfl, rfl⟩
    | set | frozenSet => exact hmembers ⟨rfl, rfl⟩
    | list id => exact hlists ⟨⟨id, rfl⟩, id, rfl⟩
    | dictionary | mappingView => exact hmapping ⟨rfl, rfl⟩
    | object c id => exact hobjects ⟨⟨c, id, rfl⟩, c, id, rfl⟩
    | derived c v id => exact plain_ne_derived v h.left
    | _ => exact hdatum trivial
  obtain ⟨a, b, ha, hb, hab⟩ := hsame.alike.resolve_left hne
  have hv := shownBy_of_sight h.left ha
  have hw := shownBy_of_sight h.right hb
  -- whatever is seen of both is of one kind, and every kind has been ruled out
  cases hab with
  | identity u => exact hne (hv.trans hw.symm)
  | number e => cases v <;> first | exact hdatum trivial | cases hv
  | bytes data => exact hbytes ⟨hv, hw⟩
  | range items =>
    obtain ⟨_, _, _, rfl⟩ := hv
    exact hdatum trivial
  | tuple _ =>
    obtain ⟨_, rfl⟩ := hv
    exact hdatum trivial
  | list _ => exact hlists ⟨hv, hw⟩
  | record c _ | validated c _ =>
    obtain ⟨i, hv, -⟩ := hv
    obtain ⟨j, hw, -⟩ := hw
    exact hobjects ⟨⟨c, i, hv⟩, c, j, hw⟩
  | members _ => exact hmembers ⟨hv, hw⟩
  | mapping _ => exact hmapping ⟨hv, hw⟩

theorem sight?_of_number? {m : Number} (h : v.number? = some m) :
    st.sight? v = m.value?.map .number := by
  cases v <;> cases h <;> rfl

theorem decides_numbers {m n : Number} (hm : v.number? = some m) (hn : w.number? = some n) :
    Decides (.ok (m.eq n)) (st.Alike st.Same v w) := by
  refine .of_ok (Number.eq_iff.trans ⟨?_, ?_⟩)
  · rintro ⟨e, hme, hne⟩
    refine ⟨_, _, ?_, ?_, .number e⟩
    · rw [sight?_of_number? hm, hme]
      rfl
    · rw [sight?_of_number? hn, hne]
      rfl
  · rintro ⟨a, b, ha, hb, hab⟩
    rw [sight?_of_number? hm] at ha
    rw [sight?_of_number? hn] at hb
    obtain ⟨e, he, rfl⟩ := Option.map_eq_some_iff.1 ha
    obtain ⟨e', he', rfl⟩ := Option.map_eq_some_iff.1 hb
    cases hab
    exact ⟨e, he, he'⟩

theorem decides_beq {α : Type} [BEq α] [LawfulBEq α] {f : α → Sight} {x y : α}
    (hself : ∀ x, (f x).Related st.Same (f x)) (heq : ∀ x y, (f x).Related st.Same (f y) → x = y)
    (hv : st.sight? v = some (f x)) (hw : st.sight? w = some (f y)) :
    Decides (.ok (x == y)) (st.Alike st.Same v w) := by
  refine .of_ok (beq_iff_eq.trans ?_)
  rw [alike_iff hv hw]
  constructor
  · rintro rfl
    exact hself x
  · exact heq x y

theorem decides_beq_identity {α : Type} [BEq α] [LawfulBEq α] {f : α → Value} {x y : α}
    (hf : f.Injective) (hsight : ∀ x, st.sight? (f x) = some (.identity (f x))) :
    Decides (.ok (x == y)) (st.Alike st.Same (f x) (f y)) := by
  exact decides_beq (f := fun x ↦ .identity (f x)) (fun x ↦ .identity (f x))
    (fun x y h ↦ hf h.eq_of_identity) (hsight x) (hsight y)

theorem not_same_of_isDatum (hv : v.plain = v) (hw : w.plain = w) (hdatum : IsDatum v) (hne : v ≠ w)
    (htuple : ∀ vs, v ≠ .tuple vs) (hnumbers : ∀ m n, v.number? = some m → w.number? ≠ some n)
    (hrange : ∀ a b c a' b' c', v = .range a b c → w ≠ .range a' b' c') : ¬st.Same v w := by
  intro hsame
  obtain ⟨a, b, ha, hb, hab⟩ := hsame.alike.resolve_left hne
  have hv := shownBy_of_sight hv ha
  have hw := shownBy_of_sight hw hb
  cases hab with
  | identity u => exact hne (hv.trans hw.symm)
  | number e =>
    obtain ⟨m, hm⟩ := Option.isSome_iff_exists.1 hv
    obtain ⟨n, hn⟩ := Option.isSome_iff_exists.1 hw
    exact hnumbers m n hm hn
  | range items =>
    obtain ⟨_, _, _, hv⟩ := hv
    obtain ⟨_, _, _, hw⟩ := hw
    exact hrange _ _ _ _ _ _ hv hw
  | tuple _ =>
    obtain ⟨vs, hv⟩ := hv
    exact htuple vs hv
  | list _ =>
    obtain ⟨_, rfl⟩ := hv
    exact hdatum
  | record _ _ | validated _ _ =>
    obtain ⟨_, rfl, -⟩ := hv
    exact hdatum
  | mapping _ =>
    rw [ShownBy, mapping?_of_isDatum hdatum] at hv
    cases hv
  | bytes _ | members _ => cases v <;> first | exact hdatum | cases hv

theorem sight?_of_mapping? {es : Entries Value Value} (hv : v.plain = v)
    (h : st.mapping? v = some es) : st.sight? v = some (.mapping es) := by
  by_cases hdatum : IsDatum v
  · rw [mapping?_of_isDatum hdatum] at h
    cases h
  · cases v with
    | object c id => rw [sight?, sightOfObject?, h]
    | derived c v id => exact absurd hv (plain_ne_derived v)
    | dictionary | mappingView =>
      cases h
      rfl
    | bytes | byteArray | list | set | frozenSet => cases h
    | _ => exact absurd trivial hdatum

theorem sight?_of_reported {c : ClassId} {id : ObjectId} {es : Entries Value Value}
    (hc : st.nature c = .validated) (h : st.reported (.object c id) = .ok es) :
    st.sight? (.object c id) = some (.validated c es) := by
  have hnature : st.natureOf (.object c id) = .validated := hc
  have hmapping : st.mapping? (.object c id) = none := mapping?_object (by rw [hc]; exact nofun) id
  rw [sight?, sightOfObject?, hmapping, hnature, h]
  rfl

theorem sight?_of_parts {c : ClassId} {id : ObjectId} {b : Builtin} {vs : List Value}
    (hc : st.nature c = .record b) (h : st.parts (.object c id) b = .ok vs) :
    st.sight? (.object c id) = some (.record c vs) := by
  have hnature : st.natureOf (.object c id) = .record b := hc
  have hmapping : st.mapping? (.object c id) = none := mapping?_object (by rw [hc]; exact nofun) id
  rw [sight?, sightOfObject?, hmapping, hnature]
  exact congrArg (·.toOption.map (Sight.record c)) h

theorem sight?_of_identity {c : ClassId} {id : ObjectId} (hmapping : st.mapping? (.object c id) = none)
    (hvalidated : st.natureOf (.object c id) ≠ .validated)
    (hrecord : ∀ b, st.natureOf (.object c id) ≠ .record b) :
    st.sight? (.object c id) = some (.identity (.object c id)) := by
  rw [sight?, sightOfObject?, hmapping]
  split
  · next h => cases h
  · next h => exact absurd h hvalidated
  · next b _ h => exact absurd h (hrecord b)
  · rfl

theorem sight?_of_setMembers? {vs : List Value} (hv : v.plain = v)
    (h : st.setMembers? v = some vs) : st.sight? v = some (.members vs) := by
  cases v with
  | derived c v id => exact absurd hv (plain_ne_derived v)
  | set | frozenSet =>
    cases h
    rfl
  | _ => cases h

theorem sight?_of_bytes? {data : List UInt8} (hv : v.plain = v) (h : st.bytes? v = some data) :
    st.sight? v = some (.bytes data) := by
  cases v with
  | derived c v id => exact absurd hv (plain_ne_derived v)
  | bytes | byteArray =>
    cases h
    rfl
  | _ => cases h

/-- A comparison that decides whether two values are the same where it is left to it. -/
def DecidesDeferred (st : Store) (deep : Value → Value → Except Fault Bool) : Prop :=
  ∀ v w, st.Deferred v w → Decides (deep v w) (st.Alike st.Same v w)

variable {deep : Value → Value → Except Fault Bool}

theorem decides_equalsAtom (hdeep : st.DecidesDeferred deep) (hv : v.plain = v) (hw : w.plain = w)
    (htuple : ∀ vs, v ≠ .tuple vs) : Decides (v.equalsAtom deep w) (st.Alike st.Same v w) := by
  unfold Value.equalsAtom
  split
  · next m n hm hn => exact decides_numbers hm hn
  · next hnumbers =>
    split
    · exact .of_ok ⟨fun _ ↦ alike_self rfl, fun _ ↦ rfl⟩
    · exact decides_beq_identity (fun _ _ ↦ Value.text.inj) fun _ ↦ rfl
    · exact decides_beq .bytes (by rintro _ _ ⟨⟩; rfl) rfl rfl
    · exact decides_beq .range (by rintro _ _ ⟨⟩; rfl) rfl rfl
    · exact decides_beq_identity (fun _ _ ↦ Value.ofClass.inj) fun _ ↦ rfl
    · exact decides_beq_identity (fun _ _ ↦ Value.operation.inj) fun _ ↦ rfl
    · exact decides_beq_identity (fun _ _ ↦ Value.property.inj) fun _ ↦ rfl
    · next hnil htext hbytes hrange hclass hoperation hproperty =>
      refine hdeep v w ⟨hv, hw, fun hdatum ↦ not_same_of_isDatum hv hw hdatum ?_ htuple hnumbers ?_⟩
      · rintro rfl
        cases v with
        | nil => exact hnil rfl rfl
        | text => exact htext _ _ rfl rfl
        | range => exact hrange _ _ _ _ _ _ rfl rfl
        | tuple => exact htuple _ rfl
        | ofClass => exact hclass _ _ rfl rfl
        | operation => exact hoperation _ _ rfl rfl
        | property => exact hproperty _ _ rfl rfl
        | bool | int | float | complex => exact hnumbers _ _ rfl rfl
        | _ => exact hdatum
      · exact fun _ _ _ _ _ _ hv hw ↦ hrange _ _ _ _ _ _ hv hw

mutual
theorem decides_equals (hdeep : st.DecidesDeferred deep) (v w : Value) :
    Decides (v.equals deep w) (st.Alike st.Same v w) := by
  match v with
  | .derived c v id => exact decides_equals hdeep v w
  | .tuple vs =>
    rw [Value.equals, ← alike_plain]
    split
    · next ws hw =>
      rw [hw, alike_iff rfl rfl]
      exact (Value.decides_equalLists (decides_equals_of_mem hdeep vs) ws).congr
        ⟨.tuple, fun h ↦ by cases h; assumption⟩
    · next hw =>
      refine .of_false ?_
      rintro ⟨a, b, ha, hb, hab⟩
      cases ha
      cases hab
      obtain ⟨ws, hws⟩ := shownBy_of_sight (plain_plain w) hb
      exact hw ws hws
  | .frozenSet vs =>
    rw [Value.equals, ← alike_plain]
    split
    · next ws hw =>
      rw [hw, alike_iff rfl rfl]
      exact (Value.decides_equalSets (decides_equals_of_mem hdeep vs) ws).congr
        ⟨.members, fun h ↦ by cases h; assumption⟩
    · exact hdeep _ _ ⟨rfl, plain_plain w, nofun⟩
  | .nil | .bool _ | .int _ | .float .. | .complex .. | .text _ | .bytes _ | .range .. | .byteArray _
  | .list _ | .set _ | .dictionary _ | .mappingView _ | .ofClass _ | .object .. | .operation _
  | .property _ =>
    rw [← alike_plain]
    exact decides_equalsAtom hdeep rfl (plain_plain w) nofun
termination_by structural v
theorem decides_equals_of_mem (hdeep : st.DecidesDeferred deep) (vs : List Value) :
    ∀ v ∈ vs, ∀ w, Decides (v.orSame w (v.equals deep w)) (st.Same v w) := by
  cases vs with
  | nil => exact fun _ hv ↦ nomatch hv
  | cons v vs =>
    exact List.forall_mem_cons.2
      ⟨fun w ↦ decides_orSame (decides_equals hdeep v w), decides_equals_of_mem hdeep vs⟩
termination_by structural vs
end

theorem decides_same (hdeep : st.DecidesDeferred deep) (v w : Value) :
    Decides (v.orSame w (v.equals deep w)) (st.Same v w) :=
  decides_orSame (decides_equals hdeep v w)

theorem object_eq_of_alike {c d : ClassId} {i j : ObjectId}
    (hmapping : ¬((st.mapping? (.object c i)).isSome ∧ (st.mapping? (.object d j)).isSome))
    (h : st.Alike R (.object c i) (.object d j)) :
    c = d ∧ (i = j ∨ st.nature c = .validated ∨ ∃ b, st.nature c = .record b) := by
  obtain ⟨a, b, ha, hb, hab⟩ := h
  have hv := shownBy_of_sight rfl ha
  have hw := shownBy_of_sight rfl hb
  cases hab with
  | identity u =>
    cases hv.trans hw.symm
    exact ⟨rfl, .inl rfl⟩
  | record _ _ =>
    obtain ⟨_, hv, hnature⟩ := hv
    obtain ⟨_, hw, -⟩ := hw
    cases hv
    cases hw
    exact ⟨rfl, .inr (.inr hnature)⟩
  | validated _ _ =>
    obtain ⟨_, hv, hnature⟩ := hv
    obtain ⟨_, hw, -⟩ := hw
    cases hv
    cases hw
    exact ⟨rfl, .inr (.inl hnature)⟩
  | mapping _ => exact absurd ⟨hv, hw⟩ hmapping
  | number _ | bytes _ | members _ => cases hv
  | range _ =>
    obtain ⟨_, _, _, hv⟩ := hv
    cases hv
  | tuple _ | list _ =>
    obtain ⟨_, hv⟩ := hv
    cases hv

theorem decides_equalObjects (hdeep : st.DecidesDeferred deep) {c d : ClassId} {i j : ObjectId}
    (hmapping : ¬((st.mapping? (.object c i)).isSome ∧ (st.mapping? (.object d j)).isSome)) :
    Decides (st.equalObjects deep (.object c i) (.object d j))
      (st.Alike st.Same (.object c i) (.object d j)) := by
  have hsame := decides_same hdeep
  unfold equalObjects
  split
  · next hne =>
    have hcd : c ≠ d := hne
    refine .of_ok ((Value.isSame_iff rfl).trans ⟨fun h ↦ ?_, fun h ↦ ?_⟩)
    · cases h
      exact absurd rfl hcd
    · exact absurd (object_eq_of_alike hmapping h).1 hcd
  · next heq =>
    obtain rfl : c = d := not_not.1 heq
    split
    · next hnature =>
      refine .bind fun es hes ↦ .bind fun fs hfs ↦ ?_
      have hc : st.nature c = .validated := hnature
      rw [alike_iff (sight?_of_reported hc hes) (sight?_of_reported hc hfs)]
      exact (decides_equalEntries hsame es fs).congr ⟨.validated c, fun h ↦ by cases h; assumption⟩
    · next b hnature =>
      refine .bind fun vs hvs ↦ .bind fun ws hws ↦ ?_
      have hc : st.nature c = .record b := hnature
      rw [alike_iff (sight?_of_parts hc hvs) (sight?_of_parts hc hws)]
      exact (Value.decides_equalLists (fun v _ ↦ hsame v) ws).congr
        ⟨.record c, fun h ↦ by cases h; assumption⟩
    · next hvalidated hrecord =>
      refine .of_ok ((Value.isSame_iff rfl).trans ⟨fun h ↦ ?_, fun h ↦ ?_⟩)
      · cases h
        have hnone : st.mapping? (.object c i) = none := by
          cases hes : st.mapping? (.object c i) with
          | none => rfl
          | some es => exact absurd ⟨rfl, rfl⟩ (hes ▸ hmapping)
        have hsight := sight?_of_identity hnone hvalidated hrecord
        exact ⟨_, _, hsight, hsight, .identity _⟩
      · obtain ⟨-, rfl | hnature | ⟨b, hnature⟩⟩ := object_eq_of_alike hmapping h
        · rfl
        · exact absurd hnature hvalidated
        · exact absurd hnature (hrecord b)

theorem not_isSome_and {α β : Type} {a? : Option α} {b? : Option β}
    (h : ∀ a b, a? = some a → b? = some b → False) : ¬(a?.isSome ∧ b?.isSome) := by
  simp only [Option.isSome_iff_exists]
  rintro ⟨⟨a, ha⟩, b, hb⟩
  exact h a b ha hb

theorem decides_equalCells (depth : Nat) : st.DecidesDeferred (st.equalCells depth) := by
  induction depth with
  | zero => exact fun _ _ _ ↦ .of_error _ _
  | succ depth ih =>
    intro v w h
    have hsame := decides_same ih
    unfold equalCells
    -- the order of the cases is that of the comparison: mappings, sets, bytes, then the rest
    split
    · next es fs hes hfs =>
      rw [alike_iff (sight?_of_mapping? h.left hes) (sight?_of_mapping? h.right hfs)]
      exact (decides_equalEntries hsame es fs).congr ⟨.mapping, fun h ↦ by cases h; assumption⟩
    · next vs ws hvs hws _ =>
      rw [alike_iff (sight?_of_setMembers? h.left hvs) (sight?_of_setMembers? h.right hws)]
      exact (Value.decides_equalSets (fun v _ ↦ hsame v) ws).congr
        ⟨.members, fun h ↦ by cases h; assumption⟩
    · next a b ha hb _ _ =>
      exact decides_beq .bytes (by rintro _ _ ⟨⟩; rfl) (sight?_of_bytes? h.left ha)
        (sight?_of_bytes? h.right hb)
    · next hmapping hmembers hbytes =>
      have hmapping := not_isSome_and hmapping
      have hmembers := not_isSome_and hmembers
      have hbytes := not_isSome_and hbytes
      split
      · next i j =>
        rw [alike_iff rfl rfl]
        dsimp only
        split
        · exact (Value.decides_equalLists (fun v _ ↦ hsame v) _).congr
            ⟨.list, fun h ↦ by cases h; assumption⟩
        · next hlength =>
          refine .of_false fun h ↦ hlength ?_
          cases h with
          | list h => exact beq_iff_eq.2 h.length_eq
      · exact decides_equalObjects ih hmapping
      · next hlists hobjects =>
        have hdiffer : ¬st.Same v w := by
          refine not_same_of_deferred h hmapping hmembers hbytes ?_ ?_
          · rintro ⟨⟨i, hv⟩, j, hw⟩
            exact hlists i j hv hw
          · rintro ⟨⟨c, i, hv⟩, d, j, hw⟩
            exact hobjects c i d j hv hw
        have hnot : v.isSame w = false :=
          Bool.eq_false_iff.2 fun h ↦ hdiffer (same_iff.2 (.inl h))
        rw [hnot]
        exact .of_false fun h ↦ hdiffer (.of_alike h)

theorem decides_equal (v w : Value) : Decides (st.equal v w) (st.Alike st.Same v w) :=
  decides_equals (decides_equalCells _) v w

end Store

end Conformance
