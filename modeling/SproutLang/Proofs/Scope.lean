import SproutLang.Scope

/-!
Scopes as maps, and how one scope comes from another by binding. `find?` and the list of bindings
are two views of a scope: `find?` says what a key stands for, the list says also in which order the
keys were bound. `Changed ks bs bs'` relates the lists before and after some bindings of keys in
`ks`: it fixes everything that such bindings cannot touch, so what happens to one key, to the order
and to the scope as a whole are all read off from it.
-/

namespace SproutLang.Scope

variable {ks ls : List Key} {k l : Key} {v : Value} {bs bs' bs'' : List (Key × Value)}

/-! ### One binding -/

theorem lookup_cons_eq_ite (b : Key × Value) :
    (b :: bs).lookup l = if l = b.1 then some b.2 else bs.lookup l := by
  rw [List.lookup_cons]
  by_cases hl : l = b.1
  · rw [if_pos hl, beq_iff_eq.mpr hl]
  · rw [if_neg hl, beq_eq_false_iff_ne.mpr hl]

@[simp] theorem lookup_insertBinding :
    (insertBinding k v bs).lookup l = if l = k then some v else bs.lookup l := by
  induction bs with
  | nil => rw [insertBinding, lookup_cons_eq_ite]
  | cons b bs ih =>
      rw [insertBinding]
      split
      · rename_i hb
        subst hb
        simp only [lookup_cons_eq_ite]
        split
        · rfl
        · rfl
      · rename_i hb
        rw [lookup_cons_eq_ite, lookup_cons_eq_ite, ih]
        by_cases hl : l = b.1
        · subst hl
          rw [if_pos rfl, if_pos rfl, if_neg hb]
        · rw [if_neg hl, if_neg hl]

@[simp] theorem find?_insert (s : Scope) :
    (s.insert k v).find? l = if l = k then some v else s.find? l :=
  lookup_insertBinding

theorem mem_insertBinding {b : Key × Value} (h : b ∈ insertBinding k v bs) :
    b = (k, v) ∨ b ∈ bs := by
  induction bs with
  | nil => exact .inl (by simpa [insertBinding] using h)
  | cons a bs ih =>
      rw [insertBinding] at h
      split at h
      · rcases List.mem_cons.mp h with h | h
        · exact .inl h
        · exact .inr (List.mem_cons_of_mem _ h)
      · rcases List.mem_cons.mp h with h | h
        · exact .inr (h ▸ List.mem_cons_self)
        · exact (ih h).imp_right (List.mem_cons_of_mem _)

/-- What is true of all bound values stays so when one more has it. -/
theorem forall_mem_insert (P : Value → Prop) {s : Scope} (h : ∀ b ∈ s.bindings, P b.2) (hv : P v) :
    ∀ b ∈ (s.insert k v).bindings, P b.2 := by
  intro b hb
  rcases mem_insertBinding hb with rfl | hb
  · exact hv
  · exact h b hb

theorem mem_of_find? {s : Scope} (h : s.find? k = some v) : (k, v) ∈ s.bindings := by
  obtain ⟨before, after, hsplit, -⟩ := List.lookup_eq_some_iff.mp h
  rw [hsplit]
  exact List.mem_append_right _ List.mem_cons_self

/-- When no key stands twice in the list, its order does not matter to what a key stands for. -/
theorem find?_of_perm {s t : Scope} (hnodup : s.keys.Nodup) (hperm : t.bindings.Perm s.bindings) :
    t.find? k = s.find? k := by
  have hfind {s : Scope} (hs : s.keys.Nodup) {v : Value} :
      s.find? k = some v ↔ (k, v) ∈ s.bindings := by
    refine ⟨mem_of_find?, fun hmem => ?_⟩
    obtain ⟨before, after, hsplit⟩ := List.append_of_mem hmem
    refine List.lookup_eq_some_iff.mpr ⟨before, after, hsplit, fun b hb => ?_⟩
    rw [keys, hsplit, List.map_append, List.map_cons, List.nodup_append] at hs
    have hne := hs.2.2 b.1 (List.mem_map_of_mem hb) k List.mem_cons_self
    simpa using hne.symm
  have hnodup' : t.keys.Nodup := (hperm.map Prod.fst).nodup_iff.mpr hnodup
  ext v
  rw [hfind hnodup, hfind hnodup', hperm.mem_iff]

/-! ### Several bindings -/

/-- From `bs` to `bs'` the keys in `ks` may have got another value or, at the end of the list, a
first one. Nothing else has changed. -/
inductive Changed (ks : List Key) : List (Key × Value) → List (Key × Value) → Prop
  | new {bs' : List (Key × Value)} : (∀ b ∈ bs', b.1 ∈ ks) → Changed ks [] bs'
  | keep {b : Key × Value} {bs bs' : List (Key × Value)} :
      Changed ks bs bs' → Changed ks (b :: bs) (b :: bs')
  | set {k : Key} {v v' : Value} {bs bs' : List (Key × Value)} :
      k ∈ ks → Changed ks bs bs' → Changed ks ((k, v) :: bs) ((k, v') :: bs')

namespace Changed

theorem refl (ks : List Key) (bs : List (Key × Value)) : Changed ks bs bs := by
  induction bs with
  | nil => exact .new (by simp)
  | cons b bs ih => exact .keep ih

theorem mono (h : Changed ks bs bs') (hsub : ks ⊆ ls) : Changed ls bs bs' := by
  induction h with
  | new hnew => exact .new fun b hb => hsub (hnew b hb)
  | keep _ ih => exact .keep ih
  | set hk _ ih => exact .set (hsub hk) ih

theorem mem_of_all_mem (h : Changed ks bs bs') (hall : ∀ b ∈ bs, b.1 ∈ ks) :
    ∀ b ∈ bs', b.1 ∈ ks := by
  induction h with
  | new hnew => exact hnew
  | keep _ ih | set _ _ ih =>
      rw [List.forall_mem_cons] at hall ⊢
      exact ⟨hall.1, ih hall.2⟩

theorem trans (h : Changed ks bs bs') (h' : Changed ks bs' bs'') : Changed ks bs bs'' := by
  induction h generalizing bs'' with
  | new hnew => exact .new (h'.mem_of_all_mem hnew)
  | keep _ ih =>
      cases h' with
      | keep h' => exact .keep (ih h')
      | set hk h' => exact .set hk (ih h')
  | set hk _ ih =>
      cases h' with
      | keep h' => exact .set hk (ih h')
      | set _ h' => exact .set hk (ih h')

theorem insertBinding (hk : k ∈ ks) (v : Value) (bs : List (Key × Value)) :
    Changed ks bs (insertBinding k v bs) := by
  induction bs with
  | nil => exact .new (by simpa [Scope.insertBinding] using hk)
  | cons b bs ih =>
      rw [Scope.insertBinding]
      split
      · rename_i hb
        subst hb
        exact .set hk (refl ks bs)
      · exact .keep ih

theorem lookup_eq (h : Changed ks bs bs') (hk : k ∉ ks) : bs'.lookup k = bs.lookup k := by
  induction h with
  | new hnew =>
      rw [List.lookup_nil, List.lookup_eq_none_iff]
      intro b hb
      have hne : k ≠ b.1 := by
        rintro rfl
        exact hk (hnew b hb)
      simpa using hne
  | keep _ ih => rw [lookup_cons_eq_ite, lookup_cons_eq_ite, ih]
  | @set l v v' bs bs' hl _ ih =>
      have hne : k ≠ l := by
        rintro rfl
        exact hk hl
      rw [lookup_cons_eq_ite, lookup_cons_eq_ite, if_neg hne, if_neg hne, ih]

/-- The keys stay in their order; new ones stand after them and are among `ks`. -/
theorem exists_keys_eq (h : Changed ks bs bs') :
    ∃ new, bs'.map Prod.fst = bs.map Prod.fst ++ new ∧ ∀ k ∈ new, k ∈ ks := by
  induction h with
  | @new bs' hnew => exact ⟨bs'.map Prod.fst, by simp, by simpa using hnew⟩
  | keep _ ih | set _ _ ih =>
      obtain ⟨new, hkeys, hmem⟩ := ih
      exact ⟨new, by simp [hkeys], hmem⟩

theorem eq_of_nil (h : Changed [] bs bs') : bs' = bs := by
  induction bs generalizing bs' with
  | nil =>
      cases h with
      | new hnew => exact List.eq_nil_iff_forall_not_mem.mpr fun b hb => by simpa using hnew b hb
  | cons b bs ih =>
      cases h with
      | keep h => rw [ih h]
      | set hk => simp at hk

end Changed

end SproutLang.Scope
