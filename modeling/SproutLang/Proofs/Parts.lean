import SproutLang.Proofs.Printing

/-!
The parts of an expression: the expression itself and, at any depth, what it is made of, the bodies
of function literals included. A property that every form passes on to what stands directly in it
holds of all parts of an expression that has it.
-/

namespace SproutLang

mutual

def Value.parts : Value → List Expr
  | .function _ body => Expr.partsOf body
  | _ => []

def Expr.parts : Expr → List Expr
  | .literal v => .literal v :: v.parts
  | .ref k => [.ref k]
  | .define k value => .define k value :: value.parts
  | .call callee args => .call callee args :: (callee.parts ++ Expr.partsOf args)
  | .stray v => [.stray v]

def Expr.partsOf : List Expr → List Expr
  | [] => []
  | e :: es => e.parts ++ Expr.partsOf es

end

namespace Expr

theorem self_mem_parts (e : Expr) : e ∈ e.parts := by
  cases e <;> simp [parts]

theorem mem_partsOf_iff {p : Expr} {es : List Expr} :
    p ∈ partsOf es ↔ ∃ e ∈ es, p ∈ e.parts := by
  induction es with
  | nil => simp [partsOf]
  | cons e es ih => simp [partsOf, ih]

/-- Every form passes `M` on to the expressions that stand directly in it. -/
structure Inherited (M : Expr → Prop) : Prop where
  statement : ∀ {params body}, M (.literal (.function params body)) → ∀ e ∈ body, M e
  value : ∀ {k value}, M (.define k value) → M value
  callee : ∀ {callee args}, M (.call callee args) → M callee
  argument : ∀ {callee args}, M (.call callee args) → ∀ e ∈ args, M e

section Inherited

variable {M : Expr → Prop}

mutual

theorem Inherited.of_mem_parts (hM : Inherited M) (e : Expr) (h : M e) :
    ∀ p ∈ e.parts, M p := by
  match e with
  | .literal (.function params body) =>
      rw [parts, List.forall_mem_cons]
      exact ⟨h, hM.of_mem_partsOf body (hM.statement h)⟩
  | .literal .void | .literal .falsity | .literal (.int _) | .literal (.native _ _)
  | .literal (.bool _) | .literal (.text _) | .literal .absent | .literal (.list _)
  | .ref k | .stray v =>
      simpa [parts, Value.parts] using h
  | .define k value =>
      rw [parts, List.forall_mem_cons]
      exact ⟨h, hM.of_mem_parts value (hM.value h)⟩
  | .call callee args =>
      rw [parts, List.forall_mem_cons, List.forall_mem_append]
      exact ⟨h, hM.of_mem_parts callee (hM.callee h), hM.of_mem_partsOf args (hM.argument h)⟩

theorem Inherited.of_mem_partsOf (hM : Inherited M) (es : List Expr) (h : ∀ e ∈ es, M e) :
    ∀ p ∈ partsOf es, M p := by
  match es with
  | [] => simp [partsOf]
  | e :: es =>
      rw [List.forall_mem_cons] at h
      rw [partsOf, List.forall_mem_append]
      exact ⟨hM.of_mem_parts e h.1, hM.of_mem_partsOf es h.2⟩

end

end Inherited

theorem inherited_parts_subset (ps : List Expr) : Inherited fun e => e.parts ⊆ ps where
  statement h e he _ hp := h (List.mem_cons_of_mem _ (mem_partsOf_iff.mpr ⟨e, he, hp⟩))
  value h _ hp := h (List.mem_cons_of_mem _ hp)
  callee h _ hp := h (List.mem_cons_of_mem _ (List.mem_append_left _ hp))
  argument h e he _ hp :=
    h (List.mem_cons_of_mem _ (List.mem_append_right _ (mem_partsOf_iff.mpr ⟨e, he, hp⟩)))

theorem inherited_keys_subset (N : Key → Prop) : Inherited fun e => ∀ k ∈ e.keys, N k where
  statement h _ he k hk := h k (List.mem_append_right _ (mem_keysOf he hk))
  value h k hk := h k (List.mem_cons_of_mem _ hk)
  callee h k hk := h k (List.mem_append_left _ hk)
  argument h _ he k hk := h k (List.mem_append_right _ (mem_keysOf he hk))

theorem parts_subset_of_mem {p e : Expr} (hp : p ∈ e.parts) : p.parts ⊆ e.parts :=
  (inherited_parts_subset e.parts).of_mem_parts e (List.Subset.refl _) p hp

theorem parts_subset_of_mem_partsOf {p : Expr} {es : List Expr} (hp : p ∈ partsOf es) :
    p.parts ⊆ partsOf es := by
  refine (inherited_parts_subset (partsOf es)).of_mem_partsOf es (fun e he q hq => ?_) p hp
  exact mem_partsOf_iff.mpr ⟨e, he, hq⟩

theorem keys_subset_of_mem {p e : Expr} (hp : p ∈ e.parts) : p.keys ⊆ e.keys :=
  (inherited_keys_subset (· ∈ e.keys)).of_mem_parts e (fun _ hk => hk) p hp

/-- What an expression passes on to all its parts, it passes on to those that stand directly in
it. -/
theorem Inherited.of_parts {M : Expr → Prop} (h : ∀ {e p}, M e → p ∈ e.parts → M p) :
    Inherited M where
  statement hM e he :=
    h hM ((inherited_parts_subset _).statement (List.Subset.refl _) e he e.self_mem_parts)
  value hM := h hM ((inherited_parts_subset _).value (List.Subset.refl _) (self_mem_parts _))
  callee hM := h hM ((inherited_parts_subset _).callee (List.Subset.refl _) (self_mem_parts _))
  argument hM e he :=
    h hM ((inherited_parts_subset _).argument (List.Subset.refl _) e he e.self_mem_parts)

end Expr

end SproutLang
