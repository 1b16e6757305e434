import Mathlib.Data.Set.Insert
import SproutLang.Proofs.Coupling
import SproutLang.Proofs.Isolation

/-!
Bindings that an evaluation cannot get to do not bear on it. A set of keys is closed for an
expression and a scope when it has the keys of the expression and, with a key that is bound to a
function, the keys of the function. Wherever functions are passed to and called from, an evaluation
then meets only keys of the set: in two scopes that agree on it, it takes the same course.

The two evaluations are coupled by equality of what is inside the set. That the set stays closed is
part of the coupling: a value is inside the set when the expression that denotes it is.
-/

namespace SproutLang

variable {σ : Type} {N : Set Key}

def Expr.StandardOnly (e : Expr) : Prop :=
  ∀ op name, .literal (.native op name) ∈ e.parts → op.IsStandard

theorem Expr.inherited_standardOnly : Expr.Inherited Expr.StandardOnly :=
  .of_parts fun h hp op name hmem => h op name (parts_subset_of_mem hp hmem)

theorem Expr.standardOnly_literal_inert {v : Value} (h : v.isCallable = false) :
    (Expr.literal v).StandardOnly := by
  cases v with
  | function params body => contradiction
  | native op name => contradiction
  | _ => simp [StandardOnly, Expr.parts, Value.parts]

/-- The set has the keys of the expression, and those of every function that the scope binds to one
of its keys. -/
structure ClosedFor (N : Set Key) (e : Expr) (s : Scope) : Prop where
  expr : ∀ k ∈ e.keys, k ∈ N
  function : ∀ k ∈ N, ∀ params body, s.find? k = some (.function params body) →
    (∀ l ∈ params, l ∈ N) ∧ ∀ l ∈ Expr.keysOf body, l ∈ N

/-- The natives that occur in the expression, or in what the scope binds to keys of the set, come
with the language. -/
structure StandardFor (N : Set Key) (e : Expr) (s : Scope) : Prop where
  expr : e.StandardOnly
  bound : ∀ k ∈ N, ∀ v, s.find? k = some v → (Expr.literal v).StandardOnly

/-! ### Inside a set of keys -/

def Expr.Inside (N : Set Key) (e : Expr) : Prop :=
  (∀ k ∈ e.keys, k ∈ N) ∧ e.StandardOnly

theorem Expr.inherited_inside : Expr.Inherited (Expr.Inside N) := by
  refine .of_parts fun h hp => ⟨fun k hk => ?_, fun op name hmem => ?_⟩
  · exact h.1 k (keys_subset_of_mem hp hk)
  · exact h.2 op name (parts_subset_of_mem hp hmem)

theorem Expr.inside_literal {v : Value} (hfunction : ∀ params body, v = .function params body →
      (∀ l ∈ params, l ∈ N) ∧ ∀ l ∈ Expr.keysOf body, l ∈ N)
    (hstandard : (Expr.literal v).StandardOnly) : (Expr.literal v).Inside N := by
  refine ⟨?_, hstandard⟩
  cases v with
  | function params body =>
      obtain ⟨hparams, hbody⟩ := hfunction params body rfl
      exact List.forall_mem_append.mpr ⟨hparams, hbody⟩
  | _ => simp [Expr.keys, Value.keys]

theorem Expr.inside_literal_inert {v : Value} (h : v.isCallable = false) :
    (Expr.literal v).Inside N := by
  refine inside_literal (fun params body hfunction => ?_) (standardOnly_literal_inert h)
  subst hfunction
  contradiction

def insideCoupling (N : Set Key) : Coupling where
  key k l := k = l ∧ k ∈ N
  value v u := v = u ∧ (Expr.literal v).Inside N
  expr e f := e = f ∧ e.Inside N
  scope s t := ∀ k ∈ N,
    s.find? k = t.find? k ∧ ∀ v, s.find? k = some v → (Expr.literal v).Inside N
  value_alike := by
    rintro v _ ⟨rfl, h⟩
    cases v with
    | function params body =>
        refine .function ?_ ?_ <;> refine List.forall₂_same.mpr fun x hx => ?_
        · exact ⟨rfl, h.1 x (List.mem_append_left _ hx)⟩
        · exact ⟨rfl, Expr.inherited_inside.statement h x hx⟩
    | native op name => exact .native (h.2 op name List.mem_cons_self)
    | _ => exact .inert rfl
  expr_alike := by
    rintro e _ ⟨rfl, h⟩
    have hkey {k : Key} {e : Expr} (h : e.Inside N) (hk : k ∈ e.keys) : k = k ∧ k ∈ N :=
      ⟨rfl, h.1 k hk⟩
    exact .self Expr.inherited_inside (fun h => ⟨rfl, h⟩) (fun h => hkey h List.mem_cons_self)
      (fun h => hkey h List.mem_cons_self) h
  void := ⟨rfl, Expr.inside_literal_inert rfl⟩
  falsity := ⟨rfl, Expr.inside_literal_inert rfl⟩
  int _ _ := ⟨rfl, Expr.inside_literal_inert rfl⟩
  find? := by
    rintro s t k _ hst ⟨rfl, hk⟩
    obtain ⟨hagree, hinside⟩ := hst k hk
    rw [← hagree]
    cases hfind : s.find? k with
    | none => exact .none
    | some v => exact .some ⟨rfl, hinside v hfind⟩
  insert := by
    rintro s t k _ v _ hst ⟨rfl, -⟩ ⟨rfl, hv⟩ l hl
    rw [Scope.find?_insert, Scope.find?_insert]
    split
    · exact ⟨rfl, fun u hu => Option.some.inj hu ▸ hv⟩
    · exact hst l hl

theorem insideCoupling_outcome_eq {o o' : Outcome Value}
    (h : (insideCoupling N).Outcomes (insideCoupling N).value o o') : o = o' := by
  cases h with
  | value hvalue => rw [hvalue.1]
  | exhausted => rfl
  | failed hfailure =>
      cases hfailure with
      | unbound hkey => rw [hkey.1]
      | notCallable hvalue => rw [hvalue.1]
      | notAnExpression hexpr => rw [Expr.stray.inj hexpr.1]
      | _ => rfl

/-! ### Two scopes -/

mutual

theorem Expr.targets_subset_keys (e : Expr) : e.targets ⊆ e.keys := by
  match e with
  | .literal _ | .ref _ | .stray _ => simp [Expr.targets]
  | .define k value =>
      rw [Expr.targets, Expr.keys]
      exact List.cons_subset_cons k value.targets_subset_keys
  | .call callee args =>
      rw [Expr.targets, Expr.keys]
      have hargs := Expr.targetsOf_subset_keysOf args
      exact List.append_subset.mpr ⟨List.subset_append_of_subset_left _ callee.targets_subset_keys,
        List.subset_append_of_subset_right _ hargs⟩

theorem Expr.targetsOf_subset_keysOf (es : List Expr) :
    Expr.targetsOf es ⊆ Expr.keysOf es := by
  match es with
  | [] => simp [Expr.targetsOf]
  | e :: es =>
      rw [Expr.targetsOf, Expr.keysOf]
      have hrest := Expr.targetsOf_subset_keysOf es
      exact List.append_subset.mpr ⟨List.subset_append_of_subset_left _ e.targets_subset_keys,
        List.subset_append_of_subset_right _ hrest⟩

end

/-- Keys outside the set have what they had, in the order that they had. -/
def Scope.SameOutside (N : Set Key) (s s' : Scope) : Prop :=
  (∀ k, k ∉ N → s'.find? k = s.find? k) ∧ ∃ new, s'.keys = s.keys ++ new ∧ ∀ k ∈ new, k ∈ N

theorem sameOutside_evaluate {e : Expr} (h : ∀ k ∈ e.keys, k ∈ N) (host : Host σ) (depth : Nat)
    (s : Scope) (w : σ) : s.SameOutside N (evaluate host depth e s w).scope := by
  have hchanged := confined_evaluate host depth e s w
  have htargets : ∀ k ∈ e.targets, k ∈ N := fun k hk => h k (e.targets_subset_keys hk)
  refine ⟨fun k hk => hchanged.lookup_eq fun hmem => hk (htargets k hmem), ?_⟩
  obtain ⟨new, hkeys, hnew⟩ := hchanged.exists_keys_eq
  exact ⟨new, hkeys, fun k hk => htargets k (hnew k hk)⟩

theorem ClosedFor.runs {e : Expr} {s t : Scope} (hclosed : ClosedFor N e s)
    (hstandard : StandardFor N e s) (hagree : ∀ k ∈ N, s.find? k = t.find? k) (host : Host σ)
    (depth : Nat) (w : σ) :
    (insideCoupling N).Runs (insideCoupling N).value (evaluate host depth e s w)
      (evaluate host depth e t w) := by
  have hexpr : (insideCoupling N).expr e e := ⟨rfl, hclosed.expr, hstandard.expr⟩
  refine Coupling.actions_evaluate host depth hexpr (fun k hk => ⟨hagree k hk, fun v hv => ?_⟩) w
  refine Expr.inside_literal (fun params body hfunction => ?_) (hstandard.bound k hk v hv)
  exact hclosed.function k hk params body (hfunction ▸ hv)

/-- Unrelated bindings do not interfere. In scopes that agree on a set of keys closed for the
expression, evaluation comes to the same outcome with the same notices; afterwards the scopes agree
on the set again, and outside of it each is what it was. So the order in which keys were bound does
not matter to the outcome. -/
theorem evaluate_eq_of_agree (host : Host σ) (depth : Nat) (N : Set Key) (e : Expr) (s : Scope)
    (w : σ) (hclosed : ClosedFor N e s) (hstandard : StandardFor N e s) :
    (∀ t : Scope, (∀ k ∈ N, s.find? k = t.find? k) →
      let r := evaluate host depth e s w
      let q := evaluate host depth e t w
      r.outcome = q.outcome ∧ r.log = q.log ∧ r.world = q.world ∧
        (∀ k ∈ N, r.scope.find? k = q.scope.find? k) ∧
        s.SameOutside N r.scope ∧ t.SameOutside N q.scope) ∧
    (∀ t : Scope, s.keys.Nodup → t.bindings.Perm s.bindings →
      let r := evaluate host depth e s w
      let q := evaluate host depth e t w
      r.outcome = q.outcome ∧ r.log = q.log ∧ ∀ k, r.scope.find? k = q.scope.find? k) := by
  have hruns {t : Scope} (hagree : ∀ k ∈ N, s.find? k = t.find? k) :=
    hclosed.runs hstandard hagree host depth w
  have hsame (u : Scope) := sameOutside_evaluate hclosed.expr host depth u w
  constructor
  · intro t hagree r q
    have hrun := hruns hagree
    refine ⟨insideCoupling_outcome_eq hrun.outcome, hrun.log, hrun.world, ?_, hsame s, hsame t⟩
    exact fun k hk => (hrun.scope k hk).1
  · intro t hnodup hperm r q
    have hfind (k : Key) : t.find? k = s.find? k := Scope.find?_of_perm hnodup hperm
    have hrun := hruns fun k _ => (hfind k).symm
    refine ⟨insideCoupling_outcome_eq hrun.outcome, hrun.log, fun k => ?_⟩
    by_cases hk : k ∈ N
    · exact (hrun.scope k hk).1
    · calc
        r.scope.find? k = s.find? k := (hsame s).1 k hk
        _ = t.find? k := (hfind k).symm
        _ = q.scope.find? k := ((hsame t).1 k hk).symm

/-- A function of one parameter, called by its name, with other bindings around it. -/
theorem evaluate_eq_of_agree_call :
    let f : Value := .function [⟨1⟩] [.define ⟨0⟩ (.ref ⟨1⟩), .ref ⟨0⟩]
    let e : Expr := .call (.ref ⟨0⟩) [.define ⟨1⟩ (.literal .falsity)]
    let s : Scope := ⟨[(⟨0⟩, f), (⟨2⟩, .void)]⟩
    let t : Scope := ⟨[(⟨3⟩, .int 3), (⟨2⟩, .falsity), (⟨0⟩, f)]⟩
    let N : Set Key := {⟨0⟩, ⟨1⟩}
    (ClosedFor N e s ∧ StandardFor N e s ∧ ∀ k ∈ N, s.find? k = t.find? k) ∧
      (evaluate Host.bare 3 e s ()).outcome = (evaluate Host.bare 3 e t ()).outcome ∧
      t.SameOutside N (evaluate Host.bare 3 e t ()).scope := by
  intro f e s t N
  have hfind : ∀ k ∈ N, s.find? k = t.find? k ∧ ∀ v, s.find? k = some v → v = f := by
    rintro k (rfl | rfl)
    · exact ⟨rfl, fun v hv => (Option.some.inj hv).symm⟩
    · exact ⟨rfl, fun v hv => by contradiction⟩
  have hclosed : ClosedFor N e s := by
    refine ⟨by simp [e, N, Expr.keys, Expr.keysOf, Value.keys], fun k hk params body hbody => ?_⟩
    obtain ⟨rfl, rfl⟩ := Value.function.inj ((hfind k hk).2 _ hbody)
    simp [N, Expr.keys, Expr.keysOf]
  have hstandard : StandardFor N e s := by
    refine ⟨?_, fun k hk v hv => ?_⟩
    · simp [e, Expr.StandardOnly, Expr.parts, Expr.partsOf, Value.parts]
    · rw [(hfind k hk).2 v hv]
      simp [f, Expr.StandardOnly, Expr.parts, Expr.partsOf, Value.parts]
  have hagree : ∀ k ∈ N, s.find? k = t.find? k := fun k hk => (hfind k hk).1
  obtain ⟨hmain, -⟩ := evaluate_eq_of_agree Host.bare 3 N e s () hclosed hstandard
  obtain ⟨houtcome, -, -, -, -, hsame⟩ := hmain t hagree
  exact ⟨⟨hclosed, hstandard, hagree⟩, houtcome, hsame⟩

end SproutLang
