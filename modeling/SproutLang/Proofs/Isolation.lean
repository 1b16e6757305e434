import SproutLang.Proofs.Action
import SproutLang.Proofs.Scope

/-!
Isolation of scopes. An evaluation may run any amount of code that is no part of the expression,
since functions are values; what it can bind in its own scope is all the same fixed by the
expression. `Expr.targets` lists the keys that are defined in it outside of function literals, and
every evaluation is confined to them, whether it comes to a value, fails or exhausts its budget.

A function runs in a copy of the scope that is dropped with it, so a call adds only what its callee
and its arguments define.
-/

namespace SproutLang

variable {σ α β : Type}

mutual

/-- The keys that an expression defines outside of function literals. -/
def Expr.targets : Expr → List Key
  | .literal _ => []
  | .ref _ => []
  | .define k value => k :: value.targets
  | .call callee args => callee.targets ++ Expr.targetsOf args
  | .stray _ => []

def Expr.targetsOf : List Expr → List Key
  | [] => []
  | e :: es => e.targets ++ Expr.targetsOf es

end

theorem Expr.targetsOf_take_subset (es : List Expr) (n : Nat) :
    Expr.targetsOf (es.take n) ⊆ Expr.targetsOf es := by
  induction es generalizing n with
  | nil => simp
  | cons e es ih =>
      cases n with
      | zero => simp [Expr.targetsOf]
      | succ n =>
          rw [List.take_succ_cons, Expr.targetsOf, Expr.targetsOf]
          exact List.append_subset.mpr
            ⟨List.subset_append_left _ _, List.subset_append_of_subset_right _ (ih n)⟩

namespace Action

/-! ### Confined actions -/

/-- Whatever the action comes to, it leaves the scope unchanged but for the keys in `ks`. -/
def Confined (ks : List Key) (x : Action σ α) : Prop :=
  ∀ s w, Scope.Changed ks s.bindings (x s w).scope.bindings

def KeepsScope (x : Action σ α) : Prop :=
  ∀ s w, (x s w).scope = s

variable {ks ls : List Key} {x : Action σ α} {f : α → Action σ β}

theorem KeepsScope.confined (h : x.KeepsScope) (ks : List Key) : x.Confined ks := by
  intro s w
  rw [h s w]
  exact .refl ks _

theorem Confined.mono (h : x.Confined ks) (hsub : ks ⊆ ls) : x.Confined ls :=
  fun s w => (h s w).mono hsub

theorem scope_bind (x : Action σ α) (f : α → Action σ β) (s : Scope) (w : σ) :
    ((x >>= f) s w).scope = (x s w).scope ∨
      ∃ a, ((x >>= f) s w).scope = (f a (x s w).scope (x s w).world).scope := by
  simp only [bind, andThen]
  cases (x s w).outcome with
  | value a => exact .inr ⟨a, rfl⟩
  | failed f => exact .inl rfl
  | exhausted => exact .inl rfl

theorem Confined.bind (hx : x.Confined ks) (hf : ∀ a, (f a).Confined ks) :
    (x >>= f).Confined ks := by
  intro s w
  rcases scope_bind x f s w with h | ⟨a, h⟩
  · rw [h]
    exact hx s w
  · rw [h]
    exact (hx s w).trans (hf a _ _)

theorem Confined.relabel (hx : x.Confined ks) (g : Failure → Failure) :
    (x.relabel g).Confined ks := by
  intro s w
  have hscope : (x.relabel g s w).scope = (x s w).scope := by
    rw [Action.relabel]
    cases (x s w).outcome <;> rfl
  rw [hscope]
  exact hx s w

theorem scope_bind_of_keepsScope (hf : ∀ a, (f a).KeepsScope) (s : Scope) (w : σ) :
    ((x >>= f) s w).scope = (x s w).scope := by
  rcases scope_bind x f s w with h | ⟨a, h⟩
  · exact h
  · rw [h, hf a]

theorem keepsScope_pure (a : α) : (pure a : Action σ α).KeepsScope :=
  fun _ _ => rfl

theorem keepsScope_lookUp (k : Key) : (lookUp k : Action σ Value).KeepsScope := by
  intro s w
  rw [lookUp]
  split <;> rfl

theorem confined_bindKey {k : Key} (hk : k ∈ ks) (v : Value) :
    (bindKey k v : Action σ Unit).Confined ks :=
  fun s _ => .insertBinding hk v s.bindings

end Action

theorem Native.call_eq (host : Host σ) (op : NativeOp) (vs : List Value) (s : Scope) (w : σ) :
    call host op vs s w =
      ⟨.ofExcept (reply host op vs w).outcome, s, (reply host op vs w).world,
        (reply host op vs w).log⟩ :=
  gives_call_iff.mpr ⟨rfl, rfl, rfl, rfl⟩

/-! ### Confined evaluation -/

section Evaluate

variable {host : Host σ} {ev : Expr → Action σ Value}

theorem confined_evaluateArgs (hev : ∀ e, (ev e).Confined e.targets) (es : List Expr) :
    (evaluateArgs ev es).Confined (Expr.targetsOf es) := by
  induction es with
  | nil => exact (Action.keepsScope_pure _).confined _
  | cons e es ih =>
      refine ((hev e).mono (List.subset_append_left _ _)).bind fun v => ?_
      refine (ih.mono (List.subset_append_right _ _)).bind fun vs => ?_
      exact (Action.keepsScope_pure _).confined _

/-- A call of a function leaves the scope that its arguments leave, whatever its body does. -/
theorem scope_applyFunction (params : List Key) (body args : List Expr) (s : Scope) (w : σ) :
    (applyFunction ev params body args s w).scope =
      (evaluateArgs ev (args.take params.length) s w).scope := by
  rw [applyFunction_eq]
  exact Action.scope_bind_of_keepsScope (x := evaluateArgs ev (args.take params.length))
    (fun _ _ _ => rfl) s w

theorem confined_apply (hev : ∀ e, (ev e).Confined e.targets) (head : Value) (args : List Expr) :
    (apply host ev head args).Confined (Expr.targetsOf args) := by
  cases head with
  | function params body =>
      have hargs := confined_evaluateArgs hev (args.take params.length)
      intro s w
      rw [apply, scope_applyFunction]
      exact (hargs s w).mono (Expr.targetsOf_take_subset args params.length)
  | native op name =>
      refine ((confined_evaluateArgs hev args).relabel _).bind fun vs => ?_
      refine Action.KeepsScope.confined (fun s w => ?_) _
      rw [Native.call_eq]
  | _ => exact Action.KeepsScope.confined (fun _ _ => rfl) _

theorem confined_step (hev : ∀ e, (ev e).Confined e.targets) (e : Expr) :
    (step host ev e).Confined e.targets := by
  cases e with
  | literal v => exact (Action.keepsScope_pure v).confined _
  | ref k => exact (Action.keepsScope_lookUp k).confined _
  | define k value =>
      refine ((hev value).mono (List.subset_cons_self _ _)).bind fun v => ?_
      refine (Action.confined_bindKey List.mem_cons_self v).bind fun _ => ?_
      exact (Action.keepsScope_pure _).confined _
  | call callee args =>
      refine ((hev callee).mono (List.subset_append_left _ _)).bind fun head => ?_
      exact (confined_apply hev head args).mono (List.subset_append_right _ _)
  | stray v => exact Action.KeepsScope.confined (fun _ _ => rfl) _

theorem confined_evaluate (host : Host σ) (depth : Nat) (e : Expr) :
    (evaluate host depth e).Confined e.targets := by
  induction depth generalizing e with
  | zero => exact Action.KeepsScope.confined (fun _ _ => rfl) _
  | succ depth ih => exact confined_step ih e

/-- Evaluation is isolated. However it ends, it changes no binding of a key that the expression does
not define outside of function literals, binds no other key anew, and keeps the bound keys in their
order; if the expression defines nothing there, the scope is what it was. No call lets the body of
a function bind anything in the scope of the caller, and a native does the same in every scope. -/
theorem evaluate_isolates_scope (host : Host σ) (depth : Nat) (e : Expr) (s : Scope) (w : σ) :
    let s' := (evaluate host depth e s w).scope
    (∀ k v, s.find? k = some v → k ∉ e.targets → s'.find? k = some v) ∧
    (∀ k, k ∈ s'.keys → k ∉ s.keys → k ∈ e.targets) ∧
    (∀ k, k ∈ s.keys → k ∈ s'.keys) ∧
    s.keys <+: s'.keys ∧
    (e.targets = [] → s' = s) ∧
    (∀ params body args,
      (apply host (evaluate host depth) (.function params body) args s w).scope =
        (evaluateArgs (evaluate host depth) (args.take params.length) s w).scope) ∧
    (∀ op vs, ∃ reply : HostReply σ, ∀ t, Native.call host op vs t w =
      ⟨.ofExcept reply.outcome, t, reply.world, reply.log⟩) := by
  intro s'
  have hchanged : Scope.Changed e.targets s.bindings s'.bindings :=
    confined_evaluate host depth e s w
  obtain ⟨new, hkeys, hnew⟩ := hchanged.exists_keys_eq
  have hprefix : s.keys <+: s'.keys := ⟨new, hkeys.symm⟩
  refine ⟨?_, ?_, fun k hk => hprefix.subset hk, hprefix, ?_, ?_, ?_⟩
  · intro k v hfind hk
    rw [← hfind]
    exact hchanged.lookup_eq hk
  · intro k hk hks
    have hk' : k ∈ s.keys ++ new := hkeys ▸ hk
    exact hnew k ((List.mem_append.mp hk').resolve_left hks)
  · intro htargets
    rw [htargets] at hchanged
    exact congrArg Scope.mk hchanged.eq_of_nil
  · intro params body args
    exact scope_applyFunction params body args s w
  · intro op vs
    exact ⟨Native.reply host op vs w, fun t => Native.call_eq host op vs t w⟩

-- The body of the function rebinds both keys of its copy; the scope has what the argument defines.
example :
    (evaluate Host.bare 3 (.call (.literal (.function [⟨0⟩] [.define ⟨1⟩ (.literal .void)]))
      [.define ⟨0⟩ (.literal (.int 5))]) ⟨[(⟨1⟩, .falsity)]⟩ ()).scope =
      ⟨[(⟨1⟩, .falsity), (⟨0⟩, .int 5)]⟩ := rfl

end Evaluate

end SproutLang
