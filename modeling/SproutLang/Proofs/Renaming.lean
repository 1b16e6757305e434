import SproutLang.Proofs.Interference

/-!
Which keys names have does not matter, only which names have the same. Evaluation compares keys, to
find a binding or to replace one, and does nothing else with them. So to rename all keys, in the
expression and in the scope, with different keys for different keys, is to rename what comes of the
evaluation: the value or the failure and the scope that is left, with its order. The notices speak
of no keys and stay.

An evaluation is coupled here with the renamed one.
-/

namespace SproutLang

variable {σ : Type} {r : Key → Key}

/-! ### Renaming -/

mutual

/-- The value with its keys renamed; only functions have keys, and lists may hold functions. -/
def Value.rename (r : Key → Key) : Value → Value
  | .function params body => .function (params.map r) (Expr.renameAll r body)
  | .list items => .list (Value.renameAll r items)
  | v => v

def Value.renameAll (r : Key → Key) : List Value → List Value
  | [] => []
  | v :: vs => v.rename r :: Value.renameAll r vs

def Expr.rename (r : Key → Key) : Expr → Expr
  | .literal v => .literal (v.rename r)
  | .ref k => .ref (r k)
  | .define k value => .define (r k) (value.rename r)
  | .call callee args => .call (callee.rename r) (Expr.renameAll r args)
  | .stray v => .stray (v.rename r)

def Expr.renameAll (r : Key → Key) : List Expr → List Expr
  | [] => []
  | e :: es => e.rename r :: Expr.renameAll r es

end

def Scope.rename (r : Key → Key) (s : Scope) : Scope :=
  ⟨s.bindings.map fun b => (r b.1, b.2.rename r)⟩

def Failure.rename (r : Key → Key) : Failure → Failure
  | .unbound k => .unbound (r k)
  | .notCallable v => .notCallable (v.rename r)
  | .notAnExpression v => .notAnExpression (v.rename r)
  | f => f

def Outcome.rename (r : Key → Key) : Outcome Value → Outcome Value
  | .value v => .value (v.rename r)
  | .failed f => .failed (f.rename r)
  | .exhausted => .exhausted

/-- The end of an evaluation with its keys renamed; the world and the notices are left alone. -/
def Run.rename (r : Key → Key) (q : Run σ Value) : Run σ Value :=
  { q with outcome := q.outcome.rename r, scope := q.scope.rename r }

/-! ### Renamed scopes -/

namespace Scope

theorem find?_rename (hr : Function.Injective r) (s : Scope) (k : Key) :
    (s.rename r).find? (r k) = (s.find? k).map (Value.rename r) := by
  obtain ⟨bs⟩ := s
  simp only [rename, find?]
  induction bs with
  | nil => rfl
  | cons b bs ih =>
      simp only [List.map_cons, lookup_cons_eq_ite, ih, hr.eq_iff]
      split
      · rfl
      · rfl

theorem rename_insert (hr : Function.Injective r) (s : Scope) (k : Key) (v : Value) :
    (s.insert k v).rename r = (s.rename r).insert (r k) (v.rename r) := by
  obtain ⟨bs⟩ := s
  simp only [rename, insert, Scope.mk.injEq]
  induction bs with
  | nil => rfl
  | cons b bs ih =>
      simp only [List.map_cons, insertBinding, hr.eq_iff, ← ih]
      split
      · rfl
      · rfl

def StandardOnly (s : Scope) : Prop :=
  ∀ b ∈ s.bindings, (Expr.literal b.2).StandardOnly

theorem StandardOnly.insert {s : Scope} (h : s.StandardOnly) (k : Key) {v : Value}
    (hv : (Expr.literal v).StandardOnly) : (s.insert k v).StandardOnly :=
  forall_mem_insert (fun v => (Expr.literal v).StandardOnly) h hv

end Scope

/-! ### Two evaluations -/

theorem Expr.forall₂_renameAll {M : Expr → Prop} {es : List Expr} (h : ∀ e ∈ es, M e) :
    List.Forall₂ (fun e f => f = e.rename r ∧ M e) es (Expr.renameAll r es) := by
  induction es with
  | nil => exact .nil
  | cons e es ih =>
      rw [List.forall_mem_cons] at h
      exact .cons ⟨rfl, h.1⟩ (ih h.2)

def renameCoupling (hr : Function.Injective r) : Coupling where
  key k l := l = r k
  value v u := u = v.rename r ∧ (Expr.literal v).StandardOnly
  expr e f := f = e.rename r ∧ e.StandardOnly
  scope s t := t = s.rename r ∧ s.StandardOnly
  value_alike := by
    rintro v _ ⟨rfl, h⟩
    cases v with
    | function params body =>
        refine .function ?_ (Expr.forall₂_renameAll (Expr.inherited_standardOnly.statement h))
        exact List.forall₂_map_right_iff.mpr (List.forall₂_same.mpr fun _ _ => rfl)
    | native op name => exact .native (h op name List.mem_cons_self)
    | list items => exact .list
    | _ => exact .inert rfl
  expr_alike := by
    rintro e _ ⟨rfl, h⟩
    cases e with
    | literal v => exact .literal ⟨rfl, h⟩
    | ref k => exact .ref rfl
    | define k value => exact .define rfl ⟨rfl, Expr.inherited_standardOnly.value h⟩
    | call callee args =>
        refine .call ⟨rfl, Expr.inherited_standardOnly.callee h⟩ ?_
        exact Expr.forall₂_renameAll (Expr.inherited_standardOnly.argument h)
    | stray v => exact .stray
  void := ⟨rfl, Expr.standardOnly_literal_inert rfl⟩
  falsity := ⟨rfl, Expr.standardOnly_literal_inert rfl⟩
  int _ _ := ⟨rfl, Expr.standardOnly_literal_inert rfl⟩
  find? := by
    rintro s _ k _ ⟨rfl, h⟩ rfl
    rw [Scope.find?_rename hr]
    cases hfind : s.find? k with
    | none => exact .none
    | some v => exact .some ⟨rfl, h _ (Scope.mem_of_find? hfind)⟩
  insert := by
    rintro s _ k _ v _ ⟨rfl, h⟩ rfl ⟨rfl, hv⟩
    exact ⟨(Scope.rename_insert hr s k v).symm, h.insert k hv⟩

theorem renameCoupling_outcome_eq {hr : Function.Injective r} {o o' : Outcome Value}
    (h : (renameCoupling hr).Outcomes (renameCoupling hr).value o o') : o' = o.rename r := by
  cases h with
  | value hvalue => rw [hvalue.1, Outcome.rename]
  | exhausted => rfl
  | failed hfailure =>
      cases hfailure with
      | unbound hkey => rw [hkey]; rfl
      | notCallable hvalue => rw [hvalue.1]; rfl
      | notAnExpression hexpr => rw [Expr.stray.inj hexpr.1]; rfl
      | _ => rfl

/-- To evaluate a renamed expression in a renamed scope is to rename what comes of evaluating it:
the outcome and, in the same order, the bindings that are left. The notices are the same. -/
theorem evaluate_rename (host : Host σ) (depth : Nat) (hr : Function.Injective r) (e : Expr)
    (s : Scope) (w : σ) (he : e.StandardOnly) (hs : s.StandardOnly) :
    evaluate host depth (e.rename r) (s.rename r) w = (evaluate host depth e s w).rename r := by
  have hexpr : (renameCoupling hr).expr e (e.rename r) := ⟨rfl, he⟩
  have hscope : (renameCoupling hr).scope s (s.rename r) := ⟨rfl, hs⟩
  obtain ⟨houtcome, hleft, hworld, hlog⟩ := Coupling.actions_evaluate host depth hexpr hscope w
  generalize evaluate host depth (e.rename r) (s.rename r) w = q at *
  obtain ⟨o, t, w', log⟩ := q
  obtain rfl := renameCoupling_outcome_eq houtcome
  obtain rfl := hleft.1
  obtain rfl : _ = w' := hworld
  obtain rfl : _ = log := hlog
  rfl

/-- A function that binds its parameter and looks up a name that nobody has bound. -/
theorem evaluate_rename_succ :
    let r : Key → Key := fun k => ⟨k.number + 1⟩
    let f : Value := .function [⟨0⟩] [.define ⟨1⟩ (.ref ⟨0⟩), .ref ⟨2⟩]
    let e : Expr := .call (.ref ⟨1⟩) [.define ⟨0⟩ (.literal (.int 3))]
    let s : Scope := ⟨[(⟨1⟩, f), (⟨4⟩, .native .add "add")]⟩
    (Function.Injective r ∧ e.StandardOnly ∧ s.StandardOnly) ∧
      (evaluate Host.bare 3 (e.rename r) (s.rename r) ()).outcome = .failed (.unbound ⟨3⟩) ∧
      (evaluate Host.bare 3 (e.rename r) (s.rename r) ()).scope.keys = [⟨2⟩, ⟨5⟩, ⟨1⟩] := by
  intro r f e s
  have hr : Function.Injective r := by
    rintro ⟨m⟩ ⟨n⟩ h
    simpa [r] using h
  have he : e.StandardOnly := by
    simp [e, Expr.StandardOnly, Expr.parts, Expr.partsOf, Value.parts]
  have hs : s.StandardOnly := by
    simp [s, f, Scope.StandardOnly, Expr.StandardOnly, Expr.parts, Expr.partsOf, Value.parts,
      NativeOp.IsStandard]
  rw [evaluate_rename Host.bare 3 hr e s () he hs]
  exact ⟨⟨hr, he, hs⟩, rfl, rfl⟩

end SproutLang
