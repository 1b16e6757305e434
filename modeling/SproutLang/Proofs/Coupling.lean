import Mathlib.Data.List.Forall2
import SproutLang.Proofs.Action
import SproutLang.Proofs.Parts
import SproutLang.Proofs.Sums

/-!
Two evaluations side by side. A `Coupling` says which keys, values, expressions and scopes of one
evaluation stand for which of the other, and that the ways in which the evaluator takes these apart
and puts them together respect this. Then coupled expressions, evaluated in coupled scopes, come to
coupled outcomes: both to a value, both to a failure, or both to the end of the budget.

Evaluation looks only at the outermost form of a value or an expression, and at keys only to find
or to bind them, so little is asked of a coupling. An invariant of evaluation is the special case of
an evaluation that is coupled with itself.
-/

namespace SproutLang

variable {σ α β γ δ : Type}

def NativeOp.IsStandard : NativeOp → Prop
  | .host _ => False
  | _ => True

/-- Two values that look the same from outside: functions with related keys and statements, one and
the same native of the language, lists, or one and the same value that cannot be called. -/
inductive Value.Alike (key : Key → Key → Prop) (expr : Expr → Expr → Prop) : Value → Value → Prop
  | function {ps qs : List Key} {body body' : List Expr} :
      List.Forall₂ key ps qs → List.Forall₂ expr body body' →
      Alike key expr (.function ps body) (.function qs body')
  | native {op : NativeOp} {name : String} :
      op.IsStandard → Alike key expr (.native op name) (.native op name)
  | list {vs us : List Value} : Alike key expr (.list vs) (.list us)
  | inert {v : Value} : v.isCallable = false → Alike key expr v v

inductive Expr.Alike (key : Key → Key → Prop) (value : Value → Value → Prop)
    (expr : Expr → Expr → Prop) : Expr → Expr → Prop
  | literal {v u : Value} : value v u → Alike key value expr (.literal v) (.literal u)
  | ref {k l : Key} : key k l → Alike key value expr (.ref k) (.ref l)
  | define {k l : Key} {e f : Expr} :
      key k l → expr e f → Alike key value expr (.define k e) (.define l f)
  | call {e f : Expr} {es fs : List Expr} :
      expr e f → List.Forall₂ expr es fs → Alike key value expr (.call e es) (.call f fs)
  | stray {v u : Value} : Alike key value expr (.stray v) (.stray u)

/-- An expression with an inherited property looks like itself, part by part. -/
theorem Expr.Alike.self {key : Key → Key → Prop} {value : Value → Value → Prop}
    {M : Expr → Prop} (hM : Expr.Inherited M) (hliteral : ∀ {v}, M (.literal v) → value v v)
    (href : ∀ {k}, M (.ref k) → key k k) (hdefine : ∀ {k e}, M (.define k e) → key k k)
    {e : Expr} (h : M e) : Expr.Alike key value (fun e f => e = f ∧ M e) e e := by
  cases e with
  | literal v => exact .literal (hliteral h)
  | ref k => exact .ref (href h)
  | define k value => exact .define (hdefine h) ⟨rfl, hM.value h⟩
  | call callee args =>
      refine .call ⟨rfl, hM.callee h⟩ (List.forall₂_same.mpr fun e he => ?_)
      exact ⟨rfl, hM.argument h e he⟩
  | stray v => exact .stray

/-- What stands for what in two evaluations. -/
structure Coupling where
  key : Key → Key → Prop
  value : Value → Value → Prop
  expr : Expr → Expr → Prop
  scope : Scope → Scope → Prop
  value_alike : ∀ {v u}, value v u → Value.Alike key expr v u
  expr_alike : ∀ {e f}, expr e f → Expr.Alike key value expr e f
  -- The values that the language itself makes.
  void : value .void .void
  falsity : value .falsity .falsity
  int : ∀ {n}, 0 ≤ n → n < Native.wordBound → value (.int n) (.int n)
  find? : ∀ {s t k l}, scope s t → key k l → Option.Rel value (s.find? k) (t.find? l)
  insert : ∀ {s t k l v u}, scope s t → key k l → value v u →
    scope (s.insert k v) (t.insert l u)

namespace Coupling

variable (C : Coupling)

inductive Failures : Failure → Failure → Prop
  | unbound {k l : Key} : C.key k l → Failures (.unbound k) (.unbound l)
  | notCallable {v u : Value} : C.value v u → Failures (.notCallable v) (.notCallable u)
  | noCondition : Failures .noCondition .noCondition
  | noBranch : Failures .noBranch .noBranch
  | tooManyBranches : Failures .tooManyBranches .tooManyBranches
  | notAnExpression {v u : Value} :
      C.expr (.stray v) (.stray u) → Failures (.notAnExpression v) (.notAnExpression u)

inductive Outcomes (R : α → β → Prop) : Outcome α → Outcome β → Prop
  | value {a : α} {b : β} : R a b → Outcomes R (.value a) (.value b)
  | failed {f g : Failure} : C.Failures f g → Outcomes R (.failed f) (.failed g)
  | exhausted : Outcomes R .exhausted .exhausted

structure Runs (R : α → β → Prop) (r : Run σ α) (q : Run σ β) : Prop where
  outcome : C.Outcomes R r.outcome q.outcome
  scope : C.scope r.scope q.scope
  world : r.world = q.world
  log : r.log = q.log

/-- Two actions that correspond: done in coupled scopes they end alike. -/
def Actions (R : α → β → Prop) (x : Action σ α) (y : Action σ β) : Prop :=
  ∀ ⦃s t : Scope⦄, C.scope s t → ∀ w, C.Runs R (x s w) (y t w)

variable {C} {R : α → β → Prop} {Q : γ → δ → Prop}

/-! ### Actions -/

theorem Actions.bind {x : Action σ α} {y : Action σ β} {f : α → Action σ γ} {g : β → Action σ δ}
    (hxy : C.Actions R x y) (hfg : ∀ a b, R a b → C.Actions Q (f a) (g b)) :
    C.Actions Q (x >>= f) (y >>= g) := by
  intro s t hst w
  obtain ⟨houtcome, hscope, hworld, hlog⟩ := hxy hst w
  simp only [Bind.bind, Action.andThen]
  generalize x s w = r at *
  generalize y t w = q at *
  obtain ⟨o, s₁, w₁, log₁⟩ := r
  obtain ⟨o', t₁, w₁', log₁'⟩ := q
  obtain rfl : w₁ = w₁' := hworld
  obtain rfl : log₁ = log₁' := hlog
  cases houtcome with
  | value hab =>
      obtain ⟨houtcome', hscope', hworld', hlog'⟩ := hfg _ _ hab hscope w₁
      exact ⟨houtcome', hscope', hworld', by simp only [hlog']⟩
  | failed hfail => exact ⟨.failed hfail, hscope, rfl, rfl⟩
  | exhausted => exact ⟨.exhausted, hscope, rfl, rfl⟩

theorem Actions.pure {a : α} {b : β} (h : R a b) :
    C.Actions R (Pure.pure a : Action σ α) (Pure.pure b) :=
  fun _ _ hst _ => ⟨.value h, hst, rfl, rfl⟩

-- The failures of the language itself stay what they are, and no others are coupled.
theorem Failures.fromArguments {f g : Failure} (h : C.Failures f g) :
    C.Failures f.fromArguments g.fromArguments := by
  cases h with
  | unbound hkey => exact .unbound hkey
  | notCallable hvalue => exact .notCallable hvalue
  | noCondition => exact .noCondition
  | noBranch => exact .noBranch
  | tooManyBranches => exact .tooManyBranches
  | notAnExpression hexpr => exact .notAnExpression hexpr

theorem Actions.relabel {x : Action σ α} {y : Action σ β} (hxy : C.Actions R x y) :
    C.Actions R (x.relabel .fromArguments) (y.relabel .fromArguments) := by
  intro s t hst w
  obtain ⟨houtcome, hscope, hworld, hlog⟩ := hxy hst w
  simp only [Action.relabel]
  generalize x s w = r at *
  generalize y t w = q at *
  obtain ⟨o, s₁, w₁, log₁⟩ := r
  obtain ⟨o', t₁, w₁', log₁'⟩ := q
  cases houtcome with
  | value hab => exact ⟨.value hab, hscope, hworld, hlog⟩
  | failed hfail => exact ⟨.failed hfail.fromArguments, hscope, hworld, hlog⟩
  | exhausted => exact ⟨.exhausted, hscope, hworld, hlog⟩

theorem Actions.fail {f g : Failure} (h : C.Failures f g) :
    C.Actions R (Action.fail f : Action σ α) (Action.fail g) :=
  fun _ _ hst _ => ⟨.failed h, hst, rfl, rfl⟩

theorem Actions.exhaust : C.Actions R (Action.exhaust : Action σ α) Action.exhaust :=
  fun _ _ hst _ => ⟨.exhausted, hst, rfl, rfl⟩

theorem Actions.write (notices : List Notice) :
    C.Actions Eq (Action.write notices : Action σ Unit) (Action.write notices) :=
  fun _ _ hst _ => ⟨.value rfl, hst, rfl, rfl⟩

theorem Actions.getScope : C.Actions C.scope (Action.getScope : Action σ Scope) Action.getScope :=
  fun _ _ hst _ => ⟨.value hst, hst, rfl, rfl⟩

theorem Actions.bindKey {k l : Key} {v u : Value} (hkey : C.key k l) (hvalue : C.value v u) :
    C.Actions Eq (Action.bindKey k v : Action σ Unit) (Action.bindKey l u) :=
  fun _ _ hst _ => ⟨.value rfl, C.insert hst hkey hvalue, rfl, rfl⟩

theorem Actions.lookUp {k l : Key} (hkey : C.key k l) :
    C.Actions C.value (Action.lookUp k : Action σ Value) (Action.lookUp l) := by
  intro s t hst w
  have hfind := C.find? hst hkey
  simp only [Action.lookUp]
  generalize s.find? k = v? at *
  generalize t.find? l = u? at *
  cases hfind with
  | some hvalue => exact ⟨.value hvalue, hst, rfl, rfl⟩
  | none => exact ⟨.failed (.unbound hkey), hst, rfl, rfl⟩

theorem Actions.inScope {i j : Scope} {x : Action σ α} {y : Action σ β} (hij : C.scope i j)
    (hxy : C.Actions R x y) : C.Actions R (Action.inScope i x) (Action.inScope j y) := by
  intro s t hst w
  obtain ⟨houtcome, -, hworld, hlog⟩ := hxy hij w
  exact ⟨houtcome, hst, hworld, hlog⟩

/-! ### Natives -/

section Native

variable {vs us : List Value}

theorem equals_eq {v u v' u' : Value} (h : C.value v u) (h' : C.value v' u') :
    v.equals v' = u.equals u' := by
  have hv := C.value_alike h
  have hv' := C.value_alike h'
  cases hv with
  | function => rfl
  | native => rfl
  | list => rfl
  | inert hinert =>
      cases hv' with
      | inert => rfl
      | _ => cases v <;> rfl

theorem addFrom_eq (h : List.Forall₂ C.value vs us) (total : Int) :
    Native.addFrom total vs = Native.addFrom total us := by
  induction h generalizing total with
  | nil => rfl
  | @cons v u vs us hvalue _ ih =>
      have halike := C.value_alike hvalue
      cases halike with
      | function => simp only [Native.addFrom, ih]
      | native => simp only [Native.addFrom, ih]
      | list => simp only [Native.addFrom, ih]
      | inert => cases v <;> simp only [Native.addFrom, ih]

theorem value_add (h : List.Forall₂ C.value vs us) :
    C.value (.int (Native.add vs).1) (.int (Native.add us).1) := by
  rw [Native.add, addFrom_eq h]
  obtain ⟨hlow, hhigh⟩ := Native.add_bounds us
  exact C.int hlow hhigh

theorem value_eq (h : List.Forall₂ C.value vs us) : C.value (Native.eq vs) (Native.eq us) := by
  cases h with
  | nil => exact C.void
  | @cons v u vs us hhead hrest =>
      have hall : vs.all (fun w => w.equals v) = us.all fun w => w.equals u := by
        induction hrest with
        | nil => rfl
        | cons hvalue _ ih => rw [List.all_cons, List.all_cons, equals_eq hvalue hhead, ih]
      rw [Native.eq, Native.eq, hall]
      split
      · exact C.void
      · exact C.falsity

/-- A choice looks only at whether its condition is `falsity`, which coupled values agree on. -/
theorem outcomes_choose (h : List.Forall₂ C.value vs us) :
    C.Outcomes C.value (.ofExcept (Native.choose vs)) (.ofExcept (Native.choose us)) := by
  match vs, us, h with
  | [], [], _ => exact .failed .noCondition
  | [v], [u], _ => exact .failed .noBranch
  | [v, _], [u, _], .cons hcond (.cons hbranch .nil) =>
      have halike := C.value_alike hcond
      cases halike with
      | inert =>
          cases v with
          | falsity => exact .value C.void
          | _ => exact .value hbranch
      | _ => exact .value hbranch
  | [v, _, _], [u, _, _], .cons hcond (.cons hbranch (.cons hother .nil)) =>
      have halike := C.value_alike hcond
      cases halike with
      | inert =>
          cases v with
          | falsity => exact .value hother
          | _ => exact .value hbranch
      | _ => exact .value hbranch
  | v :: _ :: _ :: _ :: _, u :: _ :: _ :: _ :: _, _ =>
      have hmany (c : Value) (a b d : Value) (rest : List Value) :
          Native.choose (c :: a :: b :: d :: rest) = .error .tooManyBranches := by
        cases c <;> rfl
      rw [hmany, hmany]
      exact .failed .tooManyBranches

theorem actions_call (host : Host σ) {op : NativeOp} (hop : op.IsStandard)
    (h : List.Forall₂ C.value vs us) :
    C.Actions C.value (Native.call host op vs) (Native.call host op us) := by
  intro s t hst w
  cases op with
  | add =>
      have hlog : (Native.add vs).2 = (Native.add us).2 := by
        rw [Native.add, Native.add, addFrom_eq h]
      exact ⟨.value (value_add h), hst, rfl, congrArg (List.map Notice.warning) hlog⟩
  | eq => exact ⟨.value (value_eq h), hst, rfl, rfl⟩
  | choose =>
      have houtcome := outcomes_choose h
      simp only [Native.call]
      generalize Native.choose vs = r at *
      generalize Native.choose us = q at *
      cases r <;> cases q <;> exact ⟨houtcome, hst, rfl, rfl⟩
  | host tag => exact hop.elim

end Native

/-! ### Evaluation -/

section Evaluate

variable {host : Host σ} {ev ev' : Expr → Action σ Value}

theorem actions_evaluateArgs (hev : ∀ e f, C.expr e f → C.Actions C.value (ev e) (ev' f))
    {es fs : List Expr} (h : List.Forall₂ C.expr es fs) :
    C.Actions (List.Forall₂ C.value) (evaluateArgs ev es) (evaluateArgs ev' fs) := by
  induction h with
  | nil => exact .pure .nil
  | cons hexpr _ ih =>
      refine (hev _ _ hexpr).bind fun v u hvalue => ih.bind fun vs us hvalues => ?_
      exact .pure (.cons hvalue hvalues)

theorem scope_insertAll {ps qs : List Key} {vs us : List Value} {s t : Scope} (hst : C.scope s t)
    (hkeys : List.Forall₂ C.key ps qs) (hvalues : List.Forall₂ C.value vs us) :
    C.scope (s.insertAll (ps.zip vs)) (t.insertAll (qs.zip us)) := by
  induction hkeys generalizing s t vs us with
  | nil => exact hst
  | cons hkey _ ih =>
      cases hvalues with
      | nil => exact hst
      | cons hvalue hvalues => exact ih (C.insert hst hkey hvalue) hvalues

theorem value_getLastD {vs us : List Value} (h : List.Forall₂ C.value vs us) {v u : Value}
    (hlast : C.value v u) : C.value (vs.getLastD v) (us.getLastD u) := by
  induction h generalizing v u with
  | nil => exact hlast
  | cons hvalue _ ih =>
      rw [List.getLastD_cons, List.getLastD_cons]
      exact ih hvalue

theorem actions_applyFunction (hev : ∀ e f, C.expr e f → C.Actions C.value (ev e) (ev' f))
    {ps qs : List Key} {body body' args args' : List Expr} (hkeys : List.Forall₂ C.key ps qs)
    (hbody : List.Forall₂ C.expr body body') (hargs : List.Forall₂ C.expr args args') :
    C.Actions C.value (applyFunction ev ps body args) (applyFunction ev' qs body' args') := by
  rw [applyFunction_eq, applyFunction_eq, hkeys.length_eq, hargs.length_eq]
  refine Actions.getScope.bind fun s t hst => (Actions.write _).bind fun _ _ _ => ?_
  have htaken := actions_evaluateArgs hev (List.forall₂_take qs.length hargs)
  refine htaken.bind fun vs us hvalues => Actions.inScope (scope_insertAll hst hkeys hvalues) ?_
  refine (actions_evaluateArgs hev hbody).bind fun ws us hlast => ?_
  exact .pure (value_getLastD hlast C.void)

theorem actions_apply (hev : ∀ e f, C.expr e f → C.Actions C.value (ev e) (ev' f))
    {head head' : Value} {args args' : List Expr} (hhead : C.value head head')
    (hargs : List.Forall₂ C.expr args args') :
    C.Actions C.value (apply host ev head args) (apply host ev' head' args') := by
  have halike := C.value_alike hhead
  cases halike with
  | function hkeys hbody => exact actions_applyFunction hev hkeys hbody hargs
  | native hop =>
      have hrow := (actions_evaluateArgs hev hargs).relabel
      exact hrow.bind fun vs us hvalues => actions_call host hop hvalues
  | list => exact .fail (.notCallable hhead)
  | inert hinert =>
      cases head with
      | function => contradiction
      | native => contradiction
      | _ => exact .fail (.notCallable hhead)

theorem actions_step (hev : ∀ e f, C.expr e f → C.Actions C.value (ev e) (ev' f)) {e f : Expr}
    (h : C.expr e f) : C.Actions C.value (step host ev e) (step host ev' f) := by
  have halike := C.expr_alike h
  cases halike with
  | literal hvalue => exact .pure hvalue
  | ref hkey => exact .lookUp hkey
  | define hkey hexpr =>
      refine (hev _ _ hexpr).bind fun v u hvalue => ?_
      refine (Actions.bindKey hkey hvalue).bind fun _ _ _ => ?_
      exact .pure C.void
  | call hcallee hargs =>
      exact (hev _ _ hcallee).bind fun head head' hhead => actions_apply hev hhead hargs
  | stray => exact .fail (.notAnExpression h)

/-- Coupled expressions evaluate alike, with any budget. -/
theorem actions_evaluate (host : Host σ) (depth : Nat) {e f : Expr} (h : C.expr e f) :
    C.Actions C.value (evaluate host depth e) (evaluate host depth f) := by
  induction depth generalizing e f with
  | zero => exact .exhaust
  | succ depth ih => exact actions_step (fun _ _ => ih) h

structure AllRuns (C : Coupling) (r q : Series σ) : Prop where
  values : List.Forall₂ C.value r.values q.values
  ending : C.Outcomes Eq r.ending q.ending
  scope : C.scope r.scope q.scope
  world : r.world = q.world
  log : r.log = q.log

theorem allRuns_evaluateAll (host : Host σ) (depth : Nat) {es fs : List Expr}
    (h : List.Forall₂ C.expr es fs) {s t : Scope} (hst : C.scope s t) (w : σ) :
    C.AllRuns (evaluateAll host depth es s w) (evaluateAll host depth fs t w) := by
  induction h generalizing s t w with
  | nil => exact ⟨.nil, .value rfl, hst, rfl, rfl⟩
  | @cons e f es fs hexpr _ ih =>
      obtain ⟨houtcome, hscope, hworld, hlog⟩ := actions_evaluate host depth hexpr hst w
      simp only [evaluateAll]
      generalize evaluate host depth e s w = r at *
      generalize evaluate host depth f t w = q at *
      obtain ⟨o, s₁, w₁, log₁⟩ := r
      obtain ⟨o', t₁, w₁', log₁'⟩ := q
      obtain rfl : w₁ = w₁' := hworld
      obtain rfl : log₁ = log₁' := hlog
      cases houtcome with
      | value hvalue =>
          have hrest := ih hscope w₁
          exact ⟨.cons hvalue hrest.values, hrest.ending, hrest.scope, hrest.world,
            by simp only [hrest.log]⟩
      | failed hfail => exact ⟨.nil, .failed hfail, hscope, rfl, rfl⟩
      | exhausted => exact ⟨.nil, .exhausted, hscope, rfl, rfl⟩

end Evaluate

end Coupling

end SproutLang
