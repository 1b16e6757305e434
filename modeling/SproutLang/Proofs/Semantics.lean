import SproutLang.Proofs.Action

/-!
The meaning of expressions by rules. `Evaluates host e s w r s' w' log` says that `e`, evaluated in
the scope `s` and the world `w`, comes to the value or failure `r`, leaves the scope `s'` and the
world `w'`, and writes `log`; `EvaluatesAll` says the same of a row of expressions, evaluated from
left to right. The rules know no budget: an evaluation without end has no derivation.

The evaluator with a budget agrees with the rules. An answer that some budget suffices for has a
derivation, and what is derived is the answer of every budget that is large enough. So there is at
most one derivable answer, and there is none exactly when every budget is exhausted.
-/

namespace SproutLang

variable {σ : Type} {host : Host σ}

mutual

inductive Evaluates (host : Host σ) : Expr → Scope → σ → Except Failure Value → Scope → σ →
    List Notice → Prop
  | literal {v : Value} {s : Scope} {w : σ} : Evaluates host (.literal v) s w (.ok v) s w []
  | ref {k : Key} {v : Value} {s : Scope} {w : σ} :
      s.find? k = some v → Evaluates host (.ref k) s w (.ok v) s w []
  | unbound {k : Key} {s : Scope} {w : σ} :
      s.find? k = none → Evaluates host (.ref k) s w (.error (.unbound k)) s w []
  /-- The key is bound after its value has been found, in the scope that this has left. -/
  | define {k : Key} {value : Expr} {v : Value} {s s' : Scope} {w w' : σ} {log : List Notice} :
      Evaluates host value s w (.ok v) s' w' log →
      Evaluates host (.define k value) s w (.ok .void) (s'.insert k v) w' log
  | defineFails {k : Key} {value : Expr} {f : Failure} {s s' : Scope} {w w' : σ}
      {log : List Notice} :
      Evaluates host value s w (.error f) s' w' log →
      Evaluates host (.define k value) s w (.error f) s' w' log
  | calleeFails {callee : Expr} {args : List Expr} {f : Failure} {s s' : Scope} {w w' : σ}
      {log : List Notice} :
      Evaluates host callee s w (.error f) s' w' log →
      Evaluates host (.call callee args) s w (.error f) s' w' log
  /-- What cannot be called fails before any argument is looked at. -/
  | notCallable {callee : Expr} {args : List Expr} {head : Value} {s s' : Scope} {w w' : σ}
      {log : List Notice} :
      Evaluates host callee s w (.ok head) s' w' log → head.isCallable = false →
      Evaluates host (.call callee args) s w (.error (.notCallable head)) s' w' log
  /-- The body runs in a copy of the scope that the callee has left, with the parameters bound; the
  arguments are evaluated in the scope itself, no more of them than there are parameters. -/
  | function {callee : Expr} {args : List Expr} {params : List Key} {body : List Expr}
      {vs : List Value} {r : Except Failure (List Value)} {s s₁ s₂ inner : Scope} {w w₁ w₂ w₃ : σ}
      {log₁ log₂ log₃ : List Notice} :
      Evaluates host callee s w (.ok (.function params body)) s₁ w₁ log₁ →
      EvaluatesAll host (args.take params.length) s₁ w₁ (.ok vs) s₂ w₂ log₂ →
      EvaluatesAll host body (s₁.insertAll (params.zip vs)) w₂ r inner w₃ log₃ →
      Evaluates host (.call callee args) s w (r.map (·.getLastD .void)) s₂ w₃
        (log₁ ++ (arityNotices params.length args.length ++ (log₂ ++ log₃)))
  | functionArgFails {callee : Expr} {args : List Expr} {params : List Key} {body : List Expr}
      {f : Failure} {s s₁ s₂ : Scope} {w w₁ w₂ : σ} {log₁ log₂ : List Notice} :
      Evaluates host callee s w (.ok (.function params body)) s₁ w₁ log₁ →
      EvaluatesAll host (args.take params.length) s₁ w₁ (.error f) s₂ w₂ log₂ →
      Evaluates host (.call callee args) s w (.error f) s₂ w₂
        (log₁ ++ (arityNotices params.length args.length ++ log₂))
  /-- A native is called with the values of all arguments. -/
  | native {callee : Expr} {args : List Expr} {op : NativeOp} {name : String} {vs : List Value}
      {s s₁ s₂ : Scope} {w w₁ w₂ : σ} {log₁ log₂ : List Notice} :
      Evaluates host callee s w (.ok (.native op name)) s₁ w₁ log₁ →
      EvaluatesAll host args s₁ w₁ (.ok vs) s₂ w₂ log₂ →
      Evaluates host (.call callee args) s w (Native.reply host op vs w₂).outcome s₂
        (Native.reply host op vs w₂).world (log₁ ++ (log₂ ++ (Native.reply host op vs w₂).log))
  /-- The sign that ends an iteration does not pass from an argument of a native as it is. -/
  | nativeArgFails {callee : Expr} {args : List Expr} {op : NativeOp} {name : String} {f : Failure}
      {s s₁ s₂ : Scope} {w w₁ w₂ : σ} {log₁ log₂ : List Notice} :
      Evaluates host callee s w (.ok (.native op name)) s₁ w₁ log₁ →
      EvaluatesAll host args s₁ w₁ (.error f) s₂ w₂ log₂ →
      Evaluates host (.call callee args) s w (.error f.fromArguments) s₂ w₂ (log₁ ++ log₂)
  | stray {v : Value} {s : Scope} {w : σ} :
      Evaluates host (.stray v) s w (.error (.notAnExpression v)) s w []

/-- A row of expressions; the first failure ends it. -/
inductive EvaluatesAll (host : Host σ) : List Expr → Scope → σ → Except Failure (List Value) →
    Scope → σ → List Notice → Prop
  | nil {s : Scope} {w : σ} : EvaluatesAll host [] s w (.ok []) s w []
  | cons {e : Expr} {es : List Expr} {v : Value} {r : Except Failure (List Value)}
      {s s₁ s₂ : Scope} {w w₁ w₂ : σ} {log₁ log₂ : List Notice} :
      Evaluates host e s w (.ok v) s₁ w₁ log₁ → EvaluatesAll host es s₁ w₁ r s₂ w₂ log₂ →
      EvaluatesAll host (e :: es) s w (r.map (v :: ·)) s₂ w₂ (log₁ ++ log₂)
  | stop {e : Expr} {es : List Expr} {f : Failure} {s s' : Scope} {w w' : σ} {log : List Notice} :
      Evaluates host e s w (.error f) s' w' log →
      EvaluatesAll host (e :: es) s w (.error f) s' w' log

end

/-! ### Answers have derivations -/

/-- Whatever `ev` gives follows from the rules. -/
def Sound (host : Host σ) (ev : Expr → Action σ Value) : Prop :=
  ∀ ⦃e : Expr⦄ ⦃s : Scope⦄ ⦃w : σ⦄ ⦃r : Except Failure Value⦄ ⦃s' : Scope⦄ ⦃w' : σ⦄
    ⦃log : List Notice⦄, (ev e).Gives s w r s' w' log → Evaluates host e s w r s' w' log

section Sound

variable {ev : Expr → Action σ Value} {s s' : Scope} {w w' : σ} {log : List Notice}

theorem Sound.evaluateArgs (hev : Sound host ev) {es : List Expr} {r : Except Failure (List Value)}
    (h : (evaluateArgs ev es).Gives s w r s' w' log) : EvaluatesAll host es s w r s' w' log := by
  induction es generalizing s w r log with
  | nil =>
      obtain ⟨rfl, rfl, rfl, rfl⟩ := gives_evaluateArgs_nil_iff.mp h
      exact .nil
  | cons e es ih =>
      rcases gives_evaluateArgs_cons_iff.mp h with
        ⟨v, s₁, w₁, log₁, log₂, r', he, hes, rfl, rfl⟩ | ⟨f, rfl, he⟩
      · exact .cons (hev he) (ih hes)
      · exact .stop (hev he)

theorem Sound.call (hev : Sound host ev) {callee : Expr} {args : List Expr}
    {r : Except Failure Value} (h : (step host ev (.call callee args)).Gives s w r s' w' log) :
    Evaluates host (.call callee args) s w r s' w' log := by
  rcases Action.gives_bind_iff.mp h with
    ⟨head, s₁, w₁, log₁, log₂, hhead, happly, rfl⟩ | ⟨f, rfl, hhead⟩
  · have hcallee := hev hhead
    cases head with
    | function params body =>
        rcases gives_applyFunction_iff.mp happly with
          ⟨vs, w₂, log₂, r', inner, log₃, hargs, hbody, rfl, rfl⟩ | ⟨f, log₂, rfl, hargs, rfl⟩
        · exact .function hcallee (hev.evaluateArgs hargs) (hev.evaluateArgs hbody)
        · exact .functionArgFails hcallee (hev.evaluateArgs hargs)
    | native op name =>
        rcases Action.gives_bind_iff.mp happly with
          ⟨vs, s₂, w₂, log₂, log₃, hargs, hnative, rfl⟩ | ⟨f, rfl, hargs⟩
        · obtain ⟨rfl, rfl, rfl, rfl⟩ := Native.gives_call_iff.mp hnative
          exact .native hcallee (hev.evaluateArgs (Action.gives_of_relabel_ok hargs))
        · obtain ⟨f', rfl, hrow⟩ := Action.gives_of_relabel_error hargs
          exact .nativeArgFails hcallee (hev.evaluateArgs hrow)
    | _ =>
        obtain ⟨rfl, rfl, rfl, rfl⟩ := Action.gives_fail_iff.mp happly
        rw [List.append_nil]
        exact .notCallable hcallee rfl
  · exact .calleeFails (hev hhead)

theorem Sound.step (hev : Sound host ev) : Sound host (step host ev) := by
  intro e s w r s' w' log h
  cases e with
  | literal v =>
      obtain ⟨rfl, rfl, rfl, rfl⟩ := Action.gives_pure_iff.mp h
      exact .literal
  | ref k =>
      cases hfind : s.find? k with
      | some v =>
          obtain ⟨rfl, rfl, rfl, rfl⟩ := h.unique (Action.gives_lookUp_of_some hfind)
          exact .ref hfind
      | none =>
          obtain ⟨rfl, rfl, rfl, rfl⟩ := h.unique (Action.gives_lookUp_of_none hfind)
          exact .unbound hfind
  | define k value =>
      rcases Action.gives_bind_iff.mp h with
        ⟨v, s₁, w₁, log₁, log₂, hvalue, hbind, rfl⟩ | ⟨f, rfl, hvalue⟩
      · have hdone : (Action.bindKey k v >>= fun _ => pure Value.void : Action σ Value).Gives s₁ w₁
            (.ok .void) (s₁.insert k v) w₁ [] := rfl
        obtain ⟨rfl, rfl, rfl, rfl⟩ := hbind.unique hdone
        rw [List.append_nil]
        exact .define (hev hvalue)
      · exact .defineFails (hev hvalue)
  | call callee args => exact hev.call h
  | stray v =>
      obtain ⟨rfl, rfl, rfl, rfl⟩ := Action.gives_fail_iff.mp h
      exact .stray

theorem sound_evaluate (host : Host σ) (depth : Nat) : Sound host (evaluate host depth) := by
  induction depth with
  | zero =>
      intro e s w r s' w' log h
      exact absurd h Action.not_gives_exhaust
  | succ depth ih => exact ih.step

end Sound

/-! ### What is derived is answered -/

theorem exists_depth_call {callee : Expr} {args : List Expr} {head : Value}
    {r : Except Failure Value} {s s₁ s' : Scope} {w w₁ w' : σ} {log₁ log₂ : List Notice}
    {d₁ : Nat} (d₂ : Nat)
    (hcallee : (evaluate host d₁ callee).Gives s w (.ok head) s₁ w₁ log₁)
    (happly : (apply host (evaluate host d₂) head args).Gives s₁ w₁ r s' w' log₂) :
    ∃ depth, (evaluate host depth (.call callee args)).Gives s w r s' w' (log₁ ++ log₂) := by
  have hcallee' := evaluate_extends host (Nat.le_max_left d₁ d₂) callee hcallee
  have happly' :=
    apply_extends host (evaluate_extends host (Nat.le_max_right d₁ d₂)) head args happly
  refine ⟨max d₁ d₂ + 1, ?_⟩
  exact Action.gives_bind_iff.mpr (.inl ⟨head, s₁, w₁, log₁, log₂, hcallee', happly', rfl⟩)

theorem gives_apply_of_not_callable {head : Value} {args : List Expr} {s : Scope} {w : σ}
    (h : head.isCallable = false) :
    (apply host (evaluate host 0) head args).Gives s w (.error (.notCallable head)) s w [] := by
  cases head with
  | function params body => contradiction
  | native op name => contradiction
  | _ => rfl

mutual

-- By recursion on the derivation. The budgets of the parts are brought to their maximum, and one
-- more is for the expression itself.
theorem exists_depth_of_evaluates {e : Expr} {s s' : Scope} {w w' : σ}
    {r : Except Failure Value} {log : List Notice}
    (h : Evaluates host e s w r s' w' log) :
    ∃ depth, (evaluate host depth e).Gives s w r s' w' log := by
  match h with
  | .literal => exact ⟨1, rfl⟩
  | .ref hfind => exact ⟨1, Action.gives_lookUp_of_some hfind⟩
  | .unbound hfind => exact ⟨1, Action.gives_lookUp_of_none hfind⟩
  | .define hvalue =>
      obtain ⟨d, hd⟩ := exists_depth_of_evaluates hvalue
      refine ⟨d + 1, Action.gives_bind_iff.mpr (.inl ⟨_, _, _, _, [], hd, rfl, ?_⟩)⟩
      rw [List.append_nil]
  | .defineFails hvalue =>
      obtain ⟨d, hd⟩ := exists_depth_of_evaluates hvalue
      exact ⟨d + 1, Action.bind_of_gives_error hd _⟩
  | .calleeFails hcallee =>
      obtain ⟨d, hd⟩ := exists_depth_of_evaluates hcallee
      exact ⟨d + 1, Action.bind_of_gives_error hd _⟩
  | .notCallable hcallee hhead =>
      obtain ⟨d, hd⟩ := exists_depth_of_evaluates hcallee
      rw [← List.append_nil log]
      exact exists_depth_call 0 hd (gives_apply_of_not_callable hhead)
  | .function hcallee hargs hbody =>
      obtain ⟨d₁, h₁⟩ := exists_depth_of_evaluates hcallee
      obtain ⟨d₂, h₂⟩ := exists_depth_of_evaluatesAll hargs
      obtain ⟨d₃, h₃⟩ := exists_depth_of_evaluatesAll hbody
      have hargs' := evaluateArgs_extends (evaluate_extends host (Nat.le_max_left d₂ d₃)) _ h₂
      have hbody' := evaluateArgs_extends (evaluate_extends host (Nat.le_max_right d₂ d₃)) _ h₃
      refine exists_depth_call (max d₂ d₃) h₁ (gives_applyFunction_iff.mpr (.inl ?_))
      exact ⟨_, _, _, _, _, _, hargs', hbody', rfl, rfl⟩
  | .functionArgFails hcallee hargs =>
      obtain ⟨d₁, h₁⟩ := exists_depth_of_evaluates hcallee
      obtain ⟨d₂, h₂⟩ := exists_depth_of_evaluatesAll hargs
      refine exists_depth_call d₂ h₁ (gives_applyFunction_iff.mpr (.inr ?_))
      exact ⟨_, _, rfl, h₂, rfl⟩
  | .native hcallee hargs =>
      obtain ⟨d₁, h₁⟩ := exists_depth_of_evaluates hcallee
      obtain ⟨d₂, h₂⟩ := exists_depth_of_evaluatesAll hargs
      refine exists_depth_call d₂ h₁ (Action.gives_bind_iff.mpr (.inl ?_))
      exact ⟨_, _, _, _, _, h₂.relabel _, Native.gives_call_iff.mpr ⟨rfl, rfl, rfl, rfl⟩, rfl⟩
  | .nativeArgFails hcallee hargs =>
      obtain ⟨d₁, h₁⟩ := exists_depth_of_evaluates hcallee
      obtain ⟨d₂, h₂⟩ := exists_depth_of_evaluatesAll hargs
      exact exists_depth_call d₂ h₁ (Action.bind_of_gives_error (h₂.relabel _) _)
  | .stray => exact ⟨1, rfl⟩

theorem exists_depth_of_evaluatesAll {es : List Expr} {s s' : Scope} {w w' : σ}
    {r : Except Failure (List Value)} {log : List Notice}
    (h : EvaluatesAll host es s w r s' w' log) :
    ∃ depth, (evaluateArgs (evaluate host depth) es).Gives s w r s' w' log := by
  match h with
  | .nil => exact ⟨0, rfl⟩
  | .cons he hes =>
      obtain ⟨d₁, h₁⟩ := exists_depth_of_evaluates he
      obtain ⟨d₂, h₂⟩ := exists_depth_of_evaluatesAll hes
      have he' := evaluate_extends host (Nat.le_max_left d₁ d₂) _ h₁
      have hes' := evaluateArgs_extends (evaluate_extends host (Nat.le_max_right d₁ d₂)) _ h₂
      refine ⟨max d₁ d₂, gives_evaluateArgs_cons_iff.mpr (.inl ?_)⟩
      exact ⟨_, _, _, _, _, _, he', hes', rfl, rfl⟩
  | .stop he =>
      obtain ⟨d, hd⟩ := exists_depth_of_evaluates he
      exact ⟨d, gives_evaluateArgs_cons_iff.mpr (.inr ⟨_, rfl, hd⟩)⟩

end

/-! ### The evaluator and the rules -/

theorem evaluates_iff_exists_depth {e : Expr} {s s' : Scope} {w w' : σ} {r : Except Failure Value}
    {log : List Notice} :
    Evaluates host e s w r s' w' log ↔
      ∃ depth, (evaluate host depth e).Gives s w r s' w' log := by
  constructor
  · exact exists_depth_of_evaluates
  · rintro ⟨depth, h⟩
    exact sound_evaluate host depth h

/-- The evaluator implements the rules. What the rules derive is the answer with every budget that
is large enough; an answer with any budget is derived; no two answers are derived; and nothing is
derived exactly when the budget is exhausted however large it is. -/
theorem evaluate_implements_rules (host : Host σ) (e : Expr) (s : Scope) (w : σ) :
    (∀ r s' w' log, Evaluates host e s w r s' w' log ↔
      ∃ enough, ∀ depth, enough ≤ depth →
        evaluate host depth e s w = ⟨.ofExcept r, s', w', log⟩) ∧
    (∀ depth, (evaluate host depth e s w).outcome ≠ .exhausted →
      ∃ r s' w' log, evaluate host depth e s w = ⟨.ofExcept r, s', w', log⟩ ∧
        Evaluates host e s w r s' w' log) ∧
    (∀ r₁ s₁ w₁ log₁ r₂ s₂ w₂ log₂, Evaluates host e s w r₁ s₁ w₁ log₁ →
      Evaluates host e s w r₂ s₂ w₂ log₂ → r₁ = r₂ ∧ s₁ = s₂ ∧ w₁ = w₂ ∧ log₁ = log₂) ∧
    ((¬ ∃ r s' w' log, Evaluates host e s w r s' w' log) ↔
      ∀ depth, (evaluate host depth e s w).outcome = .exhausted) := by
  have hanswer : ∀ depth, (evaluate host depth e s w).outcome ≠ .exhausted →
      ∃ r s' w' log, evaluate host depth e s w = ⟨.ofExcept r, s', w', log⟩ ∧
        Evaluates host e s w r s' w' log := by
    intro depth hne
    obtain ⟨r, hr⟩ := Action.exists_gives hne
    exact ⟨r, _, _, _, hr, sound_evaluate host depth hr⟩
  refine ⟨fun r s' w' log => ?_, hanswer, ?_, ?_⟩
  · rw [evaluates_iff_exists_depth]
    constructor
    · rintro ⟨enough, h⟩
      exact ⟨enough, fun depth hle => evaluate_extends host hle e h⟩
    · rintro ⟨enough, h⟩
      exact ⟨enough, h enough (Nat.le_refl enough)⟩
  · intro r₁ s₁ w₁ log₁ r₂ s₂ w₂ log₂ h₁ h₂
    obtain ⟨d₁, hd₁⟩ := exists_depth_of_evaluates h₁
    obtain ⟨d₂, hd₂⟩ := exists_depth_of_evaluates h₂
    -- Both answers stand with the larger of the two budgets.
    have hmax₁ := evaluate_extends host (Nat.le_max_left d₁ d₂) e hd₁
    have hmax₂ := evaluate_extends host (Nat.le_max_right d₁ d₂) e hd₂
    exact hmax₁.unique hmax₂
  · constructor
    · intro hnone depth
      refine Classical.byContradiction fun hne => ?_
      obtain ⟨r, s', w', log, -, h⟩ := hanswer depth hne
      exact hnone ⟨r, s', w', log, h⟩
    · rintro hall ⟨r, s', w', log, h⟩
      obtain ⟨depth, hd⟩ := exists_depth_of_evaluates h
      exact hd.outcome_ne (hall depth)

-- Of a parameter named twice the last value counts, and the third argument is never evaluated.
example :
    evaluate Host.bare 2 (.call (.literal (.function [⟨0⟩, ⟨0⟩] [.ref ⟨0⟩]))
      [.literal (.int 1), .literal (.int 2), .ref ⟨1⟩]) .empty () =
      ⟨.value (.int 2), .empty, (), [.warning (.arity 2 3)]⟩ := rfl

end SproutLang
