import SproutLang.Evaluate

/-!
Actions that come to an answer. `x.Gives s w r s' w' log` says that the action `x`, done in the
scope `s` and the world `w`, comes to the value or failure `r`, leaves `s'` and `w'`, and writes
`log`; an action that exhausts its budget gives nothing. For each way to build an action one lemma
says what it gives, so that proofs about evaluation need not look into an action.

A call binds its arguments and runs a body. Both are the evaluation of a row of expressions,
followed by something that has no effects; what holds of rows holds of them.
-/

namespace SproutLang

variable {σ α β : Type}

def Outcome.ofExcept : Except Failure α → Outcome α
  | .ok a => .value a
  | .error f => .failed f

theorem Outcome.ofExcept_inj {r r' : Except Failure α} (h : ofExcept r = ofExcept r') : r = r' := by
  cases r <;> cases r' <;> simp_all [ofExcept]

namespace Action

/-! ### Laws -/

theorem ret_andThen (a : α) (f : α → Action σ β) : (ret a).andThen f = f a := rfl

theorem andThen_ret (x : Action σ α) : x.andThen ret = x := by
  funext s w
  simp only [andThen]
  rcases x s w with ⟨_ | _ | _, s', w', log⟩ <;> simp [ret]

theorem andThen_assoc {γ : Type} (x : Action σ α) (f : α → Action σ β) (g : β → Action σ γ) :
    (x.andThen f).andThen g = x.andThen fun a => (f a).andThen g := by
  funext s w
  simp only [andThen]
  rcases x s w with ⟨a | _ | _, s₁, w₁, log₁⟩
  · simp only
    rcases f a s₁ w₁ with ⟨_ | _ | _, s₂, w₂, log₂⟩ <;> simp
  · rfl
  · rfl

instance : LawfulMonad (Action σ) :=
  LawfulMonad.mk' _ andThen_ret ret_andThen andThen_assoc

def write (notices : List Notice) : Action σ Unit :=
  fun s w => ⟨.value (), s, w, notices⟩

/-! ### What an action gives -/

/-- Done in `s` and `w`, the action comes to `r`, leaves `s'` and `w'`, and writes `log`. -/
def Gives (x : Action σ α) (s : Scope) (w : σ) (r : Except Failure α) (s' : Scope) (w' : σ)
    (log : List Notice) : Prop :=
  x s w = ⟨.ofExcept r, s', w', log⟩

section Gives

variable {x : Action σ α} {s s' s'' : Scope} {w w' w'' : σ} {r r' : Except Failure α}
  {log log' : List Notice}

theorem Gives.unique (h : x.Gives s w r s' w' log) (h' : x.Gives s w r' s'' w'' log') :
    r = r' ∧ s' = s'' ∧ w' = w'' ∧ log = log' := by
  obtain ⟨hr, hs, hw, hlog⟩ := Run.mk.inj (h.symm.trans h')
  exact ⟨Outcome.ofExcept_inj hr, hs, hw, hlog⟩

theorem exists_gives (h : (x s w).outcome ≠ .exhausted) :
    ∃ r, x.Gives s w r (x s w).scope (x s w).world (x s w).log := by
  simp only [Gives]
  rcases hrun : x s w with ⟨a | f | _, s', w', log⟩
  · exact ⟨.ok a, rfl⟩
  · exact ⟨.error f, rfl⟩
  · rw [hrun] at h
    contradiction

theorem Gives.outcome_ne (h : x.Gives s w r s' w' log) : (x s w).outcome ≠ .exhausted := by
  rw [h]
  cases r <;> simp [Outcome.ofExcept]

theorem gives_iff_of_eq (h : x s w = ⟨.ofExcept r, s', w', log⟩) {r' : Except Failure α} :
    x.Gives s w r' s'' w'' log' ↔ r' = r ∧ s'' = s' ∧ w'' = w' ∧ log' = log := by
  constructor
  · intro h'
    exact Gives.unique h' h
  · rintro ⟨rfl, rfl, rfl, rfl⟩
    exact h

theorem gives_pure_iff {a : α} :
    (pure a : Action σ α).Gives s w r s' w' log ↔ r = .ok a ∧ s' = s ∧ w' = w ∧ log = [] :=
  gives_iff_of_eq rfl

theorem gives_fail_iff {f : Failure} :
    (fail f : Action σ α).Gives s w r s' w' log ↔ r = .error f ∧ s' = s ∧ w' = w ∧ log = [] :=
  gives_iff_of_eq rfl

theorem not_gives_exhaust : ¬ (exhaust : Action σ α).Gives s w r s' w' log := by
  intro h
  exact h.outcome_ne rfl

theorem gives_lookUp_of_some {k : Key} {v : Value} (h : s.find? k = some v) :
    (lookUp k).Gives s w (.ok v) s w [] := by
  rw [Gives, lookUp, h]
  rfl

theorem gives_lookUp_of_none {k : Key} (h : s.find? k = none) :
    (lookUp k).Gives s w (.error (.unbound k)) s w [] := by
  rw [Gives, lookUp, h]
  rfl

theorem bind_of_gives_ok {a : α} (h : x.Gives s w (.ok a) s' w' log) (f : α → Action σ β) :
    (x >>= f) s w = { f a s' w' with log := log ++ (f a s' w').log } := by
  simp only [bind, andThen]
  rw [h]
  rfl

theorem bind_of_gives_error {e : Failure} (h : x.Gives s w (.error e) s' w' log)
    (f : α → Action σ β) : (x >>= f).Gives s w (.error e) s' w' log := by
  simp only [Gives, bind, andThen]
  rw [h]
  rfl

/-- One action after another gives what the second gives after the first, or what the first gives
if that is a failure. -/
theorem gives_bind_iff {f : α → Action σ β} {q : Except Failure β} :
    (x >>= f).Gives s w q s' w' log ↔
      (∃ a s₁ w₁ log₁ log₂, x.Gives s w (.ok a) s₁ w₁ log₁ ∧ (f a).Gives s₁ w₁ q s' w' log₂ ∧
        log = log₁ ++ log₂) ∨
      ∃ e, q = .error e ∧ x.Gives s w (.error e) s' w' log := by
  constructor
  · intro h
    -- Had the first exhausted its budget, so would both have.
    have hne : (x s w).outcome ≠ .exhausted := by
      intro hx
      refine h.outcome_ne ?_
      simp only [bind, andThen, hx]
    obtain ⟨r, hr⟩ := exists_gives hne
    cases r with
    | ok a =>
        rw [Gives, bind_of_gives_ok hr] at h
        obtain ⟨houtcome, hscope, hworld, hlog⟩ := Run.mk.inj h
        refine .inl ⟨a, _, _, _, _, hr, ?_, hlog.symm⟩
        rw [Gives, ← houtcome, ← hscope, ← hworld]
    | error e =>
        obtain ⟨rfl, rfl, rfl, rfl⟩ := h.unique (bind_of_gives_error hr f)
        exact .inr ⟨e, rfl, hr⟩
  · rintro (⟨a, s₁, w₁, log₁, log₂, hx, hf, rfl⟩ | ⟨e, rfl, hx⟩)
    · rw [Gives, bind_of_gives_ok hx, hf]
    · exact bind_of_gives_error hx f

theorem gives_map_iff {g : α → β} {q : Except Failure β} :
    (x >>= fun a => pure (g a)).Gives s w q s' w' log ↔
      ∃ r, q = r.map g ∧ x.Gives s w r s' w' log := by
  rw [gives_bind_iff]
  constructor
  · rintro (⟨a, s₁, w₁, log₁, log₂, hx, hg, rfl⟩ | ⟨e, rfl, hx⟩)
    · obtain ⟨rfl, rfl, rfl, rfl⟩ := gives_pure_iff.mp hg
      rw [List.append_nil]
      exact ⟨.ok a, rfl, hx⟩
    · exact ⟨.error e, rfl, hx⟩
  · rintro ⟨r, rfl, hx⟩
    cases r with
    | ok a => exact .inl ⟨a, _, _, _, _, hx, gives_pure_iff.mpr ⟨rfl, rfl, rfl, rfl⟩, by simp⟩
    | error e => exact .inr ⟨e, rfl, hx⟩

theorem Gives.relabel (h : x.Gives s w r s' w' log) (g : Failure → Failure) :
    (x.relabel g).Gives s w (r.mapError g) s' w' log := by
  rw [Gives, Action.relabel, h]
  cases r <;> rfl

theorem gives_relabel_iff {g : Failure → Failure} :
    (x.relabel g).Gives s w r s' w' log ↔ ∃ q, r = q.mapError g ∧ x.Gives s w q s' w' log := by
  constructor
  · intro h
    have hne : (x s w).outcome ≠ .exhausted := by
      intro hx
      refine h.outcome_ne ?_
      simp only [relabel, hx]
    obtain ⟨q, hq⟩ := exists_gives hne
    obtain ⟨rfl, rfl, rfl, rfl⟩ := h.unique (hq.relabel g)
    exact ⟨q, rfl, hq⟩
  · rintro ⟨q, rfl, hq⟩
    exact hq.relabel g

theorem gives_of_relabel_ok {g : Failure → Failure} {a : α}
    (h : (x.relabel g).Gives s w (.ok a) s' w' log) : x.Gives s w (.ok a) s' w' log := by
  obtain ⟨q, hq, hx⟩ := gives_relabel_iff.mp h
  cases q with
  | ok b =>
      rw [Except.ok.inj hq]
      exact hx
  | error f => contradiction

theorem gives_of_relabel_error {g : Failure → Failure} {f : Failure}
    (h : (x.relabel g).Gives s w (.error f) s' w' log) :
    ∃ f', f = g f' ∧ x.Gives s w (.error f') s' w' log := by
  obtain ⟨q, hq, hx⟩ := gives_relabel_iff.mp h
  cases q with
  | ok b => contradiction
  | error f' => exact ⟨f', Except.error.inj hq, hx⟩

theorem gives_inScope_iff {inner : Scope} :
    (inScope inner x).Gives s w r s' w' log ↔ s' = s ∧ ∃ s₁, x.Gives inner w r s₁ w' log := by
  constructor
  · intro h
    obtain ⟨houtcome, hscope, hworld, hlog⟩ := Run.mk.inj h
    refine ⟨hscope.symm, (x inner w).scope, ?_⟩
    rw [Gives, ← houtcome, ← hworld, ← hlog]
  · rintro ⟨rfl, s₁, hx⟩
    rw [Gives, inScope, hx]

theorem gives_getScope_iff {f : Scope → Action σ α} :
    (getScope >>= f).Gives s w r s' w' log ↔ (f s).Gives s w r s' w' log :=
  Iff.rfl

theorem gives_write_iff {notices : List Notice} {f : Unit → Action σ α} :
    (write notices >>= f).Gives s w r s' w' log ↔
      ∃ log', log = notices ++ log' ∧ (f ()).Gives s w r s' w' log' := by
  have hwrite : (write notices : Action σ Unit).Gives s w (.ok ()) s w notices := rfl
  rw [Gives, bind_of_gives_ok hwrite]
  constructor
  · intro h
    obtain ⟨houtcome, hscope, hworld, hlog⟩ := Run.mk.inj h
    refine ⟨_, hlog.symm, ?_⟩
    rw [Gives, ← houtcome, ← hscope, ← hworld]
  · rintro ⟨log', rfl, hf⟩
    rw [hf]

end Gives

end Action

/-! ### Rows of expressions -/

section Rows

variable {ev : Expr → Action σ Value}

theorem bindArgs_eq (params : List Key) (args : List Expr) (inner : Scope) :
    bindArgs ev params args inner = evaluateArgs ev (args.take params.length) >>= fun vs =>
      pure (inner.insertAll (params.zip vs)) := by
  induction params generalizing args inner with
  | nil => cases args <;> simp [bindArgs, evaluateArgs, Scope.insertAll]
  | cons p ps ih =>
      cases args with
      | nil => simp [bindArgs, evaluateArgs, Scope.insertAll]
      | cons arg args => simp [bindArgs, evaluateArgs, ih, Scope.insertAll]

theorem runBody_eq (body : List Expr) (last : Value) :
    runBody ev body last = evaluateArgs ev body >>= fun vs => pure (vs.getLastD last) := by
  induction body generalizing last with
  | nil => simp [runBody, evaluateArgs]
  | cons stmt body ih =>
      simp only [runBody, evaluateArgs, ih, bind_assoc, pure_bind, List.getLastD_cons]

section Gives

variable {s s' : Scope} {w w' : σ} {log : List Notice}

theorem gives_evaluateArgs_nil_iff {r : Except Failure (List Value)} :
    (evaluateArgs ev []).Gives s w r s' w' log ↔ r = .ok [] ∧ s' = s ∧ w' = w ∧ log = [] :=
  Action.gives_pure_iff

theorem gives_evaluateArgs_cons_iff {e : Expr} {es : List Expr} {r : Except Failure (List Value)} :
    (evaluateArgs ev (e :: es)).Gives s w r s' w' log ↔
      (∃ v s₁ w₁ log₁ log₂ r', (ev e).Gives s w (.ok v) s₁ w₁ log₁ ∧
        (evaluateArgs ev es).Gives s₁ w₁ r' s' w' log₂ ∧ r = r'.map (v :: ·) ∧
        log = log₁ ++ log₂) ∨
      ∃ f, r = .error f ∧ (ev e).Gives s w (.error f) s' w' log := by
  rw [evaluateArgs, Action.gives_bind_iff]
  refine or_congr ?_ Iff.rfl
  simp only [Action.gives_map_iff]
  grind

def arityNotices (expected got : Nat) : List Notice :=
  if expected = got then [] else [.warning (.arity expected got)]

/-- A call of a function in terms of rows: the scope is copied, the notices are written, and only
then the arguments are evaluated. -/
theorem applyFunction_eq (params : List Key) (body args : List Expr) :
    applyFunction ev params body args = (do
      let scope ← Action.getScope
      Action.write (arityNotices params.length args.length)
      let vs ← evaluateArgs ev (args.take params.length)
      Action.inScope (scope.insertAll (params.zip vs))
        (evaluateArgs ev body >>= fun us => pure (us.getLastD .void))) := by
  simp only [applyFunction, bindArgs_eq, runBody_eq, bind_assoc, pure_bind]
  congr 1
  funext scope
  by_cases hcount : params.length = args.length
  · simp only [arityNotices, hcount, ne_eq, not_true_eq_false, if_false, if_true]
    rfl
  · simp only [arityNotices, hcount, ne_eq, not_false_eq_true, if_false, if_true]
    rfl

/-- What a call of a function gives: the failure of an argument, or else what the body gives in the
copy of the scope. The scope that is left is the one that the arguments leave. -/
theorem gives_applyFunction_iff {params : List Key} {body args : List Expr}
    {r : Except Failure Value} :
    (applyFunction ev params body args).Gives s w r s' w' log ↔
      (∃ vs w₁ log₁ r' inner log₂,
        (evaluateArgs ev (args.take params.length)).Gives s w (.ok vs) s' w₁ log₁ ∧
        (evaluateArgs ev body).Gives (s.insertAll (params.zip vs)) w₁ r' inner w' log₂ ∧
        r = r'.map (·.getLastD .void) ∧
        log = arityNotices params.length args.length ++ (log₁ ++ log₂)) ∨
      ∃ f log₁, r = .error f ∧
        (evaluateArgs ev (args.take params.length)).Gives s w (.error f) s' w' log₁ ∧
        log = arityNotices params.length args.length ++ log₁ := by
  rw [applyFunction_eq, Action.gives_getScope_iff, Action.gives_write_iff]
  constructor
  · rintro ⟨log', rfl, h⟩
    rcases Action.gives_bind_iff.mp h with
      ⟨vs, s₁, w₁, log₁, log₂, hargs, hbody, rfl⟩ | ⟨f, rfl, hargs⟩
    · obtain ⟨rfl, inner, hinner⟩ := Action.gives_inScope_iff.mp hbody
      obtain ⟨r', rfl, hrow⟩ := Action.gives_map_iff.mp hinner
      exact .inl ⟨vs, w₁, log₁, r', inner, log₂, hargs, hrow, rfl, rfl⟩
    · exact .inr ⟨f, log', rfl, hargs, rfl⟩
  · rintro (⟨vs, w₁, log₁, r', inner, log₂, hargs, hbody, rfl, rfl⟩ | ⟨f, log₁, rfl, hargs, rfl⟩)
    · refine ⟨_, rfl, Action.gives_bind_iff.mpr (.inl ⟨vs, s', w₁, log₁, log₂, hargs, ?_, rfl⟩)⟩
      refine Action.gives_inScope_iff.mpr ⟨rfl, inner, ?_⟩
      exact Action.gives_map_iff.mpr ⟨r', rfl, hbody⟩
    · exact ⟨_, rfl, Action.gives_bind_iff.mpr (.inr ⟨f, rfl, hargs⟩)⟩

end Gives

end Rows

/-! ### Natives -/

namespace Native

/-- What a native does with evaluated arguments. It never sees a scope. -/
def reply (host : Host σ) : NativeOp → List Value → σ → HostReply σ
  | .add, vs, w => ⟨.ok (.int (add vs).1), w, (add vs).2.map .warning⟩
  | .eq, vs, w => ⟨.ok (eq vs), w, []⟩
  | .choose, vs, w => ⟨choose vs, w, []⟩
  | .host tag, vs, w => host.call tag vs w

theorem gives_call_iff {host : Host σ} {op : NativeOp} {vs : List Value} {s s' : Scope} {w w' : σ}
    {r : Except Failure Value} {log : List Notice} :
    (call host op vs).Gives s w r s' w' log ↔
      r = (reply host op vs w).outcome ∧ s' = s ∧ w' = (reply host op vs w).world ∧
        log = (reply host op vs w).log := by
  refine Action.gives_iff_of_eq ?_
  cases op with
  | add => rfl
  | eq => rfl
  | choose =>
      simp only [call, reply]
      cases choose vs <;> rfl
  | host tag =>
      simp only [call, reply]
      rcases host.call tag vs w with ⟨_ | _, w', log⟩ <;> rfl

end Native

/-! ### More budget -/

namespace Action

def Extends (x y : Action σ α) : Prop :=
  ∀ ⦃s : Scope⦄ ⦃w : σ⦄ ⦃r : Except Failure α⦄ ⦃s' : Scope⦄ ⦃w' : σ⦄ ⦃log : List Notice⦄,
    x.Gives s w r s' w' log → y.Gives s w r s' w' log

theorem Extends.refl (x : Action σ α) : x.Extends x := by
  intro s w r s' w' log h
  exact h

theorem Extends.bind {x y : Action σ α} {f g : α → Action σ β} (hxy : x.Extends y)
    (hfg : ∀ a, (f a).Extends (g a)) : (x >>= f).Extends (y >>= g) := by
  intro s w r s' w' log h
  rcases gives_bind_iff.mp h with ⟨a, s₁, w₁, log₁, log₂, hx, hf, rfl⟩ | ⟨e, rfl, hx⟩
  · exact gives_bind_iff.mpr (.inl ⟨a, s₁, w₁, log₁, log₂, hxy hx, hfg a hf, rfl⟩)
  · exact gives_bind_iff.mpr (.inr ⟨e, rfl, hxy hx⟩)

theorem Extends.relabel {x y : Action σ α} (hxy : x.Extends y) (g : Failure → Failure) :
    (x.relabel g).Extends (y.relabel g) := by
  intro s w r s' w' log h
  obtain ⟨q, rfl, hx⟩ := gives_relabel_iff.mp h
  exact gives_relabel_iff.mpr ⟨q, rfl, hxy hx⟩

theorem Extends.inScope {x y : Action σ α} (hxy : x.Extends y) (inner : Scope) :
    (inScope inner x).Extends (inScope inner y) := by
  intro s w r s' w' log h
  obtain ⟨rfl, s₁, hx⟩ := gives_inScope_iff.mp h
  exact gives_inScope_iff.mpr ⟨rfl, s₁, hxy hx⟩

end Action

section Extends

variable {ev ev' : Expr → Action σ Value}

theorem evaluateArgs_extends (h : ∀ e, (ev e).Extends (ev' e)) (es : List Expr) :
    (evaluateArgs ev es).Extends (evaluateArgs ev' es) := by
  induction es with
  | nil => exact .refl _
  | cons e es ih => exact (h e).bind fun v => ih.bind fun vs => .refl _

theorem applyFunction_extends (h : ∀ e, (ev e).Extends (ev' e)) (params : List Key)
    (body args : List Expr) :
    (applyFunction ev params body args).Extends (applyFunction ev' params body args) := by
  rw [applyFunction_eq, applyFunction_eq]
  refine Action.Extends.bind (.refl _) fun scope => Action.Extends.bind (.refl _) fun _ => ?_
  refine (evaluateArgs_extends h _).bind fun vs => Action.Extends.inScope ?_ _
  exact (evaluateArgs_extends h body).bind fun us => .refl _

theorem apply_extends (host : Host σ) (h : ∀ e, (ev e).Extends (ev' e)) (head : Value)
    (args : List Expr) : (apply host ev head args).Extends (apply host ev' head args) := by
  cases head with
  | function params body => exact applyFunction_extends h params body args
  | native op name => exact ((evaluateArgs_extends h args).relabel _).bind fun vs => .refl _
  | _ => exact .refl _

theorem step_extends (host : Host σ) (h : ∀ e, (ev e).Extends (ev' e)) (e : Expr) :
    (step host ev e).Extends (step host ev' e) := by
  cases e with
  | literal v => exact .refl _
  | ref k => exact .refl _
  | define k value => exact (h value).bind fun v => .refl _
  | call callee args => exact (h callee).bind fun head => apply_extends host h head args
  | stray v => exact .refl _

/-- An answer that a budget suffices for stands with every larger one. -/
theorem evaluate_extends (host : Host σ) {depth depth' : Nat} (hle : depth ≤ depth') (e : Expr) :
    (evaluate host depth e).Extends (evaluate host depth' e) := by
  induction depth generalizing depth' e with
  | zero =>
      intro s w r s' w' log h
      exact absurd h Action.not_gives_exhaust
  | succ depth ih =>
      cases depth' with
      | zero => omega
      | succ depth' => exact step_extends host (ih (by omega)) e

end Extends

end SproutLang
