import SproutLang.Command
import SproutLang.Proofs.Soundness
import SproutLang.Proofs.Expectation

/-!
Raising the limits. Reading looks at the room only when a form opens, and stops when there is none;
evaluation looks at its depth only to find it exhausted. Neither ever takes a limit that is reached
for anything else, a token that is refused or an expression that fails. So whatever comes to an end
under some limits comes to the same end under higher ones: a text, an evaluation, a step of a
session, and all steps of a session up to the first that reaches a limit.
-/

namespace SproutLang

variable {σ : Type}

/-! ### Reading -/

namespace Reading

theorem all_of_room_le {room room' : Nat} (hle : room ≤ room') {s : State} {ls : List Lexeme}
    (h : (all room s ls).halt ≠ some .tooDeep) : all room' s ls = all room s ls := by
  induction ls generalizing s with
  | nil =>
      unfold all
      split
      · rfl
      · rfl
      · contradiction
  | cons l ls ih =>
      have hstep : step room s l.token ≠ .tooDeep := by
        intro hdeep
        rw [all, hdeep] at h
        exact h rfl
      rw [all] at h
      rw [all, all, step_of_room_le hle hstep]
      cases hmove : step room s l.token with
      | go s' =>
          rw [hmove] at h
          simp only [ih h]
      | done e =>
          rw [hmove] at h
          simp only [ih h]
      | _ => rfl

end Reading

theorem Source.all_of_room_le [Text.Alphabet] {room room' : Nat} (hle : room ≤ room')
    {text : List Char} (h : (all room text).outcome ≠ .error .tooDeep) :
    all room' text = all room text := by
  have hhalt : (harvest room text).halt ≠ some .tooDeep := by
    intro hdeep
    rw [outcome_all, hdeep] at h
    exact h rfl
  rw [all, all, Reading.all_of_room_le hle hhalt]

/-! ### Evaluation -/

section Evaluate

variable {host : Host σ} {depth depth' : Nat}

theorem evaluate_of_depth_le (hle : depth ≤ depth') {e : Expr} {s : Scope} {w : σ}
    (h : (evaluate host depth e s w).outcome ≠ .exhausted) :
    evaluate host depth' e s w = evaluate host depth e s w := by
  obtain ⟨r, hr⟩ := Action.exists_gives h
  exact (evaluate_extends host hle e hr).trans hr.symm

theorem evaluateAll_of_depth_le (hle : depth ≤ depth') {es : List Expr} {s : Scope} {w : σ}
    (h : (evaluateAll host depth es s w).ending ≠ .exhausted) :
    evaluateAll host depth' es s w = evaluateAll host depth es s w := by
  induction es generalizing s w with
  | nil => rfl
  | cons e es ih =>
      have hfirst : (evaluate host depth e s w).outcome ≠ .exhausted := by
        intro hexhausted
        simp only [evaluateAll, hexhausted] at h
        exact h rfl
      simp only [evaluateAll, evaluate_of_depth_le hle hfirst] at h ⊢
      cases houtcome : (evaluate host depth e s w).outcome with
      | value v =>
          rw [houtcome] at h
          simp only [ih h]
      | failed f => rfl
      | exhausted => exact absurd houtcome hfirst

/-- Under higher limits a row of expressions has the same values, and maybe more. -/
theorem values_prefix_of_depth_le (hle : depth ≤ depth') (es : List Expr) (s : Scope) (w : σ) :
    (evaluateAll host depth es s w).values <+: (evaluateAll host depth' es s w).values := by
  induction es generalizing s w with
  | nil => exact List.prefix_rfl
  | cons e es ih =>
      cases houtcome : (evaluate host depth e s w).outcome with
      | exhausted =>
          simp only [evaluateAll, houtcome]
          exact List.nil_prefix
      | failed f =>
          simp only [evaluateAll, houtcome]
          exact List.nil_prefix
      | value v =>
          have hfirst : evaluate host depth' e s w = evaluate host depth e s w :=
            evaluate_of_depth_le hle (by simp [houtcome])
          simp only [evaluateAll, hfirst, houtcome]
          exact List.cons_prefix_cons.mpr ⟨rfl, ih _ _⟩

end Evaluate

/-! ### Sessions -/

instance : LE Limits :=
  ⟨fun limits limits' => limits.room ≤ limits'.room ∧ limits.depth ≤ limits'.depth⟩

theorem Limits.ofCalls_le_ofCalls {m n : Nat} (hle : m ≤ n) :
    Limits.ofCalls m ≤ Limits.ofCalls n :=
  ⟨Nat.div_le_div_right hle, hle⟩

def Trouble.isLimit : Trouble → Bool
  | .reading .tooDeep => true
  | .exhausted => true
  | _ => false

namespace Session

variable {α β : Type} {host : Host σ} {limits limits' : Limits}

def Step.map (f : α → β) (r : Step σ α) : Step σ β :=
  ⟨r.outcome.map f, r.session, r.log⟩

def Step.ranOut (r : Step σ α) : Bool :=
  match r.outcome with
  | .error trouble => trouble.isLimit
  | .ok _ => false

theorem Step.ranOut_map (f : α → β) (r : Step σ α) : (r.map f).ranOut = r.ranOut := by
  obtain ⟨outcome, session, log⟩ := r
  cases outcome <;> rfl

theorem run_of_limits_le (hle : limits ≤ limits') (s : Session σ) {text : List Char}
    (h : (s.run host limits text).ranOut = false) :
    s.run host limits' text = s.run host limits text := by
  have hread : (Source.all limits.room text).outcome ≠ .error .tooDeep := by
    intro hdeep
    rw [run_of_fault s hdeep] at h
    contradiction
  have hsame := Source.all_of_room_le hle.1 hread
  cases houtcome : (Source.all limits.room text).outcome with
  | error fault =>
      rw [run_of_fault s houtcome, run_of_fault s (hsame ▸ houtcome), hsame]
  | ok exprs =>
      rw [run_of_exprs s houtcome] at h ⊢
      have hending :
          (evaluateAll host limits.depth exprs s.scope s.world).ending ≠ .exhausted := by
        intro hexhausted
        simp [stepOf, Step.ranOut, hexhausted, outcomeOf, Except.map, Trouble.isLimit] at h
      rw [run_of_exprs s (hsame ▸ houtcome), hsame, evaluateAll_of_depth_le hle.2 hending]

/-- What a call comes to; only a call for the value of a text yields one. -/
def respond (host : Host σ) (limits : Limits) (s : Session σ) : Call → Step σ (Option Value)
  | .eval text => (s.eval host limits text).map some
  | .load text => (s.load host limits text).map fun _ => none

def Call.answer : Call → List Value → Option Value
  | .eval _, vs => some (summary vs)
  | .load _, _ => none

theorem respond_eq (host : Host σ) (limits : Limits) (s : Session σ) (call : Call) :
    s.respond host limits call = (s.run host limits call.text).map call.answer := by
  cases call with
  | eval text =>
      simp only [respond, eval, Step.map, Call.text]
      cases (s.run host limits text).outcome <;> rfl
  | load text =>
      simp only [respond, load, Step.map, Call.text]
      cases (s.run host limits text).outcome <;> rfl

theorem respond_of_limits_le (hle : limits ≤ limits') (s : Session σ) {call : Call}
    (h : (s.respond host limits call).ranOut = false) :
    s.respond host limits' call = s.respond host limits call := by
  rw [respond_eq, Step.ranOut_map] at h
  rw [respond_eq, respond_eq, run_of_limits_le hle s h]

def steps (host : Host σ) (limits : Limits) (s : Session σ) :
    List Call → List (Step σ (Option Value))
  | [] => []
  | call :: calls =>
      let r := s.respond host limits call
      r :: r.session.steps host limits calls

/-- Up to the first step that reaches a limit, higher limits change nothing. -/
theorem steps_prefix_of_limits_le (hle : limits ≤ limits') (s : Session σ) (calls : List Call) :
    (s.steps host limits calls).takeWhile (fun r => !r.ranOut) <+: s.steps host limits' calls := by
  induction calls generalizing s with
  | nil => exact List.prefix_rfl
  | cons call calls ih =>
      rw [steps, steps, List.takeWhile_cons]
      cases hout : (s.respond host limits call).ranOut with
      | true => exact List.nil_prefix
      | false =>
          rw [respond_of_limits_le hle s hout]
          exact List.cons_prefix_cons.mpr ⟨rfl, ih _⟩

end Session

/-! ### The command line -/

namespace Command

/-- The lines that a text's values are printed on, as many as there are. -/
def resultLines (p : Plan) (text : List Char) : List String :=
  let reply := Source.all p.limits.room text
  match reply.outcome with
  | .error _ => []
  | .ok exprs =>
      (evaluateAll Host.bare p.limits.depth exprs p.session.scope ()).values.map
        (Value.render (p.session.spellings.recordAll reply.names).spell)

theorem stdout_eq_unlines {p : Plan} (hast : p.options.ast = false) (text : List Char) :
    (evaluateText p text).stdout = unlines (resultLines p text) := by
  simp only [evaluateText, resultLines, hast, Bool.false_eq_true, if_false, List.nil_append]
  cases (Source.all p.limits.room text).outcome with
  | error fault => cases fault <;> rfl
  | ok exprs =>
      dsimp only
      cases (evaluateAll Host.bare p.limits.depth exprs p.session.scope ()).ending <;> rfl

theorem resultLines_prefix_of_limits_le {limits limits' : Limits} (hle : limits ≤ limits')
    (p : Plan) (text : List Char) :
    resultLines { p with limits := limits } text <+:
      resultLines { p with limits := limits' } text := by
  by_cases hdeep : (Source.all limits.room text).outcome = .error .tooDeep
  · simp only [resultLines, hdeep]
    exact List.nil_prefix
  · simp only [resultLines, Source.all_of_room_le hle.1 hdeep]
    cases (Source.all limits.room text).outcome with
    | error fault => exact List.prefix_rfl
    | ok exprs => exact (values_prefix_of_depth_le hle.2 exprs _ ()).map _

end Command

/-- What ends within some limits ends in the same way within higher ones: the reading of a text, a
row of evaluations and a text in a session. So the steps of a session that come before the first to
reach a limit are the same, and the results on the command line are the first of those that higher
limits give. -/
theorem answers_kept_by_higher_limits (host : Host σ) {limits limits' : Limits}
    (hle : limits ≤ limits') :
    (∀ text, (Source.all limits.room text).outcome ≠ .error .tooDeep →
      Source.all limits'.room text = Source.all limits.room text) ∧
    (∀ exprs s w, (evaluateAll host limits.depth exprs s w).ending ≠ .exhausted →
      evaluateAll host limits'.depth exprs s w = evaluateAll host limits.depth exprs s w) ∧
    (∀ (s : Session σ) text, (s.run host limits text).ranOut = false →
      s.run host limits' text = s.run host limits text) ∧
    (∀ (s : Session σ) calls, (s.steps host limits calls).takeWhile (fun r => !r.ranOut) <+:
      s.steps host limits' calls) ∧
    (∀ (p : Command.Plan) text, p.options.ast = false →
      let low : Command.Plan := { p with limits := limits }
      let high : Command.Plan := { p with limits := limits' }
      (Command.evaluateText low text).stdout =
        String.join ((Command.resultLines low text).map (· ++ "\n")) ∧
      (Command.evaluateText high text).stdout =
        String.join ((Command.resultLines high text).map (· ++ "\n")) ∧
      Command.resultLines low text <+: Command.resultLines high text) := by
  refine ⟨fun text => Source.all_of_room_le hle.1,
    fun exprs s w => evaluateAll_of_depth_le hle.2,
    fun s text => Session.run_of_limits_le hle s,
    fun s calls => Session.steps_prefix_of_limits_le hle s calls,
    fun p text hast => ⟨?_, ?_, ?_⟩⟩
  · exact Command.stdout_eq_unlines (p := { p with limits := limits }) hast text
  · exact Command.stdout_eq_unlines (p := { p with limits := limits' }) hast text
  · exact Command.resultLines_prefix_of_limits_le hle p text

/-- With no room for forms `7` is evaluated and `(1)` is not; with room for one, `7` comes to the
same. -/
theorem answers_kept_by_higher_limits_seven :
    let s : Session Unit := ⟨.empty, ⟨4, []⟩, ()⟩
    let calls : List Session.Call := [.eval ['7'], .eval ['(', '1', ')']]
    let steps := fun bound => s.steps Host.bare (.ofCalls bound) calls
    Limits.ofCalls 2 ≤ Limits.ofCalls 5 ∧
      (steps 2).map Session.Step.ranOut = [false, true] ∧
      (steps 2).takeWhile (fun r => !r.ranOut) <+: steps 5 ∧
      (s.run Host.bare (.ofCalls 5) ['7']).outcome = .ok [.int 7] := by
  intro s calls steps
  have hseven : (Source.all (Limits.ofCalls 2).room ['7']).outcome = .ok [.literal (.int 7)] := by
    rw [Source.all, show Lexeme.scan 0 ['7'] = [⟨0, .digits ['7']⟩] by decide +kernel]
    rfl
  have hcall : (Source.all (Limits.ofCalls 2).room ['(', '1', ')']).outcome = .error .tooDeep := by
    rw [Source.all, show Lexeme.scan 0 ['(', '1', ')'] =
      [⟨0, .lparen⟩, ⟨1, .digits ['1']⟩, ⟨2, .rparen⟩] by decide +kernel]
    rfl
  have hsteps : (steps 2).map Session.Step.ranOut = [false, true] := by
    simp only [steps, calls, Session.steps, Session.respond_eq, Session.Call.text, List.map_cons,
      List.map_nil, Session.Step.ranOut_map, Session.run_of_exprs _ hseven,
      Session.run_of_fault _ hcall]
    rfl
  have hle : Limits.ofCalls 2 ≤ Limits.ofCalls 5 := Limits.ofCalls_le_ofCalls (by decide)
  obtain ⟨-, -, hrun, hprefix, -⟩ := answers_kept_by_higher_limits Host.bare hle
  refine ⟨hle, hsteps, hprefix s calls, ?_⟩
  rw [hrun s ['7'] (by rw [Session.run_of_exprs s hseven]; rfl), Session.run_of_exprs s hseven]
  rfl

end SproutLang
