import SproutLang.Proofs.Coupling
import SproutLang.Proofs.Reader
import SproutLang.Proofs.Scope
import SproutLang.Proofs.Session

/-!
What can come up in a session whose host binds nothing. Texts bring in numbers of 64 bits, the false
value and function literals, and a session may start with the natives of the language; evaluation
passes these on, adds numbers up within 64 bits and takes function literals as they are. So every
value of a session is one of these, however many texts it was given and whatever became of them, and
no value ever stands where an expression should.

An evaluation is coupled with itself here: the coupling carries what is true of the values, the
expressions and the scope at every moment.
-/

namespace SproutLang

/-! ### What texts are made of -/

namespace Tree

theorem mem_exprs {e : Expr} {ts : List Tree} : e ∈ exprs ts ↔ ∃ t ∈ ts, t.expr = e := by
  induction ts with
  | nil => simp [exprs]
  | cons t ts ih => simp [exprs, ih, eq_comm]

theorem mem_yields {tok : Token} {t : Tree} {ts : List Tree} (ht : t ∈ ts) (h : tok ∈ t.yield) :
    tok ∈ yields ts := by
  induction ht with
  | head ts => exact List.mem_append_left _ h
  | tail u _ ih => exact List.mem_append_right _ ih

end Tree

/-- The expression is what some derivation stands for, with all numbers in range. -/
def Expr.Derived (e : Expr) : Prop :=
  ∃ t : Tree, (∀ tok ∈ t.yield, tok.InRange) ∧ t.expr = e

theorem Expr.derived_of_mem_exprs {ts : List Tree} (h : ∀ tok ∈ Tree.yields ts, tok.InRange)
    {e : Expr} (he : e ∈ Tree.exprs ts) : e.Derived := by
  obtain ⟨t, ht, hexpr⟩ := Tree.mem_exprs.mp he
  exact ⟨t, fun tok htok => h tok (Tree.mem_yields ht htok), hexpr⟩

theorem Expr.inherited_derived : Expr.Inherited Expr.Derived where
  statement := by
    rintro params body ⟨t, hrange, hexpr⟩ e he
    cases t with
    | function ps ts =>
        obtain ⟨-, rfl⟩ := Value.function.inj (Expr.literal.inj hexpr)
        exact derived_of_mem_exprs (fun tok htok => hrange tok (by simp [Tree.yield, htok])) he
    | _ => simp [Tree.expr] at hexpr
  value := by
    rintro k value ⟨t, hrange, hexpr⟩
    cases t with
    | define target u =>
        obtain ⟨-, rfl⟩ := Expr.define.inj hexpr
        exact ⟨u, fun tok htok => hrange tok (by simp [Tree.yield, htok]), rfl⟩
    | _ => simp [Tree.expr] at hexpr
  callee := by
    rintro callee args ⟨t, hrange, hexpr⟩
    cases t with
    | call u us =>
        obtain ⟨rfl, -⟩ := Expr.call.inj hexpr
        exact ⟨u, fun tok htok => hrange tok (by simp [Tree.yield, htok]), rfl⟩
    | _ => simp [Tree.expr] at hexpr
  argument := by
    rintro callee args ⟨t, hrange, hexpr⟩ e he
    cases t with
    | call u us =>
        obtain ⟨-, rfl⟩ := Expr.call.inj hexpr
        exact derived_of_mem_exprs (fun tok htok => hrange tok (by simp [Tree.yield, htok])) he
    | _ => simp [Tree.expr] at hexpr

theorem Source.derived_of_mem_partsOf [Text.Alphabet] {room : Nat} {text : List Char}
    {exprs : List Expr} (h : (all room text).outcome = .ok exprs) {p : Expr}
    (hp : p ∈ Expr.partsOf exprs) :
    p.Derived := by
  obtain ⟨ts, -, hrange, -, rfl⟩ := all_eq_ok_iff.mp h
  refine Expr.inherited_derived.of_mem_partsOf _ (fun e he => ?_) p hp
  exact Expr.derived_of_mem_exprs hrange he

/-! ### Values of a session -/

variable {room : Nat} {texts texts' : List (List Char)}

/-- The values that the texts account for: the two marks, numbers of 64 bits, the natives of the
language and, as they stand there, the function literals at any depth of the texts that can be
read. -/
def Value.Admissible (room : Nat) (texts : List (List Char)) : Value → Prop
  | .void => True
  | .falsity => True
  | .int n => 0 ≤ n ∧ n < 0x10000000000000000
  | .native op name => (name, .native op name) ∈ Native.standard
  | .function params body => ∃ text ∈ texts, ∃ exprs,
      (Source.all room text).outcome = .ok exprs ∧
        .literal (.function params body) ∈ Expr.partsOf exprs
  | _ => False

/-- All literals in the expression have admissible values, and no value stands in it where an
expression should. -/
def Expr.Admissible (room : Nat) (texts : List (List Char)) (e : Expr) : Prop :=
  ∀ p ∈ e.parts, (∀ v, p = .literal v → v.Admissible room texts) ∧ ∀ v, p ≠ .stray v

def Scope.Admissible (room : Nat) (texts : List (List Char)) (s : Scope) : Prop :=
  ∀ b ∈ s.bindings, b.2.Admissible room texts

theorem Value.Admissible.mono (hsub : texts ⊆ texts') {v : Value} (h : v.Admissible room texts) :
    v.Admissible room texts' := by
  cases v with
  | function params body =>
      obtain ⟨text, htext, hread⟩ := h
      exact ⟨text, hsub htext, hread⟩
  | _ => exact h

theorem Scope.Admissible.mono (hsub : texts ⊆ texts') {s : Scope} (h : s.Admissible room texts) :
    s.Admissible room texts' :=
  fun b hb => (h b hb).mono hsub

theorem Scope.Admissible.insert {s : Scope} (h : s.Admissible room texts) (k : Key) {v : Value}
    (hv : v.Admissible room texts) : (s.insert k v).Admissible room texts :=
  Scope.forall_mem_insert (Value.Admissible room texts) h hv

theorem Expr.inherited_admissible : Expr.Inherited (Expr.Admissible room texts) :=
  .of_parts fun h hp q hq => h q (parts_subset_of_mem hp hq)

theorem Expr.Admissible.value {v : Value} (h : (Expr.literal v).Admissible room texts) :
    v.Admissible room texts :=
  (h _ (self_mem_parts _)).1 v rfl

/-- A text that can be read holds admissible expressions only. -/
theorem Source.admissible_of_mem_partsOf {text : List Char} (htext : text ∈ texts)
    {exprs : List Expr} (h : (all room text).outcome = .ok exprs) {e : Expr}
    (he : e ∈ Expr.partsOf exprs) : e.Admissible room texts := by
  intro p hp
  have hmem : p ∈ Expr.partsOf exprs := Expr.parts_subset_of_mem_partsOf he hp
  obtain ⟨t, hrange, rfl⟩ := derived_of_mem_partsOf h hmem
  cases t with
  | falsity => simp [Tree.expr, Value.Admissible]
  | int run =>
      have hrun : (Token.digits run).InRange := hrange _ List.mem_cons_self
      refine ⟨fun v hv => ?_, by simp [Tree.expr]⟩
      obtain rfl := Expr.literal.inj hv
      have hle := hrun.2
      simp only [Value.Admissible]
      omega
  | function params body =>
      refine ⟨fun v hv => ?_, by simp [Tree.expr]⟩
      obtain rfl := Expr.literal.inj hv
      exact ⟨text, htext, exprs, h, hmem⟩
  | _ => simp [Tree.expr]

/-- The statements of an admissible function come from the text that it comes from. -/
theorem Value.Admissible.statement {params : List Key} {body : List Expr}
    (h : (Value.function params body).Admissible room texts) {e : Expr} (he : e ∈ body) :
    e.Admissible room texts := by
  obtain ⟨text, htext, exprs, hread, hmem⟩ := h
  exact Expr.inherited_admissible.statement
    (Source.admissible_of_mem_partsOf htext hread hmem) e he

theorem NativeOp.isStandard_of_mem {op : NativeOp} {name : String}
    (h : (name, Value.native op name) ∈ Native.standard) : op.IsStandard := by
  cases op with
  | host tag => simp [Native.standard] at h
  | _ => trivial

/-! ### One evaluation -/

def admissibleCoupling (room : Nat) (texts : List (List Char)) : Coupling where
  key := Eq
  value v u := v = u ∧ v.Admissible room texts
  expr e f := e = f ∧ e.Admissible room texts
  scope s t := s = t ∧ s.Admissible room texts
  value_alike := by
    rintro v _ ⟨rfl, h⟩
    cases v with
    | function params body =>
        refine .function (List.forall₂_refl params) (List.forall₂_same.mpr fun e he => ?_)
        exact ⟨rfl, h.statement he⟩
    | native op name => exact .native (NativeOp.isStandard_of_mem h)
    | _ => exact .inert rfl
  expr_alike := by
    rintro e _ ⟨rfl, h⟩
    exact .self Expr.inherited_admissible (fun h => ⟨rfl, h.value⟩) (fun _ => rfl) (fun _ => rfl) h
  void := ⟨rfl, trivial⟩
  falsity := ⟨rfl, trivial⟩
  int hlow hhigh := ⟨rfl, hlow, hhigh⟩
  find? := by
    rintro s _ k _ ⟨rfl, h⟩ rfl
    cases hfind : s.find? k with
    | none => exact .none
    | some v => exact .some ⟨rfl, h _ (Scope.mem_of_find? hfind)⟩
  insert := by
    rintro s _ k _ v _ ⟨rfl, h⟩ rfl ⟨rfl, hv⟩
    exact ⟨rfl, h.insert k hv⟩

/-- The failures that are left when all natives are those of the language and all code was read. -/
def Failure.IsOrdinary : Failure → Prop
  | .unbound _ | .notCallable _ | .noCondition | .noBranch | .tooManyBranches => True
  | .notAnExpression _ | .host _ _ | .stopSign _ | .strayStopSign => False

theorem Failure.isOrdinary_of_failures {f g : Failure}
    (h : (admissibleCoupling room texts).Failures f g) : f.IsOrdinary := by
  cases h with
  | notAnExpression hexpr => exact absurd rfl ((hexpr.2 _ (Expr.self_mem_parts _)).2 _)
  | _ => trivial

/-! ### Sessions -/

def Trouble.IsOrdinary : Trouble → Prop
  | .reading _ => True
  | .running f => f.IsOrdinary
  | .exhausted => True

inductive Session.Call
  | eval (text : List Char)
  | load (text : List Char)

def Session.Call.text : Session.Call → List Char
  | .eval text => text
  | .load text => text

namespace Session

variable {σ : Type} {limits : Limits}

def after (host : Host σ) (limits : Limits) (s : Session σ) : Call → Session σ
  | .eval text => (s.eval host limits text).session
  | .load text => (s.load host limits text).session

theorem after_eq (host : Host σ) (s : Session σ) (call : Call) :
    s.after host limits call = (s.run host limits call.text).session := by
  cases call <;> rfl

theorem exists_ok_of_map {α β : Type} {x : Except Trouble α} {f : α → β} {b : β}
    (h : x.map f = .ok b) : ∃ a, x = .ok a ∧ b = f a := by
  cases x with
  | error trouble => contradiction
  | ok a => exact ⟨a, rfl, (Except.ok.inj h).symm⟩

theorem error_of_map {α β : Type} {x : Except Trouble α} {f : α → β} {trouble : Trouble}
    (h : x.map f = .error trouble) : x = .error trouble := by
  cases x with
  | error trouble => exact congrArg Except.error (Except.error.inj h)
  | ok a => contradiction

theorem admissible_bindNames {s : Session σ} (h : s.scope.Admissible room texts)
    {items : List (String × Value)} (hitems : ∀ item ∈ items, item.2.Admissible room texts) :
    (s.bindNames items).scope.Admissible room texts := by
  induction items generalizing s with
  | nil => exact h
  | cons item items ih =>
      rw [List.forall_mem_cons] at hitems
      exact ih (h.insert _ hitems.1) hitems.2

theorem admissible_begin (spellings : Spellings) (world : σ) (natives : Bool) :
    (begin spellings world natives).scope.Admissible room texts := by
  have hempty : Scope.empty.Admissible room texts := by simp [Scope.Admissible, Scope.empty]
  cases natives with
  | false => exact hempty
  | true => exact admissible_bindNames hempty (by simp [Native.standard, Value.Admissible])

/-- What the expressions of a text come to, in a session with an admissible scope. -/
theorem allRuns_of_admissible (host : Host σ) {s : Session σ}
    (h : s.scope.Admissible limits.room texts) {text : List Char} {exprs : List Expr}
    (hread : (Source.all limits.room text).outcome = .ok exprs) :
    let r := evaluateAll host limits.depth exprs s.scope s.world
    (admissibleCoupling limits.room (texts ++ [text])).AllRuns r r := by
  have hscope : (admissibleCoupling limits.room (texts ++ [text])).scope s.scope s.scope :=
    ⟨rfl, h.mono (List.subset_append_left _ _)⟩
  refine Coupling.allRuns_evaluateAll host limits.depth ?_ hscope s.world
  refine List.forall₂_same.mpr fun e he => ⟨rfl, ?_⟩
  exact Source.admissible_of_mem_partsOf (by simp) hread
    (Expr.mem_partsOf_iff.mpr ⟨e, he, Expr.self_mem_parts e⟩)

/-- One text leaves an admissible scope, also when it cannot be read or evaluated to its end. -/
theorem admissible_run (host : Host σ) {s : Session σ}
    (h : s.scope.Admissible limits.room texts) (text : List Char) :
    (s.run host limits text).session.scope.Admissible limits.room (texts ++ [text]) := by
  cases hread : (Source.all limits.room text).outcome with
  | error fault =>
      rw [run_of_fault s hread]
      exact h.mono (List.subset_append_left _ _)
  | ok exprs =>
      rw [run_of_exprs s hread]
      exact (allRuns_of_admissible host h hread).scope.2

theorem admissible_values (host : Host σ) {s : Session σ}
    (h : s.scope.Admissible limits.room texts) {text : List Char} {exprs : List Expr}
    (hread : (Source.all limits.room text).outcome = .ok exprs) :
    ∀ v ∈ (evaluateAll host limits.depth exprs s.scope s.world).values,
      v.Admissible limits.room (texts ++ [text]) :=
  fun v hv => (List.forall₂_same.mp (allRuns_of_admissible host h hread).values v hv).2

theorem exists_exprs_of_run {host : Host σ} {s : Session σ} {text : List Char} {vs : List Value}
    (h : (s.run host limits text).outcome = .ok vs) :
    ∃ exprs, (Source.all limits.room text).outcome = .ok exprs ∧
      vs = (evaluateAll host limits.depth exprs s.scope s.world).values := by
  cases hread : (Source.all limits.room text).outcome with
  | error fault =>
      rw [run_of_fault s hread] at h
      contradiction
  | ok exprs =>
      rw [run_of_exprs s hread] at h
      obtain ⟨_, -, hvalues⟩ := exists_ok_of_map h
      exact ⟨exprs, rfl, hvalues⟩

theorem isOrdinary_of_run (host : Host σ) {s : Session σ}
    (h : s.scope.Admissible limits.room texts) {text : List Char} {trouble : Trouble}
    (hrun : (s.run host limits text).outcome = .error trouble) : trouble.IsOrdinary := by
  cases hread : (Source.all limits.room text).outcome with
  | error fault =>
      rw [run_of_fault s hread] at hrun
      obtain rfl := Except.error.inj hrun
      trivial
  | ok exprs =>
      have hending := (allRuns_of_admissible host h hread).ending
      rw [run_of_exprs s hread] at hrun
      simp only [stepOf] at hrun
      generalize (evaluateAll host limits.depth exprs s.scope s.world).ending = o at hending hrun
      cases hending with
      | value _ => simp [outcomeOf, Except.map] at hrun
      | failed hfailure =>
          obtain rfl := Except.error.inj hrun
          exact Failure.isOrdinary_of_failures hfailure
      | exhausted =>
          obtain rfl := Except.error.inj hrun
          trivial

theorem admissible_foldl_after (host : Host σ) {s : Session σ}
    (h : s.scope.Admissible limits.room texts) (calls : List Call) :
    (calls.foldl (after host limits) s).scope.Admissible limits.room
      (texts ++ calls.map Call.text) := by
  induction calls generalizing s texts with
  | nil => simpa using h
  | cons call calls ih =>
      have hcall := admissible_run host h call.text
      rw [← after_eq host s call] at hcall
      simpa using ih hcall

/-- Whatever texts a session has been given, its bindings and the values of the next text are
accounted for by them, and only faults, ordinary failures and the end of the budget stop it. -/
theorem calls_admissible (host : Host σ) (limits : Limits) (spellings : Spellings) (world : σ)
    (natives : Bool) (opening : List Char) (calls : List Call) (text : List Char) :
    let start := beginWith host limits spellings world natives opening
    let s := calls.foldl (after host limits) start.session
    let texts := opening :: calls.map Call.text
    (∀ b ∈ s.scope.bindings, b.2.Admissible limits.room texts) ∧
    (∀ exprs, (Source.all limits.room text).outcome = .ok exprs →
      ∀ v ∈ (evaluateAll host limits.depth exprs s.scope s.world).values,
        v.Admissible limits.room (texts ++ [text])) ∧
    (∀ v, (s.eval host limits text).outcome = .ok v →
      ∃ vs, (s.run host limits text).outcome = .ok vs ∧ v = summary vs ∧
        ∀ u ∈ vs, u.Admissible limits.room (texts ++ [text])) ∧
    (∀ trouble, start.outcome = .error trouble → trouble.IsOrdinary) ∧
    (∀ trouble, (s.eval host limits text).outcome = .error trouble → trouble.IsOrdinary) ∧
    (∀ trouble, (s.load host limits text).outcome = .error trouble → trouble.IsOrdinary) := by
  intro start s texts
  have hbegin : (begin spellings world natives : Session σ).scope.Admissible limits.room [] :=
    admissible_begin spellings world natives
  have hstart : start = (begin spellings world natives).load host limits opening :=
    beginWith_eq_load host limits spellings world natives opening
  have hopening : start.session.scope.Admissible limits.room [opening] := by
    rw [hstart]
    exact admissible_run host hbegin opening
  have hs : s.scope.Admissible limits.room texts := admissible_foldl_after host hopening calls
  refine ⟨hs, fun exprs hread => admissible_values host hs hread, fun v hv => ?_,
    fun trouble h => ?_, fun trouble h => ?_, fun trouble h => ?_⟩
  · obtain ⟨vs, hrun, rfl⟩ := exists_ok_of_map hv
    obtain ⟨exprs, hread, rfl⟩ := exists_exprs_of_run hrun
    exact ⟨_, hrun, rfl, admissible_values host hs hread⟩
  · rw [hstart] at h
    exact isOrdinary_of_run host hbegin (error_of_map h)
  · exact isOrdinary_of_run host hs (error_of_map h)
  · exact isOrdinary_of_run host hs (error_of_map h)

end Session

end SproutLang
