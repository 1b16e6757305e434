import SproutLang.Proofs.Isolation
import SproutLang.Session

/-!
Callees and their arguments. A call has two parts: the arguments that the callee asks for are
evaluated in the scope of the caller, and then the callee is entered with their values. It is handed
those and the scope as it was before, so that it cannot tell which expressions the values come from,
nor what these have bound, nor anything of the arguments that it does not ask for.

What the arguments have done to the world of the host is there for the callee to see, though only
through natives of the host that look at the world. If none does, evaluation is blind to the world,
and it makes no difference in which world the callee is entered.
-/

namespace SproutLang

variable {σ α β : Type}

/-! ### Blind actions -/

/-- The two ends differ in the world at most. -/
structure Run.Matches (r q : Run σ α) : Prop where
  outcome : r.outcome = q.outcome
  scope : r.scope = q.scope
  log : r.log = q.log

namespace Action

def Blind (x : Action σ α) : Prop :=
  ∀ s w w', (x s w).Matches (x s w')

theorem Blind.bind {x : Action σ α} {f : α → Action σ β} (hx : x.Blind) (hf : ∀ a, (f a).Blind) :
    (x >>= f).Blind := by
  intro s w w'
  obtain ⟨houtcome, hscope, hlog⟩ := hx s w w'
  simp only [Bind.bind, andThen]
  generalize x s w = r at *
  generalize x s w' = q at *
  obtain ⟨o, s₁, w₁, log₁⟩ := r
  obtain ⟨o', s₁', w₁', log₁'⟩ := q
  obtain rfl : o = o' := houtcome
  obtain rfl : s₁ = s₁' := hscope
  obtain rfl : log₁ = log₁' := hlog
  cases o with
  | value a =>
      obtain ⟨houtcome', hscope', hlog'⟩ := hf a s₁ w₁ w₁'
      exact ⟨houtcome', hscope', by simp only [hlog']⟩
  | failed f => exact ⟨rfl, rfl, rfl⟩
  | exhausted => exact ⟨rfl, rfl, rfl⟩

theorem Blind.relabel {x : Action σ α} (hx : x.Blind) (g : Failure → Failure) :
    (x.relabel g).Blind := by
  intro s w w'
  obtain ⟨houtcome, hscope, hlog⟩ := hx s w w'
  simp only [Action.relabel, ← houtcome]
  cases (x s w).outcome with
  | failed f => exact ⟨rfl, hscope, hlog⟩
  | _ => exact ⟨houtcome, hscope, hlog⟩

theorem Blind.inScope {x : Action σ α} (hx : x.Blind) (inner : Scope) :
    (inScope inner x).Blind := by
  intro s w w'
  obtain ⟨houtcome, -, hlog⟩ := hx inner w w'
  exact ⟨houtcome, rfl, hlog⟩

end Action

namespace Value

def notices (got : Nat) : Value → List Notice
  | .function params _ => arityNotices params.length got
  | _ => []

end Value

section Call

variable {host : Host σ} {ev : Expr → Action σ Value} {head : Value} {args : List Expr}
  {s s' : Scope} {w w' : σ} {vs : List Value} {log : List Notice}

end Call

/-! ### The natives of a session -/

/-- A name that stands for a native calls it with the values of the arguments. -/
theorem evaluate_call_of_native {host : Host σ} {k : Key} {op : NativeOp} {shown : String}
    {scope : Scope} (h : scope.find? k = some (.native op shown)) (depth : Nat) (args : List Expr)
    (world : σ) :
    evaluate host (depth + 2) (.call (.ref k) args) scope world =
      ((evaluateArgs (evaluate host (depth + 1)) args).relabel .fromArguments >>=
        Native.call host op) scope world := by
  have hhead : (evaluate host (depth + 1) (.ref k)).Gives scope world
      (.ok (.native op shown)) scope world [] := Action.gives_lookUp_of_some h
  have hcall := Action.bind_of_gives_ok hhead fun head =>
    apply host (evaluate host (depth + 1)) head args
  rw [List.nil_append] at hcall
  exact hcall

/-- The names of the natives of the language have different keys. -/
theorem Native.nodup_keys_standard : (standard.map fun item => Key.ofName item.1).Nodup := by
  decide +kernel

namespace Session

theorem find?_begin (spellings : Spellings) (world : σ) {item : String × Value}
    (h : item ∈ Native.standard) :
    (begin spellings world true).scope.find? (Key.ofName item.1) = some item.2 := by
  have hkeys := Native.nodup_keys_standard
  simp only [Native.standard, List.map_cons, List.map_nil, List.nodup_cons, List.mem_cons,
    List.not_mem_nil, or_false, not_or] at hkeys h
  obtain ⟨⟨haddEq, haddIf⟩, heqIf, -⟩ := hkeys
  have hscope : (begin spellings world true).scope =
      ((Scope.empty.insert (Key.ofName "add") (.native .add "add")).insert
        (Key.ofName "eq") (.native .eq "eq")).insert (Key.ofName "if") (.native .choose "if") := rfl
  rw [hscope]
  rcases h with rfl | rfl | rfl
  · simp only [Scope.find?_insert, if_neg haddIf, if_neg haddEq, if_true]
  · simp only [Scope.find?_insert, if_neg heqIf, if_true]
  · simp only [Scope.find?_insert, if_true]

/-- A session that begins with the natives can call them by the names `add`, `eq` and `if`. -/
theorem evaluate_call_natives (host : Host σ) (spellings : Spellings) (world : σ) (depth : Nat)
    (args : List Expr) :
    let scope := (begin spellings world true).scope
    let row := (evaluateArgs (evaluate host (depth + 1)) args).relabel .fromArguments
    let called (name : String) :=
      evaluate host (depth + 2) (.call (.ref (Key.ofName name)) args) scope world
    called "add" = (row >>= Native.call host .add) scope world ∧
      called "eq" = (row >>= Native.call host .eq) scope world ∧
      called "if" = (row >>= Native.call host .choose) scope world := by
  intro scope row called
  have hcalled {name : String} {op : NativeOp}
      (h : (name, Value.native op name) ∈ Native.standard) :
      called name = (row >>= Native.call host op) scope world :=
    evaluate_call_of_native (find?_begin spellings world h) depth args world
  refine ⟨hcalled ?_, hcalled ?_, hcalled ?_⟩
  · exact List.mem_cons_self
  · exact List.mem_cons_of_mem _ List.mem_cons_self
  · exact List.mem_cons_of_mem _ (List.mem_cons_of_mem _ List.mem_cons_self)

end Session

end SproutLang
