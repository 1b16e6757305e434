import SproutLang.Proofs.Grammar
import SproutLang.Source

/-!
The reading machine against the grammar. `Path room s ts m` says that the machine, taking the tokens
`ts` one by one, gets from the state `s` to the move `m`; the functions that read an expression or a
whole text are described by the paths that they follow.

One invariant links the machine to the grammar: `Reads room ts s` says of the tokens `ts` taken so
far that they are what the state `s` and its open forms stand for. Every step keeps it, so a path
that completes an expression has a derivation behind it. In the other direction a derivation is
itself a recipe for a path.
-/

namespace SproutLang

/-- A number that can be converted and fits 64 bits; other tokens are always in range. -/
def Token.InRange : Token → Prop
  | .digits run => run.length ≤ 4300 ∧ Text.decimalNumber run ≤ 0xFFFFFFFFFFFFFFFF
  | _ => True

namespace Reading

/-! ### Paths -/

/-- The machine takes the tokens in order; each but the last lets it go on. -/
inductive Path (room : Nat) : State → List Token → Move → Prop
  | stay (s : State) : Path room s [] (.go s)
  | last {s : State} {t : Token} {m : Move} : step room s t = m → Path room s [t] m
  | cons {s s' : State} {t : Token} {ts : List Token} {m : Move} :
      step room s t = .go s' → Path room s' ts m → Path room s (t :: ts) m

theorem Path.append {room : Nat} {s s' : State} {ts us : List Token} {m : Move}
    (h : Path room s ts (.go s')) (h' : Path room s' us m) : Path room s (ts ++ us) m := by
  generalize hgo : Move.go s' = g at h
  induction h with
  | stay s =>
      obtain rfl : s' = s := Move.go.inj hgo
      exact h'
  | last hstep =>
      subst hgo
      exact .cons hstep h'
  | cons hstep _ ih => exact .cons hstep (ih hgo)

def namesOf (ls : List Lexeme) : List String :=
  ls.flatMap fun l => l.token.names

@[simp] theorem namesOf_nil : namesOf [] = [] := rfl

@[simp] theorem namesOf_cons (l : Lexeme) (ls : List Lexeme) :
    namesOf (l :: ls) = l.token.names ++ namesOf ls := rfl

theorem namesOf_append (ls ms : List Lexeme) : namesOf (ls ++ ms) = namesOf ls ++ namesOf ms := by
  simp [namesOf]

theorem Result.after_after {α : Type} (r : Result α) (ns ms : List String) :
    (r.after ms).after ns = r.after (ns ++ ms) := by
  simp [Result.after]

/-- What a path that `ls` leads along says of reading one expression from `ls` and more. -/
def Continues (room : Nat) (s : State) (ls rest : List Lexeme) : Move → Prop
  | .go s' => one room s (ls ++ rest) = (one room s' rest).after (namesOf ls)
  | .done e => one room s (ls ++ rest) = ⟨namesOf ls, .ok (e, rest)⟩
  | _ => True

theorem Path.continues {room : Nat} {s : State} {ls : List Lexeme} {m : Move}
    (h : Path room s (ls.map Lexeme.token) m) (rest : List Lexeme) :
    Continues room s ls rest m := by
  induction ls generalizing s with
  | nil =>
      cases h with
      | stay => simp [Continues, Result.after]
  | cons l ls ih =>
      rw [List.map_cons] at h
      generalize htail : ls.map Lexeme.token = tail at h
      cases h with
      | last hstep =>
          obtain rfl : ls = [] := by simpa using htail
          cases m <;> simp [Continues, one, hstep]
      | @cons _ s' _ _ _ hstep hpath =>
          subst htail
          have hrest := ih hpath
          have hone : one room s (l :: ls ++ rest) =
              (one room s' (ls ++ rest)).after l.token.names := by
            rw [List.cons_append, one, hstep]
          cases m with
          | go s'' =>
              rw [Continues] at hrest ⊢
              rw [hone, hrest, Result.after_after, namesOf_cons]
          | done e =>
              rw [Continues] at hrest ⊢
              rw [hone, hrest, Result.after, namesOf_cons]
          | _ => trivial

theorem one_of_path_go {room : Nat} {s s' : State} {ls : List Lexeme}
    (h : Path room s (ls.map Lexeme.token) (.go s')) (rest : List Lexeme) :
    one room s (ls ++ rest) = (one room s' rest).after (namesOf ls) :=
  h.continues rest

theorem one_of_path_done {room : Nat} {s : State} {ls : List Lexeme} {e : Expr}
    (h : Path room s (ls.map Lexeme.token) (.done e)) (rest : List Lexeme) :
    one room s (ls ++ rest) = ⟨namesOf ls, .ok (e, rest)⟩ :=
  h.continues rest

/-- What an ended reading of one expression says of the path that it took. -/
def Ended (room : Nat) (s : State) (ls : List Lexeme) : Except Halt (Expr × List Lexeme) → Prop
  | .ok (e, rest) => ∃ taken, ls = taken ++ rest ∧ Path room s (taken.map Lexeme.token) (.done e)
  | .error (.unexpected s' rest) =>
      ∃ taken, ls = taken ++ rest ∧ Path room s (taken.map Lexeme.token) (.go s') ∧
        ∀ l ∈ rest.head?, step room s' l.token = .unexpected
  | .error _ => True

theorem Ended.cons {room : Nat} {s s' : State} {l : Lexeme} {ls : List Lexeme}
    {r : Except Halt (Expr × List Lexeme)} (hstep : step room s l.token = .go s')
    (h : Ended room s' ls r) : Ended room s (l :: ls) r := by
  match r, h with
  | .ok (e, rest), h =>
      obtain ⟨taken, rfl, hpath⟩ := h
      exact ⟨l :: taken, rfl, .cons hstep hpath⟩
  | .error (.unexpected s'' rest), h =>
      obtain ⟨taken, rfl, hpath, hrefused⟩ := h
      exact ⟨l :: taken, rfl, .cons hstep hpath, hrefused⟩
  | .error (.outOfRange _ _), _ => trivial
  | .error (.tooManyDigits _), _ => trivial
  | .error .tooDeep, _ => trivial

theorem one_ended (room : Nat) (s : State) (ls : List Lexeme) :
    Ended room s ls (one room s ls).outcome := by
  induction ls generalizing s with
  | nil => exact ⟨[], rfl, .stay s, by simp⟩
  | cons l ls ih =>
      rw [one]
      split
      · rename_i s' hstep
        exact (ih s').cons hstep
      · rename_i e hstep
        exact ⟨[l], rfl, .last hstep⟩
      · rename_i hstep
        exact ⟨[], rfl, .stay s, by simpa using hstep⟩
      all_goals trivial

/-! ### From derivations to paths -/

theorem integer_of_inRange {run : List Char} (h : (Token.digits run).InRange)
    (outer : List Pending) :
    integer run outer = complete (.literal (.int (Text.decimalNumber run))) outer := by
  obtain ⟨hlen, hval⟩ := h
  rw [integer, if_neg (by rw [maxDigits]; omega), if_neg (by rw [maxInt]; omega)]

theorem step_lparen {room : Nat} {outer : List Pending} (h : outer.length < room) :
    step room (.expr outer) .lparen = .go (.expr (.callee :: outer)) :=
  if_pos h

theorem path_params (room : Nat) (ps : List (List Char)) (names : List Key)
    (outer : List Pending) :
    Path room (.params names outer) (ps.map Token.name)
      (.go (.params (names ++ ps.map keyOf) outer)) := by
  induction ps generalizing names with
  | nil =>
      rw [List.map_nil, List.map_nil, List.append_nil]
      exact .stay _
  | cons p ps ih =>
      have hrest := ih (names ++ [keyOf p])
      rw [List.append_assoc] at hrest
      exact .cons rfl hrest

mutual

/-- The tokens of a derivation lead the machine to where the expression is complete. -/
theorem path_yield (room : Nat) (t : Tree) (outer : List Pending)
    (hrange : ∀ tok ∈ t.yield, tok.InRange) (hdepth : t.depth + outer.length ≤ room) :
    Path room (.expr outer) t.yield (complete t.expr outer) := by
  match t with
  | .falsity => exact .last rfl
  | .int run => exact .last (integer_of_inRange (hrange _ (by simp [Tree.yield])) outer)
  | .name run => exact .last rfl
  | .function params body =>
      simp only [Tree.yield, List.mem_cons, List.mem_append, List.mem_map] at hrange
      rw [Tree.depth] at hdepth
      have hopen := step_lparen (show outer.length < room by omega)
      have hbody := path_yields room body (.statement (params.map keyOf)) [] outer
        (fun _ _ _ => rfl) (fun tok htok => hrange tok (by simp [htok])) (by omega)
      rw [Tree.yield]
      refine .cons hopen (.cons rfl (.cons rfl ?_))
      refine (path_params room params [] outer).append ?_
      refine .cons rfl (hbody.append (.last ?_))
      rfl
  | .define target value =>
      simp only [Tree.yield, List.mem_cons, List.mem_append] at hrange
      rw [Tree.depth] at hdepth
      have hopen := step_lparen (show outer.length < room by omega)
      have hvalue := path_yield room value (.value (keyOf target) :: outer)
        (fun tok htok => hrange tok (by simp [htok])) (by rw [List.length_cons]; omega)
      rw [Tree.yield]
      exact .cons hopen (.cons rfl (.cons rfl (hvalue.append (.last rfl))))
  | .call callee args =>
      simp only [Tree.yield, List.mem_cons, List.mem_append] at hrange
      rw [Tree.depth] at hdepth
      have hopen := step_lparen (show outer.length < room by omega)
      have hcallee := path_yield room callee (.callee :: outer)
        (fun tok htok => hrange tok (by simp [htok])) (by rw [List.length_cons]; omega)
      have hargs := path_yields room args (.argument callee.expr) [] outer
        (fun _ _ _ => rfl) (fun tok htok => hrange tok (by simp [htok])) (by omega)
      rw [Tree.yield]
      exact .cons hopen (hcallee.append (hargs.append (.last rfl)))

/-- The same for a row inside a form `frame` that holds any number of expressions and has taken `es`
so far. -/
theorem path_yields (room : Nat) (ts : List Tree) (frame : List Expr → Pending) (es : List Expr)
    (outer : List Pending)
    (hframe : ∀ es e outer,
      complete e (frame es :: outer) = .go (.expr (frame (es ++ [e]) :: outer)))
    (hrange : ∀ tok ∈ Tree.yields ts, tok.InRange)
    (hdepth : Tree.depths ts + outer.length + 1 ≤ room) :
    Path room (.expr (frame es :: outer)) (Tree.yields ts)
      (.go (.expr (frame (es ++ Tree.exprs ts) :: outer))) := by
  match ts with
  | [] =>
      rw [Tree.yields, Tree.exprs, List.append_nil]
      exact .stay _
  | t :: ts =>
      rw [Tree.yields] at hrange ⊢
      rw [Tree.depths] at hdepth
      have hfirst := path_yield room t (frame es :: outer)
        (fun tok htok => hrange tok (List.mem_append_left _ htok)) (by rw [List.length_cons]; omega)
      have hrest := path_yields room ts frame (es ++ [t.expr]) outer hframe
        (fun tok htok => hrange tok (List.mem_append_right _ htok)) (by omega)
      rw [hframe] at hfirst
      rw [List.append_assoc] at hrest
      exact hfirst.append hrest

end

/-! ### From paths to derivations -/

/-- `Opened room ts outer`: the tokens `ts` have been taken, they opened the forms `outer`, and what
these hold is what was derived from the tokens. -/
inductive Opened (room : Nat) : List Token → List Pending → Prop
  | nil : Opened room [] []
  | callee {ts : List Token} {outer : List Pending} :
      Opened room ts outer → outer.length < room →
      Opened room (ts ++ [.lparen]) (.callee :: outer)
  | statement {ts : List Token} {outer : List Pending} (params : List (List Char))
      (body : List Tree) :
      Opened room ts outer → Tree.depths body + outer.length < room →
      Opened room
        (ts ++ .lparen :: .backslash :: .lparen ::
          (params.map Token.name ++ .rparen :: Tree.yields body))
        (.statement (params.map keyOf) (Tree.exprs body) :: outer)
  | value {ts : List Token} {outer : List Pending} (target : List Char) :
      Opened room ts outer → outer.length < room →
      Opened room (ts ++ [.lparen, .equals, .name target]) (.value (keyOf target) :: outer)
  | argument {ts : List Token} {outer : List Pending} (callee : Tree) (args : List Tree) :
      Opened room ts outer → max callee.depth (Tree.depths args) + outer.length < room →
      Opened room (ts ++ .lparen :: (callee.yield ++ Tree.yields args))
        (.argument callee.expr (Tree.exprs args) :: outer)

def Reads (room : Nat) (ts : List Token) : State → Prop
  | .expr outer => Opened room ts outer
  | .header outer =>
      ∃ us, Opened room us outer ∧ outer.length < room ∧ ts = us ++ [.lparen, .backslash]
  | .params names outer =>
      ∃ us, ∃ ps : List (List Char), Opened room us outer ∧ outer.length < room ∧
        names = ps.map keyOf ∧ ts = us ++ .lparen :: .backslash :: .lparen :: ps.map Token.name
  | .target outer =>
      ∃ us, Opened room us outer ∧ outer.length < room ∧ ts = us ++ [.lparen, .equals]
  | .defined name value outer =>
      ∃ us target, ∃ t : Tree, Opened room us outer ∧ t.depth + outer.length < room ∧
        name = keyOf target ∧ value = t.expr ∧
        ts = us ++ .lparen :: .equals :: .name target :: t.yield

def Accounts (room : Nat) (ts : List Token) : Move → Prop
  | .go s => Reads room ts s
  | .done e => ∃ t : Tree, t.yield = ts ∧ t.expr = e ∧ t.depth ≤ room
  | _ => True

theorem Opened.length_le {room : Nat} {ts : List Token} {outer : List Pending}
    (h : Opened room ts outer) : outer.length ≤ room := by
  cases h with
  | nil => exact Nat.zero_le _
  | _ => rw [List.length_cons]; omega

/-- To complete an expression is to add its tokens to those of the open forms. -/
theorem accounts_complete {room : Nat} {ts : List Token} {outer : List Pending} (t : Tree)
    (h : Opened room ts outer) (hdepth : t.depth + outer.length ≤ room) :
    Accounts room (ts ++ t.yield) (complete t.expr outer) := by
  cases h with
  | nil => exact ⟨t, rfl, rfl, hdepth⟩
  | callee h hroom =>
      rw [List.length_cons] at hdepth
      have hopen := Opened.argument t [] h (by rw [Tree.depths]; omega)
      simpa [Accounts, Reads, complete, Tree.yields, Tree.exprs] using hopen
  | statement params body h hroom =>
      rw [List.length_cons] at hdepth
      have hopen := Opened.statement params (body ++ [t]) h (by
        rw [Tree.depths_append, Tree.depths, Tree.depths]
        omega)
      simpa [Accounts, Reads, complete, Tree.yields_append, Tree.exprs_append, Tree.yields,
        Tree.exprs] using hopen
  | value target h hroom =>
      rw [List.length_cons] at hdepth
      exact ⟨_, target, t, h, by omega, rfl, rfl, by simp⟩
  | argument callee args h hroom =>
      rw [List.length_cons] at hdepth
      have hopen := Opened.argument callee (args ++ [t]) h (by
        rw [Tree.depths_append, Tree.depths, Tree.depths]
        omega)
      simpa [Accounts, Reads, complete, Tree.yields_append, Tree.exprs_append, Tree.yields,
        Tree.exprs] using hopen

theorem accounts_leaf {room : Nat} {ts : List Token} {outer : List Pending} {t : Tree}
    (h : Opened room ts outer) (ht : t.depth = 0) :
    Accounts room (ts ++ t.yield) (complete t.expr outer) := by
  have hlen := h.length_le
  exact accounts_complete t h (by omega)

/-- Every step of the machine keeps account of the tokens. -/
theorem accounts_step {room : Nat} {ts : List Token} {s : State} (tok : Token)
    (h : Reads room ts s) : Accounts room (ts ++ [tok]) (step room s tok) := by
  unfold step
  split
  -- `#f`, a number and a name complete an expression.
  · exact accounts_leaf (t := .falsity) h rfl
  · rename_i outer run
    unfold integer
    split
    · trivial
    split
    · trivial
    exact accounts_leaf (t := .int run) h rfl
  · rename_i outer run
    exact accounts_leaf (t := .name run) h rfl
  -- A form opens; the next token may show that it is a function or a definition.
  · split
    · rename_i hroom
      exact Opened.callee h hroom
    · trivial
  · cases h with
    | callee h hroom => exact ⟨_, h, hroom, by simp⟩
  · cases h with
    | callee h hroom => exact ⟨_, h, hroom, by simp⟩
  -- A function or a call is closed, and is itself a complete expression.
  · cases h with
    | statement params body h hroom =>
        have hform := accounts_complete (.function params body) h (by rw [Tree.depth]; omega)
        simpa [Tree.yield, Tree.expr] using hform
  · cases h with
    | argument callee args h hroom =>
        have hform := accounts_complete (.call callee args) h (by rw [Tree.depth]; omega)
        simpa [Tree.yield, Tree.expr] using hform
  -- The parameters of a function, from their parenthesis to the other.
  · obtain ⟨us, h, hroom, rfl⟩ := h
    exact ⟨us, [], h, hroom, rfl, by simp⟩
  · rename_i run
    obtain ⟨us, ps, h, hroom, rfl, rfl⟩ := h
    exact ⟨us, ps ++ [run], h, hroom, by simp, by simp⟩
  · obtain ⟨us, ps, h, hroom, rfl, rfl⟩ := h
    have hopen := Opened.statement ps [] h (by rw [Tree.depths]; omega)
    simpa [Accounts, Reads, Tree.yields, Tree.exprs] using hopen
  -- The name that a definition binds, and the end of the definition.
  · rename_i run
    obtain ⟨us, h, hroom, rfl⟩ := h
    have hopen := Opened.value run h hroom
    simpa [Accounts, Reads] using hopen
  · obtain ⟨us, target, t, h, hroom, rfl, rfl, rfl⟩ := h
    have hform := accounts_complete (.define target t) h (by rw [Tree.depth]; omega)
    simpa [Tree.yield, Tree.expr] using hform
  · trivial

theorem Path.accounts {room : Nat} {s : State} {ts us : List Token} {m : Move}
    (hpath : Path room s us m) (h : Reads room ts s) : Accounts room (ts ++ us) m := by
  induction hpath generalizing ts with
  | stay s => rwa [List.append_nil]
  | last hstep =>
      subst hstep
      exact accounts_step _ h
  | @cons s s' tok us m hstep _ ih =>
      have hnext := accounts_step tok h
      rw [hstep] at hnext
      simpa using ih hnext

def Move.Accepts : Move → Prop
  | .go _ | .done _ => True
  | _ => False

theorem inRange_of_accepts {room : Nat} {s : State} {tok : Token}
    (h : (step room s tok).Accepts) : tok.InRange := by
  cases tok with
  | digits run =>
      cases s with
      | expr outer =>
          rw [step, integer] at h
          split at h
          · exact h.elim
          split at h
          · exact h.elim
          rename_i hlen hval
          rw [maxDigits] at hlen
          rw [maxInt] at hval
          exact ⟨by omega, by omega⟩
      | _ => exact h.elim
  | _ => trivial

theorem Path.inRange {room : Nat} {s : State} {ts : List Token} {m : Move}
    (h : Path room s ts m) (hm : m.Accepts) : ∀ tok ∈ ts, tok.InRange := by
  induction h with
  | stay s => simp
  | last hstep =>
      subst hstep
      simpa using inRange_of_accepts hm
  | cons hstep _ ih =>
      intro tok htok
      rcases List.mem_cons.mp htok with rfl | htok
      · exact inRange_of_accepts (by rw [hstep]; trivial)
      · exact ih hm tok htok

/-- The machine completes an expression with exactly the tokens that derive it. -/
theorem path_done_iff {room : Nat} {ts : List Token} {e : Expr} :
    Path room .start ts (.done e) ↔
      ∃ t : Tree, t.yield = ts ∧ t.expr = e ∧ t.depth ≤ room ∧ ∀ tok ∈ ts, tok.InRange := by
  constructor
  · intro h
    obtain ⟨t, hyield, hexpr, hdepth⟩ := h.accounts (show Reads room [] .start from .nil)
    exact ⟨t, by simpa using hyield, hexpr, hdepth, h.inRange trivial⟩
  · rintro ⟨t, rfl, rfl, hdepth, hrange⟩
    exact path_yield room t [] hrange hdepth

/-! ### Whole texts -/

theorem step_go_ne_start {room : Nat} {s s' : State} {tok : Token}
    (h : step room s tok = .go s') : s' ≠ .start := by
  rintro rfl
  have hcomplete : ∀ e outer, complete e outer ≠ .go .start := by
    intro e outer
    cases outer with
    | nil => simp [complete]
    | cons p outer => cases p <;> simp [complete, State.start]
  unfold step at h
  split at h
  all_goals try exact hcomplete _ _ h
  · unfold integer at h
    split at h
    · simp at h
    split at h
    · simp at h
    exact hcomplete _ _ h
  · split at h
    · simp [State.start] at h
    · simp at h
  all_goals simp [State.start] at h

/-- To read a text to its end is to read an expression and then the rest, unless nothing is open
and nothing is left. -/
theorem all_eq_one {room : Nat} {s : State} {ls : List Lexeme} (h : ls = [] → s ≠ .start) :
    all room s ls =
      match (one room s ls).outcome with
      | .ok (e, rest) => ((all room .start rest).cons e).after (one room s ls).names
      | .error halt => ⟨(one room s ls).names, [], some halt⟩ := by
  induction ls generalizing s with
  | nil =>
      have hs : s ≠ .expr [] := h rfl
      unfold all one
      split
      · exact absurd rfl hs
      · rfl
      · simp_all
  | cons l ls ih =>
      rw [all, one]
      cases hstep : step room s l.token with
      | go s' =>
          have hs' := step_go_ne_start hstep
          simp only [ih fun _ => hs', Result.after]
          cases (one room s' ls).outcome with
          | ok r => simp [Harvest.after, Harvest.cons]
          | error halt => rfl
      | _ => rfl

theorem length_lt_of_path_done {room : Nat} {s : State} {taken rest : List Lexeme} {e : Expr}
    (h : Path room s (taken.map Lexeme.token) (.done e)) :
    rest.length < (taken ++ rest).length := by
  cases taken with
  | nil => cases h
  | cons l taken =>
      rw [List.length_append, List.length_cons]
      omega

/-- What is read from a text to its end has derivations of the tokens. -/
theorem exists_trees_of_all {room : Nat} {ls : List Lexeme}
    (h : (all room .start ls).halt = none) :
    ∃ ts : List Tree, Tree.yields ts = ls.map Lexeme.token ∧
      Tree.exprs ts = (all room .start ls).exprs ∧ Tree.depths ts ≤ room ∧
      ∀ tok ∈ Tree.yields ts, tok.InRange := by
  induction hn : ls.length using Nat.strongRecOn generalizing ls with
  | ind n ih =>
      cases ls with
      | nil => exact ⟨[], rfl, rfl, Nat.zero_le _, by simp [Tree.yields]⟩
      | cons l ls =>
          have hended := one_ended room .start (l :: ls)
          rw [all_eq_one (by simp)] at h ⊢
          cases hout : (one room .start (l :: ls)).outcome with
          | error halt => simp [hout] at h
          | ok r =>
              obtain ⟨e, rest⟩ := r
              rw [hout] at h hended
              obtain ⟨taken, hsplit, hpath⟩ := hended
              have hlt : rest.length < n := by
                rw [← hn, hsplit]
                exact length_lt_of_path_done hpath
              obtain ⟨t, hyield, hexpr, hdepth, hrange⟩ := path_done_iff.mp hpath
              obtain ⟨ts, hyields, hexprs, hdepths, hranges⟩ := ih _ hlt h rfl
              refine ⟨t :: ts, ?_, ?_, ?_, ?_⟩
              · rw [Tree.yields, hyield, hyields, hsplit, List.map_append]
              · rw [Tree.exprs, hexpr, hexprs]
                rfl
              · rw [Tree.depths]
                omega
              · rw [Tree.yields]
                intro tok htok
                rcases List.mem_append.mp htok with htok | htok
                · exact hrange tok (hyield ▸ htok)
                · exact hranges tok htok

/-- Tokens that have derivations are read to the end. -/
theorem all_of_trees {room : Nat} {ts : List Tree} {ls : List Lexeme}
    (hyields : ls.map Lexeme.token = Tree.yields ts) (hdepth : Tree.depths ts ≤ room)
    (hrange : ∀ tok ∈ Tree.yields ts, tok.InRange) :
    all room .start ls = ⟨namesOf ls, Tree.exprs ts, none⟩ := by
  induction ts generalizing ls with
  | nil =>
      obtain rfl : ls = [] := by simpa [Tree.yields] using hyields
      rfl
  | cons t ts ih =>
      rw [Tree.yields] at hyields hrange
      rw [Tree.depths] at hdepth
      obtain ⟨taken, rest, rfl, htaken, hrest⟩ := List.map_eq_append_iff.mp hyields
      have hpath : Path room .start (taken.map Lexeme.token) (.done t.expr) := by
        rw [htaken]
        exact path_yield room t [] (fun tok htok => hrange tok (List.mem_append_left _ htok))
          (by simp only [List.length_nil]; omega)
      have hne : taken ++ rest = [] → State.start ≠ State.start := by
        intro hnil
        obtain ⟨rfl, -⟩ := List.append_eq_nil_iff.mp hnil
        cases hpath
      have hmore := ih hrest (by omega) fun tok htok => hrange tok (List.mem_append_right _ htok)
      rw [all_eq_one hne, one_of_path_done hpath]
      simp only [hmore, Harvest.after, Harvest.cons, Tree.exprs, namesOf_append]

end Reading

namespace Source

variable [Text.Alphabet]

/-- Reading a whole text, in terms of derivations of its tokens. -/
theorem all_eq_ok_iff {room : Nat} {source : List Char} {ns : List Expr} :
    (all room source).outcome = .ok ns ↔
      ∃ ts : List Tree, tokens source = Tree.yields ts ∧ (∀ tok ∈ Tree.yields ts, tok.InRange) ∧
        Tree.depths ts ≤ room ∧ Tree.exprs ts = ns := by
  constructor
  · intro h
    rw [all] at h
    cases hhalt : (Reading.all room .start (Lexeme.scan 0 source)).halt with
    | some halt => simp [hhalt] at h
    | none =>
        obtain ⟨ts, hyields, hexprs, hdepth, hrange⟩ := Reading.exists_trees_of_all hhalt
        refine ⟨ts, hyields.symm, hrange, hdepth, ?_⟩
        rw [hexprs]
        simpa [hhalt] using h
  · rintro ⟨ts, htokens, hrange, hdepth, rfl⟩
    rw [all, Reading.all_of_trees htokens hdepth hrange]

/-- The reader accepts exactly the grammar and builds the tree of the one derivation: a text reads
as `ns` when it splits into tokens, with numbers in range, that derive `ns` with at most `room`
forms open at once. There are never more of them than parentheses open at once in the text; a text
splits in one way at most, and a row of tokens has one derivation at most. -/
theorem all_ok_iff_derivation (room : Nat) (source : List Char) :
    (∀ ns, (all room source).outcome = .ok ns ↔
      ∃ ts : List Tree, Splits source (Tree.yields ts) ∧ (∀ tok ∈ Tree.yields ts, tok.InRange) ∧
        Tree.depths ts ≤ room ∧ Tree.exprs ts = ns) ∧
    (∀ ts : List Tree, Splits source (Tree.yields ts) → Tree.depths ts ≤ nesting 0 source) ∧
    (∀ toks toks', Splits source toks → Splits source toks' → toks = toks') ∧
    (∀ ts us : List Tree, Tree.yields ts = Tree.yields us → ts = us) := by
  refine ⟨fun ns => ?_, fun ts h => ?_, fun toks toks' h h' => ?_, fun ts us => ?_⟩
  · rw [all_eq_ok_iff]
    constructor
    · rintro ⟨ts, htokens, hrest⟩
      exact ⟨ts, splits_iff.mpr ⟨htokens, Tree.isKnown_yields ts⟩, hrest⟩
    · rintro ⟨ts, hsplits, hrest⟩
      exact ⟨ts, hsplits.tokens_eq, hrest⟩
  · have hle := (Tree.depths_le_nestingOf ts 0 []).1
    rw [Nat.zero_add, List.append_nil] at hle
    rw [h.nesting_eq]
    exact hle
  · rw [← h.tokens_eq, h'.tokens_eq]
  · exact Tree.yields_injective

end Source

end SproutLang
