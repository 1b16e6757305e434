import SproutLang.Proofs.Tokens
import SproutLang.Reading

/-!
The grammar of the language, over tokens:

    expr ::= #f | int | ident | ( \ ( ident* ) expr* ) | ( = ident expr ) | ( expr expr* )

A derivation is a `Tree`, with one constructor for each alternative. Its `yield` is the row of
tokens that it derives and its `expr` the expression that they stand for. A row of tokens has at
most one derivation: the alternatives are told apart by their first two tokens, and no derivable
row is a proper part of another from the start.
-/

namespace SproutLang

/-- A derivation of an expression, with the spellings of its numbers and names. -/
inductive Tree
  | falsity
  | int (run : List Char)
  | name (run : List Char)
  | function (params : List (List Char)) (body : List Tree)
  | define (target : List Char) (value : Tree)
  | call (callee : Tree) (args : List Tree)

namespace Tree

mutual

def yield : Tree → List Token
  | .falsity => [.falseMark]
  | .int run => [.digits run]
  | .name run => [.name run]
  | .function params body =>
      .lparen :: .backslash :: .lparen ::
        (params.map Token.name ++ .rparen :: (yields body ++ [.rparen]))
  | .define target value => .lparen :: .equals :: .name target :: (value.yield ++ [.rparen])
  | .call callee args => .lparen :: (callee.yield ++ (yields args ++ [.rparen]))

def yields : List Tree → List Token
  | [] => []
  | t :: ts => t.yield ++ yields ts

end

mutual

def expr : Tree → Expr
  | .falsity => .literal .falsity
  | .int run => .literal (.int (Text.decimalNumber run))
  | .name run => .ref (Reading.keyOf run)
  | .function params body => .literal (.function (params.map Reading.keyOf) (exprs body))
  | .define target value => .define (Reading.keyOf target) value.expr
  | .call callee args => .call callee.expr (exprs args)

def exprs : List Tree → List Expr
  | [] => []
  | t :: ts => t.expr :: exprs ts

end

mutual

def depth : Tree → Nat
  | .falsity => 0
  | .int _ => 0
  | .name _ => 0
  | .function _ body => depths body + 1
  | .define _ value => value.depth + 1
  | .call callee args => max callee.depth (depths args) + 1

def depths : List Tree → Nat
  | [] => 0
  | t :: ts => max t.depth (depths ts)

end

theorem yields_append (ts us : List Tree) : yields (ts ++ us) = yields ts ++ yields us := by
  induction ts with
  | nil => rfl
  | cons t ts ih => rw [List.cons_append, yields, yields, ih, List.append_assoc]

theorem exprs_append (ts us : List Tree) : exprs (ts ++ us) = exprs ts ++ exprs us := by
  induction ts with
  | nil => rfl
  | cons t ts ih => rw [List.cons_append, exprs, exprs, ih, List.cons_append]

theorem depths_append (ts us : List Tree) :
    depths (ts ++ us) = max (depths ts) (depths us) := by
  induction ts with
  | nil => simp [depths]
  | cons t ts ih => rw [List.cons_append, depths, depths, ih, Nat.max_assoc]

end Tree

/-! ### Unambiguity -/

def Token.opens : Token → Bool
  | .falseMark | .digits _ | .name _ | .lparen => true
  | _ => false

/-- No expression starts here: the row of tokens is at its end, or begins with a token that opens
none. -/
def Closed (x : List Token) : Prop :=
  ∀ tok ∈ x.head?, tok.opens = false

theorem closed_nil : Closed [] := by
  simp [Closed]

theorem closed_cons {tok : Token} (h : tok.opens = false) (x : List Token) : Closed (tok :: x) := by
  simp [Closed, h]

theorem closed_rparen (x : List Token) : Closed (.rparen :: x) :=
  closed_cons rfl x

namespace Tree

theorem yield_eq_cons (t : Tree) : ∃ tok rest, t.yield = tok :: rest ∧ tok.opens = true := by
  cases t <;> exact ⟨_, _, by rw [yield], rfl⟩

theorem yield_append_ne {x : List Token} (hx : Closed x) (t : Tree) (y : List Token) :
    t.yield ++ y ≠ x := by
  rintro rfl
  obtain ⟨first, rest, hyield, hopens⟩ := t.yield_eq_cons
  have hfirst := hx first (by simp [hyield])
  rw [hopens] at hfirst
  contradiction

theorem map_name_append_inj {ps qs : List (List Char)} {x y : List Token}
    (h : ps.map Token.name ++ .rparen :: x = qs.map Token.name ++ .rparen :: y) :
    ps = qs ∧ x = y := by
  induction ps generalizing qs with
  | nil =>
      cases qs with
      | nil => simpa using h
      | cons q qs => simp at h
  | cons p ps ih =>
      cases qs with
      | nil => simp at h
      | cons q qs =>
          simp only [List.map_cons, List.cons_append, List.cons.injEq, Token.name.injEq] at h
          obtain ⟨rfl, h⟩ := h
          obtain ⟨rfl, rfl⟩ := ih h
          exact ⟨rfl, rfl⟩

mutual

/-- Of two derivations whose tokens start one and the same row, neither is longer and both are the
same. -/
theorem yield_append_inj (t u : Tree) {x y : List Token} (h : t.yield ++ x = u.yield ++ y) :
    t = u ∧ x = y := by
  match t with
  | .falsity => cases u <;> simp_all [yield]
  | .int run => cases u <;> simp_all [yield]
  | .name run => cases u <;> simp_all [yield]
  | .function params body =>
      cases u with
      | function params' body' =>
          simp only [yield, List.cons_append, List.append_assoc, List.cons.injEq, true_and] at h
          obtain ⟨rfl, hbody⟩ := map_name_append_inj h
          obtain ⟨rfl, hrest⟩ :=
            yields_append_inj body body' (closed_rparen _) (closed_rparen _) hbody
          exact ⟨rfl, by simpa using hrest⟩
      | call callee args =>
          -- After the first parenthesis a call goes on with an expression, the other two forms
          -- with a token that starts none.
          simp only [yield, List.cons_append, List.append_assoc, List.cons.injEq, true_and] at h
          exact absurd h.symm (yield_append_ne (closed_cons rfl _) callee _)
      | _ => simp [yield] at h
  | .define target value =>
      cases u with
      | define target' value' =>
          simp only [yield, List.cons_append, List.append_assoc, List.cons.injEq, true_and,
            Token.name.injEq] at h
          obtain ⟨rfl, hvalue⟩ := h
          obtain ⟨rfl, hrest⟩ := yield_append_inj value value' hvalue
          exact ⟨rfl, by simpa using hrest⟩
      | call callee args =>
          simp only [yield, List.cons_append, List.append_assoc, List.cons.injEq, true_and] at h
          exact absurd h.symm (yield_append_ne (closed_cons rfl _) callee _)
      | _ => simp [yield] at h
  | .call callee args =>
      cases u with
      | call callee' args' =>
          simp only [yield, List.cons_append, List.append_assoc, List.cons.injEq, true_and] at h
          obtain ⟨rfl, hargs⟩ := yield_append_inj callee callee' h
          obtain ⟨rfl, hrest⟩ :=
            yields_append_inj args args' (closed_rparen _) (closed_rparen _) hargs
          exact ⟨rfl, by simpa using hrest⟩
      | function params body =>
          simp only [yield, List.cons_append, List.append_assoc, List.cons.injEq, true_and] at h
          exact absurd h (yield_append_ne (closed_cons rfl _) callee _)
      | define target value =>
          simp only [yield, List.cons_append, List.append_assoc, List.cons.injEq, true_and] at h
          exact absurd h (yield_append_ne (closed_cons rfl _) callee _)
      | _ => simp [yield] at h

theorem yields_append_inj (ts us : List Tree) {x y : List Token}
    (hx : Closed x) (hy : Closed y) (h : yields ts ++ x = yields us ++ y) : ts = us ∧ x = y := by
  match ts, us with
  | [], [] => exact ⟨rfl, by simpa [yields] using h⟩
  | [], u :: us =>
      rw [yields, yields, List.nil_append, List.append_assoc] at h
      exact absurd h.symm (yield_append_ne hx u _)
  | t :: ts, [] =>
      rw [yields, yields, List.nil_append, List.append_assoc] at h
      exact absurd h (yield_append_ne hy t _)
  | t :: ts, u :: us =>
      rw [yields, yields, List.append_assoc, List.append_assoc] at h
      obtain ⟨rfl, hrest⟩ := yield_append_inj t u h
      obtain ⟨rfl, hend⟩ := yields_append_inj ts us hx hy hrest
      exact ⟨rfl, hend⟩

end

/-- The grammar is unambiguous: a row of tokens has at most one derivation. -/
theorem yields_injective {ts us : List Tree} (h : yields ts = yields us) : ts = us := by
  have hnil : yields ts ++ [] = yields us ++ [] := by rw [h]
  exact (yields_append_inj ts us closed_nil closed_nil hnil).1

end Tree

/-! ### Nesting -/

/-- The greatest number of parentheses that are open at once in a text, when `opened` of them are
open at its start. -/
def nesting (opened : Nat) : List Char → Nat
  | [] => opened
  | c :: rest =>
      if c = '(' then nesting (opened + 1) rest
      else if c = ')' then max opened (nesting (opened - 1) rest)
      else nesting opened rest

def nestingOf (opened : Nat) : List Token → Nat
  | [] => opened
  | .lparen :: rest => nestingOf (opened + 1) rest
  | .rparen :: rest => max opened (nestingOf (opened - 1) rest)
  | _ :: rest => nestingOf opened rest

theorem nesting_append {opened : Nat} {run : List Char} (rest : List Char)
    (h : ∀ c ∈ run, c ≠ '(' ∧ c ≠ ')') :
    nesting opened (run ++ rest) = nesting opened rest := by
  induction run with
  | nil => rfl
  | cons c run ih =>
      obtain ⟨hl, hr⟩ := h c (by simp)
      rw [List.cons_append, nesting, if_neg hl, if_neg hr,
        ih fun d hd => h d (List.mem_cons_of_mem _ hd)]

theorem ne_paren_of_class {p : Char → Bool} (hl : p '(' = false) (hr : p ')' = false) {c : Char}
    (h : p c = true) : c ≠ '(' ∧ c ≠ ')' := by
  constructor
  · rintro rfl
    simp [hl] at h
  · rintro rfl
    simp [hr] at h

/-- In a text that splits into tokens, the parentheses are the tokens of that name. -/
theorem Splits.nesting_eq [Text.Alphabet] {text : List Char} {ts : List Token} (h : Splits text ts)
    (opened : Nat) : nesting opened text = nestingOf opened ts := by
  induction h generalizing opened with
  | nil => rfl
  | blank hb _ ih =>
      obtain ⟨hl, hr⟩ := ne_paren_of_class (Text.not_isBlank_of_isSign (by decide))
        (Text.not_isBlank_of_isSign (by decide)) hb
      rw [nesting, if_neg hl, if_neg hr, ih]
  | @token t rest ts hk hwf _ _ ih =>
      cases t with
      | digits run =>
          rw [Token.text, nesting_append rest fun c hc =>
            ne_paren_of_class (by decide) (by decide) (hwf.2 c hc), ih]
          rfl
      | name run =>
          rw [Token.text, nesting_append rest fun c hc =>
            ne_paren_of_class (Text.not_isAlphabetic_of_isSign (by decide))
              (Text.not_isAlphabetic_of_isSign (by decide)) (hwf.2 c hc), ih]
          rfl
      | unknown c => simp [Token.IsKnown, Token.kind?] at hk
      | _ => simp [Token.text, nesting, nestingOf, ih]

theorem le_nestingOf (opened : Nat) (x : List Token) : opened ≤ nestingOf opened x := by
  induction x generalizing opened with
  | nil => exact Nat.le_refl _
  | cons tok x ih =>
      cases tok with
      | lparen =>
          have := ih (opened + 1)
          rw [nestingOf]
          omega
      | rparen => exact Nat.le_max_left _ _
      | _ => exact ih opened

theorem nestingOf_names (opened : Nat) (ps : List (List Char)) (x : List Token) :
    nestingOf opened (ps.map Token.name ++ x) = nestingOf opened x := by
  induction ps with
  | nil => rfl
  | cons p ps ih => exact ih

namespace Tree

mutual

/-- The forms of a derivation are among the parentheses that its tokens open, and these are closed
again. -/
theorem depth_le_nestingOf (t : Tree) (opened : Nat) (x : List Token) :
    opened + t.depth ≤ nestingOf opened (t.yield ++ x) ∧
      nestingOf opened x ≤ nestingOf opened (t.yield ++ x) := by
  match t with
  | .falsity => exact ⟨le_nestingOf opened _, Nat.le_refl _⟩
  | .int run => exact ⟨le_nestingOf opened _, Nat.le_refl _⟩
  | .name run => exact ⟨le_nestingOf opened _, Nat.le_refl _⟩
  | .function params body =>
      have hbody := depths_le_nestingOf body (opened + 1) (.rparen :: x)
      simp only [yield, depth, List.cons_append, List.append_assoc, List.nil_append, nestingOf,
        nestingOf_names, Nat.add_sub_cancel] at hbody ⊢
      omega
  | .define target value =>
      have hvalue := depth_le_nestingOf value (opened + 1) (.rparen :: x)
      simp only [yield, depth, List.cons_append, List.append_assoc, List.nil_append, nestingOf,
        Nat.add_sub_cancel] at hvalue ⊢
      omega
  | .call callee args =>
      have hcallee := depth_le_nestingOf callee (opened + 1) (yields args ++ .rparen :: x)
      have hargs := depths_le_nestingOf args (opened + 1) (.rparen :: x)
      simp only [yield, depth, List.cons_append, List.append_assoc, List.nil_append, nestingOf,
        Nat.add_sub_cancel] at hcallee hargs ⊢
      omega

theorem depths_le_nestingOf (ts : List Tree) (opened : Nat) (x : List Token) :
    opened + depths ts ≤ nestingOf opened (yields ts ++ x) ∧
      nestingOf opened x ≤ nestingOf opened (yields ts ++ x) := by
  match ts with
  | [] => exact ⟨le_nestingOf opened _, Nat.le_refl _⟩
  | t :: ts =>
      have hfirst := depth_le_nestingOf t opened (yields ts ++ x)
      have hrest := depths_le_nestingOf ts opened x
      rw [yields, depths, List.append_assoc]
      omega

end

mutual

theorem isKnown_yield (t : Tree) : ∀ tok ∈ t.yield, tok.IsKnown := by
  intro tok htok
  match t with
  | .falsity =>
      obtain rfl : tok = .falseMark := List.mem_singleton.mp htok
      rfl
  | .int run =>
      obtain rfl : tok = .digits run := List.mem_singleton.mp htok
      rfl
  | .name run =>
      obtain rfl : tok = .name run := List.mem_singleton.mp htok
      rfl
  | .function params body =>
      simp only [yield, List.mem_cons, List.mem_append, List.mem_map, List.not_mem_nil,
        or_false] at htok
      obtain rfl | rfl | rfl | ⟨p, -, rfl⟩ | rfl | htok | rfl := htok
      case inr.inr.inr.inr.inr.inl => exact isKnown_yields body tok htok
      all_goals rfl
  | .define target value =>
      simp only [yield, List.mem_cons, List.mem_append, List.not_mem_nil, or_false] at htok
      obtain rfl | rfl | rfl | htok | rfl := htok
      case inr.inr.inr.inl => exact isKnown_yield value tok htok
      all_goals rfl
  | .call callee args =>
      simp only [yield, List.mem_cons, List.mem_append, List.not_mem_nil, or_false] at htok
      obtain rfl | htok | htok | rfl := htok
      · rfl
      · exact isKnown_yield callee tok htok
      · exact isKnown_yields args tok htok
      · rfl

theorem isKnown_yields (ts : List Tree) : ∀ tok ∈ yields ts, tok.IsKnown := by
  intro tok htok
  match ts with
  | [] => simp [yields] at htok
  | t :: ts =>
      rw [yields, List.mem_append] at htok
      obtain htok | htok := htok
      · exact isKnown_yield t tok htok
      · exact isKnown_yields ts tok htok

end

end Tree

end SproutLang
