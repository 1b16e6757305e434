import SproutLang.Expr.Printer
import SproutLang.Proofs.Reader

/-!
Printed expressions and what becomes of them when they are read again. Printing is described by the
tokens of the printed text: those of the derivation, with each number in its shortest form and each
name replaced by the tokens of whatever its key is spelled as.

A key whose spelling is remembered is spelled as one token with that key, so the tokens derive the
expression that was printed. A key whose spelling is lost is spelled as at least two tokens. Since
an expression determines how many tokens derive it, a text with a lost name has too many, and
whatever it reads as, it is not the expression that was printed.
-/

namespace SproutLang

/-! ### The keys of an expression, and how many tokens derive it -/

mutual

def Value.keys : Value → List Key
  | .function params body => params ++ Expr.keysOf body
  | _ => []

def Expr.keys : Expr → List Key
  | .literal v => v.keys
  | .ref k => [k]
  | .define k value => k :: value.keys
  | .call callee args => callee.keys ++ Expr.keysOf args
  | .stray _ => []

def Expr.keysOf : List Expr → List Key
  | [] => []
  | e :: es => e.keys ++ Expr.keysOf es

end

theorem Expr.mem_keysOf {es : List Expr} {e : Expr} (he : e ∈ es) {k : Key} (hk : k ∈ e.keys) :
    k ∈ Expr.keysOf es := by
  induction es with
  | nil => simp at he
  | cons e' es ih =>
      rw [Expr.keysOf, List.mem_append]
      rcases List.mem_cons.mp he with rfl | he
      · exact .inl hk
      · exact .inr (ih he)

mutual

def Value.span : Value → Nat
  | .function params body => params.length + Expr.spanOf body + 5
  | _ => 1

def Expr.span : Expr → Nat
  | .literal v => v.span
  | .ref _ => 1
  | .define _ value => value.span + 4
  | .call callee args => callee.span + Expr.spanOf args + 2
  | .stray _ => 1

def Expr.spanOf : List Expr → Nat
  | [] => 0
  | e :: es => e.span + Expr.spanOf es

end

namespace Tree

mutual

theorem length_yield (t : Tree) : t.yield.length = t.expr.span := by
  match t with
  | .falsity => rfl
  | .int run => rfl
  | .name run => rfl
  | .function params body =>
      have hbody := length_yields body
      simp only [yield, expr, Expr.span, Value.span, List.length_cons, List.length_append,
        List.length_map, List.length_nil, hbody]
      omega
  | .define target value =>
      have hvalue := length_yield value
      simp only [yield, expr, Expr.span, List.length_cons, List.length_append, List.length_nil,
        hvalue]
  | .call callee args =>
      have hcallee := length_yield callee
      have hargs := length_yields args
      simp only [yield, expr, Expr.span, List.length_cons, List.length_append, List.length_nil,
        hcallee, hargs]
      omega

theorem length_yields (ts : List Tree) : (yields ts).length = Expr.spanOf (exprs ts) := by
  match ts with
  | [] => rfl
  | t :: ts =>
      have hfirst := length_yield t
      have hrest := length_yields ts
      rw [yields, exprs, Expr.spanOf, List.length_append, hfirst, hrest]

end

mutual

/-- The keys of an expression are those of the names among its tokens. -/
theorem keys_expr (t : Tree) : t.expr.keys = (t.yield.flatMap Token.names).map Key.ofName := by
  match t with
  | .falsity => rfl
  | .int run => rfl
  | .name run => rfl
  | .function params body =>
      have hbody := keysOf_exprs body
      have hparams : (params.map Token.name).flatMap Token.names = params.map String.ofList := by
        induction params with
        | nil => rfl
        | cons p ps ih => rw [List.map_cons, List.flatMap_cons, ih]; rfl
      simp only [yield, expr, Expr.keys, Value.keys, hbody, List.flatMap_cons, List.flatMap_append,
        hparams]
      simp [Token.names, Reading.keyOf, Function.comp_def]
  | .define target value =>
      have hvalue := keys_expr value
      simp only [yield, expr, Expr.keys, hvalue, List.flatMap_cons, List.flatMap_append]
      simp [Token.names, Reading.keyOf]
  | .call callee args =>
      have hcallee := keys_expr callee
      have hargs := keysOf_exprs args
      simp only [yield, expr, Expr.keys, hcallee, hargs, List.flatMap_cons, List.flatMap_append]
      simp [Token.names]

theorem keysOf_exprs (ts : List Tree) :
    Expr.keysOf (exprs ts) = ((yields ts).flatMap Token.names).map Key.ofName := by
  match ts with
  | [] => rfl
  | t :: ts =>
      have hfirst := keys_expr t
      have hrest := keysOf_exprs ts
      rw [yields, exprs, Expr.keysOf, hfirst, hrest, List.flatMap_append, List.map_append]

end

end Tree

/-! ### The tokens of a printed text -/

section Printed

variable [Text.Alphabet]

/-- No token goes on into the text. -/
def Break (rest : List Char) : Prop :=
  ∀ t : Token, t.Ends rest

theorem break_nil : Break [] :=
  fun t => t.ends_nil

theorem break_blank {c : Char} (hc : Text.isBlank c = true) (rest : List Char) :
    Break (c :: rest) :=
  fun t => Token.ends_cons.mpr (t.absorbs_of_isBlank hc)

theorem break_space (rest : List Char) : Break (' ' :: rest) :=
  break_blank Text.isBlank_space rest

theorem break_rparen (rest : List Char) : Break (')' :: rest) := by
  intro t
  rw [Token.ends_cons]
  cases t with
  | digits run => exact (by decide : Text.isAsciiDigit ')' = false)
  | name run => exact Text.not_isAlphabetic_of_isSign (by decide)
  | unknown c => simp [Token.absorbs]
  | _ => rfl

/-- In front of a break, a text has the lexemes that it has alone. -/
theorem Lexeme.scan_append {rest : List Char} (hrest : Break rest) (pos : Nat) (text : List Char) :
    scan pos (text ++ rest) = scan pos text ++ scan (pos + text.length) rest := by
  induction text using text_induction generalizing pos with
  | nil => simp
  | blank c text hb ih =>
      rw [List.cons_append, scan_blank hb, scan_blank hb, ih, List.length_cons, Nat.add_assoc,
        Nat.add_comm 1]
  | token t text hwf hend ih =>
      have hend' : t.Ends (text ++ rest) := by
        cases text with
        | nil => exact hrest t
        | cons c text => exact Token.ends_cons.mpr (Token.ends_cons.mp hend)
      rw [List.append_assoc, scan_token hwf hend', scan_token hwf hend, ih, List.cons_append,
        List.length_append, Nat.add_assoc]

theorem tokens_append {rest : List Char} (hrest : Break rest) (text : List Char) :
    tokens (text ++ rest) = tokens text ++ tokens rest := by
  rw [tokens, Lexeme.scan_append hrest, List.map_append, map_token_scan, map_token_scan]

theorem tokens_space (rest : List Char) : tokens (' ' :: rest) = tokens rest :=
  tokens_blank Text.isBlank_space rest

theorem tokens_lparen (rest : List Char) : tokens ('(' :: rest) = .lparen :: tokens rest :=
  tokens_token (t := .lparen) trivial fun _ _ => rfl

theorem tokens_rparen (rest : List Char) : tokens (')' :: rest) = .rparen :: tokens rest :=
  tokens_token (t := .rparen) trivial fun _ _ => rfl

theorem tokens_equals (rest : List Char) : tokens ('=' :: rest) = .equals :: tokens rest :=
  tokens_token (t := .equals) trivial fun _ _ => rfl

theorem tokens_backslash (rest : List Char) : tokens ('\\' :: rest) = .backslash :: tokens rest :=
  tokens_token (t := .backslash) trivial fun _ _ => rfl

theorem tokens_falseMark (rest : List Char) :
    tokens ('#' :: 'f' :: rest) = .falseMark :: tokens rest :=
  tokens_token (t := .falseMark) trivial fun _ _ => rfl

/-- A run of one class of characters is one token. -/
theorem tokens_run {t : Token} (hwf : t.WellFormed) : tokens t.text = [t] := by
  have h := tokens_token hwf t.ends_nil
  rwa [List.append_nil, tokens_nil] at h

theorem wellFormed_toDigits (n : Nat) : (Token.digits (Nat.toDigits 10 n)).WellFormed := by
  refine ⟨Nat.toDigits_ne_nil, fun c hc => ?_⟩
  have hdigit := Nat.isDigit_of_mem_toDigits (by decide) (by decide) hc
  simp only [Char.isDigit, Bool.and_eq_true, decide_eq_true_eq, ge_iff_le,
    UInt32.le_iff_toNat_le] at hdigit
  simp only [Text.isAsciiDigit, Bool.and_eq_true, decide_eq_true_eq]
  exact hdigit

namespace Tree

mutual

/-- The tokens of a derivation when numbers are written in their shortest form and a name is
written as the tokens `word` of its key. -/
def shown (word : Key → List Token) : Tree → List Token
  | .falsity => [.falseMark]
  | .int run => [.digits (Nat.toDigits 10 (Text.decimalNumber run))]
  | .name run => word (Reading.keyOf run)
  | .function params body =>
      .lparen :: .backslash :: .lparen ::
        ((params.map Reading.keyOf).flatMap word ++ .rparen :: (shownAll word body ++ [.rparen]))
  | .define target value =>
      .lparen :: .equals :: (word (Reading.keyOf target) ++ (value.shown word ++ [.rparen]))
  | .call callee args => .lparen :: (callee.shown word ++ (shownAll word args ++ [.rparen]))

def shownAll (word : Key → List Token) : List Tree → List Token
  | [] => []
  | t :: ts => t.shown word ++ shownAll word ts

end

end Tree

def wordOf (spell : Key → String) (k : Key) : List Token :=
  tokens (spell k).toList

theorem tokens_joinWith {spell : Key → String} {rest : List Char} (hrest : Break rest)
    (ks : List Key) :
    tokens ((Text.joinWith " " (ks.map spell)).toList ++ rest) =
      ks.flatMap (wordOf spell) ++ tokens rest := by
  induction ks with
  | nil => rfl
  | cons k ks ih =>
      cases ks with
      | nil =>
          have hword := tokens_append hrest (spell k).toList
          simpa [Text.joinWith, wordOf] using hword
      | cons l ls =>
          have hjoin : Text.joinWith " " ((k :: l :: ls).map spell) =
              spell k ++ " " ++ Text.joinWith " " ((l :: ls).map spell) := rfl
          have hspace : " ".toList = [' '] := rfl
          rw [hjoin, String.toList_append, String.toList_append, hspace, List.append_assoc,
            List.append_assoc, List.singleton_append, tokens_append (break_space _), tokens_space,
            ih, ← List.append_assoc]
          rfl

omit [Text.Alphabet] in
/-- A number is printed in its shortest form. -/
theorem toList_toString_int (n : Nat) : (toString (n : Int)).toList = Nat.toDigits 10 n :=
  Nat.toList_repr

mutual

/-- The tokens of a printed expression. -/
theorem tokens_render (spell : Key → String) (t : Tree) {rest : List Char} (hrest : Break rest) :
    tokens ((t.expr.render spell).toList ++ rest) = t.shown (wordOf spell) ++ tokens rest := by
  match t with
  | .falsity =>
      rw [Tree.expr, Expr.render, Value.render, Tree.shown]
      exact tokens_falseMark rest
  | .int run =>
      rw [Tree.expr, Expr.render, Value.render, Tree.shown, toList_toString_int]
      exact tokens_token (wellFormed_toDigits _) (hrest _)
  | .name run =>
      rw [Tree.expr, Expr.render, Tree.shown]
      exact tokens_append hrest _
  | .function params body =>
      obtain ⟨-, hbody⟩ := tokens_renderEach spell body (break_rparen rest)
      have hopen : "(\\(".toList = ['(', '\\', '('] := rfl
      have hclose : ")".toList = [')'] := rfl
      rw [Tree.expr, Expr.render, Value.render, Tree.shown]
      simp only [String.toList_append, hopen, hclose, List.append_assoc, List.cons_append,
        List.nil_append, tokens_lparen, tokens_backslash, tokens_joinWith (break_rparen _),
        tokens_rparen, hbody]
  | .define target value =>
      have hvalue := tokens_render spell value (break_rparen rest)
      have hopen : "(= ".toList = ['(', '=', ' '] := rfl
      have hspace : " ".toList = [' '] := rfl
      have hclose : ")".toList = [')'] := rfl
      rw [Tree.expr, Expr.render, Tree.shown]
      simp only [String.toList_append, hopen, hspace, hclose, List.append_assoc, List.cons_append,
        List.nil_append, tokens_lparen, tokens_equals, tokens_space, tokens_rparen,
        tokens_append (break_space _), hvalue, wordOf]
  | .call callee args =>
      obtain ⟨hbreak, hargs⟩ := tokens_renderEach spell args (break_rparen rest)
      have hcallee := tokens_render spell callee hbreak
      have hopen : "(".toList = ['('] := rfl
      have hclose : ")".toList = [')'] := rfl
      rw [Tree.expr, Expr.render, Tree.shown]
      simp only [String.toList_append, hopen, hclose, List.append_assoc, List.cons_append,
        List.nil_append, tokens_lparen, hcallee, hargs, tokens_rparen]

/-- The same for expressions in a row, which starts with a space unless it is empty. -/
theorem tokens_renderEach (spell : Key → String) (ts : List Tree) {rest : List Char}
    (hrest : Break rest) :
    Break ((Expr.renderEach spell (Tree.exprs ts)).toList ++ rest) ∧
      tokens ((Expr.renderEach spell (Tree.exprs ts)).toList ++ rest) =
        Tree.shownAll (wordOf spell) ts ++ tokens rest := by
  match ts with
  | [] => exact ⟨hrest, rfl⟩
  | t :: ts =>
      obtain ⟨hbreak, hmore⟩ := tokens_renderEach spell ts hrest
      have hfirst := tokens_render spell t hbreak
      have htext : (Expr.renderEach spell (Tree.exprs (t :: ts))).toList ++ rest =
          ' ' :: ((t.expr.render spell).toList ++
            ((Expr.renderEach spell (Tree.exprs ts)).toList ++ rest)) := by
        rw [Tree.exprs, Expr.renderEach, String.toList_append, String.toList_append,
          List.append_assoc, List.append_assoc]
        rfl
      rw [htext, tokens_space, hfirst, hmore, Tree.shownAll, List.append_assoc]
      exact ⟨break_space _, rfl⟩

end

end Printed

/-! ### The number of tokens of a printed expression -/

namespace Tree

mutual

/-- A printed expression has as many tokens as derive it, except that a name counts for as many as
its word has. -/
theorem length_shown (word : Key → List Token) (t : Tree) :
    (t.shown word).length + t.expr.keys.length =
      t.expr.span + (t.expr.keys.flatMap word).length := by
  match t with
  | .falsity => rfl
  | .int run => rfl
  | .name run =>
      simp only [shown, expr, Expr.keys, Expr.span, List.flatMap_cons, List.flatMap_nil,
        List.append_nil, List.length_cons, List.length_nil]
      omega
  | .function params body =>
      have hbody := length_shownAll word body
      simp only [shown, expr, Expr.keys, Value.keys, Expr.span, Value.span, List.length_cons,
        List.length_append, List.length_nil, List.length_map, List.flatMap_append]
      omega
  | .define target value =>
      have hvalue := length_shown word value
      simp only [shown, expr, Expr.keys, Expr.span, List.length_cons, List.length_append,
        List.length_nil, List.flatMap_cons]
      omega
  | .call callee args =>
      have hcallee := length_shown word callee
      have hargs := length_shownAll word args
      simp only [shown, expr, Expr.keys, Expr.span, List.length_cons, List.length_append,
        List.length_nil, List.flatMap_append]
      omega

theorem length_shownAll (word : Key → List Token) (ts : List Tree) :
    (shownAll word ts).length + (Expr.keysOf (exprs ts)).length =
      Expr.spanOf (exprs ts) + ((Expr.keysOf (exprs ts)).flatMap word).length := by
  match ts with
  | [] => rfl
  | t :: ts =>
      have hfirst := length_shown word t
      have hrest := length_shownAll word ts
      simp only [shownAll, exprs, Expr.keysOf, Expr.spanOf, List.length_append,
        List.flatMap_append]
      omega

end

theorem length_le_length_flatMap {word : Key → List Token} {ks : List Key}
    (hall : ∀ k ∈ ks, 1 ≤ (word k).length) : ks.length ≤ (ks.flatMap word).length := by
  induction ks with
  | nil => exact Nat.le_refl 0
  | cons k ks ih =>
      rw [List.forall_mem_cons] at hall
      have hrest := ih hall.2
      rw [List.flatMap_cons, List.length_append, List.length_cons]
      omega

/-- When each name is written as at least one token, and some name as more, then there are more
tokens than derive the expression. -/
theorem span_lt_length_shown {word : Key → List Token} {t : Tree}
    (hall : ∀ k ∈ t.expr.keys, 1 ≤ (word k).length) {k : Key} (hk : k ∈ t.expr.keys)
    (hlong : 1 < (word k).length) : t.expr.span < (t.shown word).length := by
  have hcount := length_shown word t
  -- The keys before the long one and those after it have at least a token each.
  obtain ⟨before, after, hkeys⟩ := List.append_of_mem hk
  rw [hkeys, List.forall_mem_append, List.forall_mem_cons] at hall
  have hbefore := length_le_length_flatMap hall.1
  have hafter := length_le_length_flatMap hall.2.2
  rw [hkeys] at hcount
  simp only [List.flatMap_append, List.flatMap_cons, List.length_append, List.length_cons] at hcount
  omega

end Tree

end SproutLang
