import SproutLang.Proofs.Printing
import SproutLang.Proofs.Spellings
import SproutLang.Session

/-!
Printing and reading again. Reading keeps a table of spellings faithful, and under a faithful table
the printed form of an expression that was read reads as that expression exactly when every name in
it has an entry.
-/

namespace SproutLang

/-! ### The spelling of a name that was lost -/

theorem exists_digit_of_mem_toDigits {b n : Nat} (hb : 1 < b) {c : Char}
    (h : c ∈ Nat.toDigits b n) : ∃ d, d < b ∧ c = Nat.digitChar d := by
  induction n using Nat.strongRecOn with
  | ind n ih =>
      rcases Nat.lt_or_ge n b with hlt | hge
      · rw [Nat.toDigits_of_lt_base hlt, List.mem_singleton] at h
        exact ⟨n, hlt, h⟩
      · rw [Nat.toDigits_of_base_le hb hge, List.mem_append, List.mem_singleton] at h
        rcases h with h | rfl
        · exact ih (n / b) (Nat.div_lt_self (by omega) hb) h
        · exact ⟨n % b, Nat.mod_lt _ (by omega), rfl⟩

theorem le_length_hexDigits (width n : Nat) : width ≤ (Text.hexDigits width n).length := by
  rw [Text.hexDigits, List.leftpad, List.length_append, List.length_replicate]
  omega

section Words

variable [Text.Alphabet]

theorem not_isBlank_of_digitChar {d : Nat} (hd : d < 16) :
    Text.isBlank (Nat.digitChar d) = false := by
  -- The first ten digits are signs of the language and the other six are letters.
  have hkind : ∀ i : Fin 16, Text.isSign (Nat.digitChar i) = true ∨
      97 ≤ (Nat.digitChar i).toNat ∧ (Nat.digitChar i).toNat ≤ 122 := by decide
  rcases hkind ⟨d, hd⟩ with hsign | ⟨hlow, hhigh⟩
  · exact Text.not_isBlank_of_isSign hsign
  · by_contra hblank
    have hletter := Text.isAlphabetic_of_lower hlow hhigh
    rw [Text.not_isAlphabetic_of_isBlank (eq_true_of_ne_false hblank)] at hletter
    contradiction

theorem not_isBlank_of_mem_hexDigits {width n : Nat} {c : Char} (h : c ∈ Text.hexDigits width n) :
    Text.isBlank c = false := by
  rw [Text.hexDigits, List.leftpad, List.mem_append] at h
  rcases h with h | h
  · rw [List.eq_of_mem_replicate h]
    exact Text.not_isBlank_of_isSign (by decide)
  · obtain ⟨d, hd, rfl⟩ := exists_digit_of_mem_toDigits (by decide) h
    exact not_isBlank_of_digitChar hd

/-- What stands for a lost name is never one token: the sign `#` is no token of its own, and where
it makes one with a first digit `f`, there are more digits. -/
theorem one_lt_length_tokens_anonymous (k : Key) : 1 < (tokens k.anonymous.toList).length := by
  have htext : k.anonymous.toList = '#' :: Text.hexDigits 16 k.number := by
    have hsign : "#".toList = ['#'] := rfl
    rw [Key.anonymous, String.toList_append, hsign, String.toList_ofList, List.singleton_append]
  have hlen := le_length_hexDigits 16 k.number
  have hdark : ∀ c ∈ Text.hexDigits 16 k.number, Text.isBlank c = false :=
    fun _ hc => not_isBlank_of_mem_hexDigits hc
  rw [htext]
  generalize Text.hexDigits 16 k.number = digits at hlen hdark
  match digits with
  | [] | [_] => simp at hlen
  | c :: d :: digits =>
      by_cases hc : c = 'f'
      · subst hc
        have hmore := tokens_ne_nil (List.mem_cons_self (l := digits)) (hdark d (by simp))
        rw [tokens_falseMark, List.length_cons]
        exact Nat.succ_lt_succ (List.length_pos_iff.mpr hmore)
      · have hmore := tokens_ne_nil (List.mem_cons_self (l := d :: digits)) (hdark c (by simp))
        have hwf : (Token.unknown '#').WellFormed :=
          ⟨Text.not_isBlank_of_isSign (by decide), by decide,
            Text.not_isAlphabetic_of_isSign (by decide), by decide⟩
        have hend : (Token.unknown '#').Ends (c :: d :: digits) := by
          rw [Token.ends_cons]
          simp [Token.absorbs, hc]
        have hsign : tokens ('#' :: c :: d :: digits) = .unknown '#' :: tokens (c :: d :: digits) :=
          tokens_token hwf hend
        rw [hsign, List.length_cons]
        exact Nat.succ_lt_succ (List.length_pos_iff.mpr hmore)

/-! ### Words of a faithful table -/

/-- The key is written as one token, which has that key. -/
def Named (word : Key → List Token) (k : Key) : Prop :=
  ∃ run, word k = [.name run] ∧ Reading.keyOf run = k

/-- Under a faithful table a key is written as one token, which has that key, if it has an entry,
and otherwise as more than one. -/
theorem Spellings.Faithful.wordOf_spell {T : Spellings} (hT : T.Faithful) (k : Key) :
    if (T.find? k).isSome then Named (wordOf T.spell) k
    else 1 < (wordOf T.spell k).length := by
  cases hfind : T.find? k with
  | some name =>
      obtain ⟨hkey, hwf⟩ := hT _ (mem_of_find? hfind)
      refine ⟨name.toList, ?_, ?_⟩
      · rw [wordOf, spell, hfind]
        exact tokens_run hwf
      · rw [Reading.keyOf, String.ofList_toList]
        exact hkey
  | none =>
      have hword : wordOf T.spell k = tokens k.anonymous.toList := by
        rw [wordOf, spell, hfind]
        rfl
      simp only [Option.isSome_none, Bool.false_eq_true, if_false, hword]
      exact one_lt_length_tokens_anonymous k

end Words

/-! ### The names that reading enters -/

theorem Reading.mem_namesOf_of_all {room : Nat} {s : State} {ls : List Lexeme} {name : String}
    (h : name ∈ (all room s ls).names) : name ∈ namesOf ls := by
  induction ls generalizing s with
  | nil =>
      rw [all.eq_def] at h
      split at h <;> simp_all
  | cons l ls ih =>
      rw [namesOf_cons, List.mem_append]
      rw [all] at h
      split at h
      · rcases List.mem_append.mp h with hfirst | hrest
        · exact .inl hfirst
        · exact .inr (ih hrest)
      · rcases List.mem_append.mp h with hfirst | hrest
        · exact .inl hfirst
        · exact .inr (ih hrest)
      all_goals simp at h

namespace Source

variable [Text.Alphabet]

/-- Whatever reading a text enters in a table are names, also when the reading fails. -/
theorem wellFormed_of_mem_names {room : Nat} {text : List Char} {name : String}
    (h : name ∈ (all room text).names) : (Token.name name.toList).WellFormed := by
  obtain ⟨l, hl, hname⟩ := List.mem_flatMap.mp (Reading.mem_namesOf_of_all h)
  have hwf := wellFormed_of_mem_tokens (List.mem_map_of_mem (f := Lexeme.token) hl)
  cases htok : l.token with
  | name run =>
      rw [htok] at hname hwf
      rw [List.mem_singleton.mp hname, String.toList_ofList]
      exact hwf
  | _ =>
      rw [htok] at hname
      simp [Token.names] at hname

theorem names_of_ok {room : Nat} {source : List Char} {ns : List Expr}
    (h : (all room source).outcome = .ok ns) :
    Expr.keysOf ns = (all room source).names.map Key.ofName := by
  obtain ⟨ts, htokens, hrange, hdepth, rfl⟩ := all_eq_ok_iff.mp h
  have hnames : (all room source).names = Reading.namesOf (Lexeme.scan 0 source) := by
    rw [all, Reading.all_of_trees htokens hdepth hrange]
  rw [Tree.keysOf_exprs, ← htokens, hnames, tokens, List.flatMap_map, Reading.namesOf]

end Source

/-! ### Printed expressions read again -/

namespace Tree

mutual

theorem height_expr (t : Tree) : t.expr.height = t.depth := by
  match t with
  | .falsity | .int _ | .name _ => rfl
  | .function params body =>
      have hbody := heightOf_exprs body
      rw [expr, Expr.height, Value.height, hbody, depth]
  | .define target value =>
      have hvalue := height_expr value
      rw [expr, Expr.height, hvalue, depth]
  | .call callee args =>
      have hcallee := height_expr callee
      have hargs := heightOf_exprs args
      rw [expr, Expr.height, hcallee, hargs, depth]

theorem heightOf_exprs (ts : List Tree) : Expr.heightOf (exprs ts) = depths ts := by
  match ts with
  | [] => rfl
  | t :: ts =>
      have hfirst := height_expr t
      have hrest := heightOf_exprs ts
      rw [exprs, Expr.heightOf, hfirst, hrest, depths]

end

mutual

theorem firstStray?_expr (t : Tree) : t.expr.firstStray? = none := by
  match t with
  | .falsity | .int _ | .name _ => rfl
  | .function params body =>
      rw [expr, Expr.firstStray?, Value.firstStray?]
      exact firstStrayIn?_exprs body
  | .define target value =>
      rw [expr, Expr.firstStray?]
      exact firstStray?_expr value
  | .call callee args =>
      have hcallee := firstStray?_expr callee
      have hargs := firstStrayIn?_exprs args
      rw [expr, Expr.firstStray?, hcallee, hargs]

theorem firstStrayIn?_exprs (ts : List Tree) : Expr.firstStrayIn? (exprs ts) = none := by
  match ts with
  | [] => rfl
  | t :: ts =>
      have hfirst := firstStray?_expr t
      have hrest := firstStrayIn?_exprs ts
      rw [exprs, Expr.firstStrayIn?, hfirst, hrest]

end

theorem render?_expr {depth : Nat} {t : Tree} (h : t.depth ≤ depth) (spell : Key → String) :
    t.expr.render? depth spell = .ok (t.expr.render spell) := by
  have hheight : ¬ depth < t.expr.height := by
    rw [t.height_expr]
    omega
  rw [Expr.render?, Expr.printFault?, if_neg hheight, t.firstStray?_expr]
  rfl

theorem inRange_toDigits {run : List Char} (h : (Token.digits run).InRange) :
    (Token.digits (Nat.toDigits 10 (Text.decimalNumber run))).InRange ∧
      Text.decimalNumber (Nat.toDigits 10 (Text.decimalNumber run)) = Text.decimalNumber run := by
  have hvalue (n : Nat) : Text.decimalNumber (Nat.toDigits 10 n) = n :=
    Nat.ofDigitChars_ten_toDigits
  obtain ⟨-, hle⟩ := h
  have hlen : (Nat.toDigits 10 (Text.decimalNumber run)).length ≤ 20 := by
    rw [Nat.length_toDigits_le_iff (by decide) (by decide)]
    omega
  refine ⟨⟨by omega, ?_⟩, hvalue _⟩
  rw [hvalue]
  exact hle

theorem exists_runs {word : Key → List Token} {ks : List Key} (h : ∀ k ∈ ks, Named word k) :
    ∃ runs : List (List Char), ks.flatMap word = runs.map Token.name ∧
      runs.map Reading.keyOf = ks := by
  induction ks with
  | nil => exact ⟨[], rfl, rfl⟩
  | cons k ks ih =>
      obtain ⟨run, hword, hkey⟩ := h k (by simp)
      obtain ⟨runs, hruns, hkeys⟩ := ih fun l hl => h l (List.mem_cons_of_mem _ hl)
      refine ⟨run :: runs, ?_, ?_⟩
      · rw [List.flatMap_cons, hword, hruns, List.map_cons, List.singleton_append]
      · rw [List.map_cons, hkey, hkeys]

mutual

/-- Where each name is written as one token with its key, what is printed has a derivation too, of
the same expression. -/
theorem exists_respelled {word : Key → List Token} (t : Tree)
    (hword : ∀ k ∈ t.expr.keys, Named word k) (hrange : ∀ tok ∈ t.yield, tok.InRange) :
    ∃ u : Tree, u.yield = t.shown word ∧ u.expr = t.expr ∧ ∀ tok ∈ u.yield, tok.InRange := by
  match t with
  | .falsity => exact ⟨.falsity, rfl, rfl, hrange⟩
  | .int run =>
      obtain ⟨hrange', hvalue⟩ := inRange_toDigits (hrange (.digits run) (by simp [yield]))
      refine ⟨.int (Nat.toDigits 10 (Text.decimalNumber run)), rfl, ?_, ?_⟩
      · rw [expr, hvalue, expr]
      · rw [yield, List.forall_mem_singleton]
        exact hrange'
  | .name run =>
      obtain ⟨run', hrun, hkey⟩ := hword (Reading.keyOf run) (by simp [expr, Expr.keys])
      refine ⟨.name run', ?_, ?_, ?_⟩
      · rw [shown, hrun, yield]
      · rw [expr, hkey, expr]
      · rw [yield, List.forall_mem_singleton]
        trivial
  | .function params body =>
      simp only [expr, Expr.keys, Value.keys, List.forall_mem_append] at hword
      simp only [yield, List.forall_mem_cons, List.forall_mem_append] at hrange
      obtain ⟨-, -, -, -, -, hbody, -⟩ := hrange
      obtain ⟨runs, hruns, hkeys⟩ := exists_runs hword.1
      obtain ⟨us, hus, hexprs, hrange'⟩ := exists_respelledAll body hword.2 hbody
      refine ⟨.function runs us, ?_, ?_, ?_⟩
      · rw [yield, shown, hus, hruns]
      · rw [expr, expr, hkeys, hexprs]
      · simpa [yield, or_imp, forall_and, Token.InRange] using hrange'
  | .define target value =>
      simp only [expr, Expr.keys, List.forall_mem_cons] at hword
      simp only [yield, List.forall_mem_cons, List.forall_mem_append] at hrange
      obtain ⟨-, -, -, hvalue, -⟩ := hrange
      obtain ⟨⟨run, hrun, hkey⟩, hkeys⟩ := hword
      obtain ⟨u, hu, hexpr, hrange'⟩ := exists_respelled value hkeys hvalue
      refine ⟨.define run u, ?_, ?_, ?_⟩
      · rw [yield, shown, hu, hrun, List.singleton_append]
      · rw [expr, expr, hkey, hexpr]
      · simpa [yield, or_imp, forall_and, Token.InRange] using hrange'
  | .call callee args =>
      simp only [expr, Expr.keys, List.forall_mem_append] at hword
      simp only [yield, List.forall_mem_cons, List.forall_mem_append] at hrange
      obtain ⟨-, hcallee, hargs, -⟩ := hrange
      obtain ⟨u, hu, hexpr, hrangeu⟩ := exists_respelled callee hword.1 hcallee
      obtain ⟨us, hus, hexprs, hrangeus⟩ := exists_respelledAll args hword.2 hargs
      refine ⟨.call u us, ?_, ?_, ?_⟩
      · rw [yield, shown, hu, hus]
      · rw [expr, expr, hexpr, hexprs]
      · simpa [yield, or_imp, forall_and, Token.InRange] using ⟨hrangeu, hrangeus⟩

theorem exists_respelledAll {word : Key → List Token} (ts : List Tree)
    (hword : ∀ k ∈ Expr.keysOf (exprs ts), Named word k)
    (hrange : ∀ tok ∈ yields ts, tok.InRange) :
    ∃ us : List Tree, yields us = shownAll word ts ∧ exprs us = exprs ts ∧
      ∀ tok ∈ yields us, tok.InRange := by
  match ts with
  | [] => exact ⟨[], rfl, rfl, hrange⟩
  | t :: ts =>
      rw [exprs, Expr.keysOf, List.forall_mem_append] at hword
      rw [yields, List.forall_mem_append] at hrange
      obtain ⟨u, hu, hexpr, hrangeu⟩ := exists_respelled t hword.1 hrange.1
      obtain ⟨us, hus, hexprs, hrangeus⟩ := exists_respelledAll ts hword.2 hrange.2
      refine ⟨u :: us, ?_, ?_, ?_⟩
      · rw [yields, shownAll, hu, hus]
      · rw [exprs, exprs, hexpr, hexprs]
      · rw [yields, List.forall_mem_append]
        exact ⟨hrangeu, hrangeus⟩

end

end Tree

namespace Source

variable [Text.Alphabet]

theorem all_render_iff {room : Nat} {T : Spellings} (hT : T.Faithful) {t : Tree}
    (hrange : ∀ tok ∈ t.yield, tok.InRange) (hdepth : t.depth ≤ room) :
    (all room (t.expr.render T.spell).toList).outcome = .ok [t.expr] ↔
      ∀ k ∈ t.expr.keys, (T.find? k).isSome = true := by
  have htokens : tokens (t.expr.render T.spell).toList = t.shown (wordOf T.spell) := by
    have h := tokens_render T.spell t break_nil
    rwa [List.append_nil, tokens_nil, List.append_nil] at h
  rw [all_eq_ok_iff, htokens]
  constructor
  · rintro ⟨us, hus, -, -, hexprs⟩ k hk
    match us with
    | [] => simp [Tree.exprs] at hexprs
    | _ :: _ :: _ => simp [Tree.exprs] at hexprs
    | [u] =>
        obtain ⟨hexpr, -⟩ := List.cons.inj hexprs
        -- As many tokens were printed as derive the expression, so no name takes more than one.
        have hcount : (t.shown (wordOf T.spell)).length = t.expr.span := by
          rw [hus, Tree.yields, Tree.yields, List.append_nil, Tree.length_yield, hexpr]
        by_contra hlost
        have hall : ∀ l ∈ t.expr.keys, 1 ≤ (wordOf T.spell l).length := by
          intro l _
          have hword := hT.wordOf_spell l
          split at hword
          · obtain ⟨run, hrun, -⟩ := hword
            rw [hrun, List.length_singleton]
          · omega
        have hlong : 1 < (wordOf T.spell k).length := by
          have hword := hT.wordOf_spell k
          rwa [if_neg hlost] at hword
        have hlt := Tree.span_lt_length_shown hall hk hlong
        omega
  · intro hfound
    have hnamed : ∀ k ∈ t.expr.keys, Named (wordOf T.spell) k := by
      intro k hk
      have hword := hT.wordOf_spell k
      rwa [if_pos (hfound k hk)] at hword
    obtain ⟨u, hu, hexpr, hrange'⟩ := t.exists_respelled hnamed hrange
    have hdepth' : u.depth = t.depth := by rw [← u.height_expr, hexpr, t.height_expr]
    refine ⟨[u], ?_, ?_, ?_, ?_⟩
    · rw [Tree.yields, Tree.yields, List.append_nil, hu]
    · simpa [Tree.yields] using hrange'
    · rw [Tree.depths, Tree.depths]
      omega
    · rw [Tree.exprs, Tree.exprs, hexpr]

theorem exists_tree_of_mem {room : Nat} {source : List Char} {es : List Expr}
    (h : (all room source).outcome = .ok es) {e : Expr} (he : e ∈ es) :
    ∃ t : Tree, t.expr = e ∧ t.depth ≤ room ∧ ∀ tok ∈ t.yield, tok.InRange := by
  obtain ⟨ts, -, hrange, hdepth, rfl⟩ := all_eq_ok_iff.mp h
  clear h
  induction ts with
  | nil => simp [Tree.exprs] at he
  | cons t ts ih =>
      rw [Tree.yields, List.forall_mem_append] at hrange
      rw [Tree.depths] at hdepth
      rcases List.mem_cons.mp he with rfl | he
      · exact ⟨t, rfl, by omega, hrange.1⟩
      · exact ih hrange.2 (by omega) he

open SproutLang.Expr (mem_keysOf)

/-- Each expression of a text that was read has a printed form, and under a faithful table that form
reads as the expression exactly when no name in it was lost. Reading keeps tables faithful; right
after it, a table that was empty before and has room for all keys of the text has lost none. -/
theorem all_printed_iff_no_name_lost {limits : Limits} (hlimits : limits.room ≤ limits.depth)
    {source : List Char} {es : List Expr} (h : (all limits.room source).outcome = .ok es) :
    (∀ T : Spellings, T.Faithful → ∀ e ∈ es, ∃ text : String,
      e.render? limits.depth T.spell = .ok text ∧
      ((all limits.room text.toList).outcome = .ok [e] ↔
        ∀ k ∈ e.keys, (T.find? k).isSome = true)) ∧
    (∀ T : Spellings, T.Faithful → ∀ room text, (T.recordAll (all room text).names).Faithful) ∧
    (∀ cap : Nat,
      ((all limits.room source).names.map Key.ofName).toFinset.card ≤ cap →
      ∀ e ∈ es, ∃ text : String,
        e.render? limits.depth
          ((Spellings.empty cap).recordAll (all limits.room source).names).spell =
            .ok text ∧
        (all limits.room text.toList).outcome = .ok [e]) := by
  have hprint : ∀ T : Spellings, T.Faithful → ∀ e ∈ es, ∃ text : String,
      e.render? limits.depth T.spell = .ok text ∧
      ((all limits.room text.toList).outcome = .ok [e] ↔
        ∀ k ∈ e.keys, (T.find? k).isSome = true) := by
    intro T hT e he
    obtain ⟨t, rfl, hdepth, hrange⟩ := exists_tree_of_mem h he
    exact ⟨_, Tree.render?_expr (hdepth.trans hlimits) T.spell, all_render_iff hT hrange hdepth⟩
  have hfaithful : ∀ T : Spellings, T.Faithful → ∀ room text,
      (T.recordAll (all room text).names).Faithful :=
    fun T hT room text => hT.recordAll fun _ hname => wellFormed_of_mem_names hname
  refine ⟨hprint, hfaithful, fun cap hroom e he => ?_⟩
  have hempty := Spellings.faithful_empty cap
  obtain ⟨text, hrender, hread⟩ := hprint _ (hfaithful _ hempty _ source) e he
  refine ⟨text, hrender, hread.mpr fun k hk => ?_⟩
  refine Spellings.isSome_find?_recordAll_empty hroom ?_
  rw [← names_of_ok h]
  exact mem_keysOf he hk

end Source

/-- The function `(\(x) (f x 007))` is printed and read back with the table that reading it leaves,
and not with an empty one. -/
theorem Source.all_printed_iff_no_name_lost_function :
    let source := "(\\(x) (f x 007))".toList
    let x : Key := Reading.keyOf ['x']
    let f : Key := Reading.keyOf ['f']
    let e : Expr := .literal (.function [x] [.call (.ref f) [.ref x, .literal (.int 7)]])
    (all (Limits.ofCalls 6).room source).outcome = .ok [e] ∧
    (∃ text : String,
      e.render? 6 ((Spellings.empty 3).recordAll ["x", "f", "x"]).spell = .ok text ∧
      (all 2 text.toList).outcome = .ok [e]) ∧
    (∃ text : String, e.render? 6 (Spellings.empty 3).spell = .ok text ∧
      (all 2 text.toList).outcome ≠ .ok [e]) := by
  have hlexemes : Lexeme.scan 0 "(\\(x) (f x 007))".toList = [⟨0, .lparen⟩, ⟨1, .backslash⟩,
      ⟨2, .lparen⟩, ⟨3, .name ['x']⟩, ⟨4, .rparen⟩, ⟨6, .lparen⟩, ⟨7, .name ['f']⟩,
      ⟨9, .name ['x']⟩, ⟨11, .digits ['0', '0', '7']⟩, ⟨14, .rparen⟩, ⟨15, .rparen⟩] := by
    decide +kernel
  intro source x f e
  have hread : (all (Limits.ofCalls 6).room source).outcome = .ok [e] := by
    rw [all, hlexemes]
    rfl
  have hnames : (all (Limits.ofCalls 6).room source).names = ["x", "f", "x"] := by
    rw [all, hlexemes]
    rfl
  have hlimits : (Limits.ofCalls 6).room ≤ (Limits.ofCalls 6).depth := by decide
  obtain ⟨hprint, -, hfresh⟩ := all_printed_iff_no_name_lost hlimits hread
  rw [hnames] at hfresh
  obtain ⟨text, hrender, hiff⟩ := hprint (.empty 3) (Spellings.faithful_empty 3) e (by simp)
  refine ⟨hread, hfresh 3 (List.toFinset_card_le _) e (by simp), text, hrender, fun hsame => ?_⟩
  have hfound := hiff.mp hsame x List.mem_cons_self
  simp [Spellings.find?, Spellings.empty] at hfound

end SproutLang
