import SproutLang.Cursor
import SproutLang.Proofs.Reader

/-!
What a reading that breaks off reports. The kinds of token that it lists are exactly those with
which the text before the fault could be continued to an expression. Two facts about the machine
carry this: a state refuses a token when its list does not have the token's kind, whatever forms are
open around it; and from every state an expression can be completed, so that a token which is not
refused is a token that some text goes on with.
-/

namespace SproutLang

namespace Token

variable [Text.Alphabet]

def Kind.sample : Kind → Token
  | .falseMark => .falseMark
  | .lparen => .lparen
  | .rparen => .rparen
  | .equals => .equals
  | .backslash => .backslash
  | .digit => .digits ['0']
  | .identifier => .name ['a']

def Kind.Starts (text : List Char) : Kind → Prop
  | .falseMark => ∃ rest, text = '#' :: 'f' :: rest
  | .lparen => ∃ rest, text = '(' :: rest
  | .rparen => ∃ rest, text = ')' :: rest
  | .equals => ∃ rest, text = '=' :: rest
  | .backslash => ∃ rest, text = '\\' :: rest
  | .digit => ∃ c rest, text = c :: rest ∧ Text.isAsciiDigit c = true
  | .identifier => ∃ c rest, text = c :: rest ∧ Text.isAlphabetic c = true

theorem isAlphabetic_a : Text.isAlphabetic 'a' = true :=
  Text.isAlphabetic_of_lower (by decide) (by decide)

theorem Kind.wellFormed_sample (k : Kind) : k.sample.WellFormed := by
  cases k with
  | digit => exact ⟨by simp, by simp; decide⟩
  | identifier => exact ⟨by simp, List.forall_mem_singleton.mpr isAlphabetic_a⟩
  | _ => trivial

theorem Kind.starts_sample (k : Kind) (rest : List Char) : k.Starts (k.sample.text ++ rest) := by
  cases k with
  | digit => exact ⟨_, _, rfl, by decide⟩
  | identifier => exact ⟨_, _, rfl, isAlphabetic_a⟩
  | _ => exact ⟨_, rfl⟩

/-- The first token of a text that starts with a token of some kind is of that kind. -/
theorem Kind.Starts.exists_lexeme {k : Kind} {text : List Char} (h : k.Starts text) (pos : Nat) :
    ∃ t rest, Lexeme.scan pos text = ⟨pos, t⟩ :: rest ∧ t.kind? = some k := by
  have hscan : ∀ {c : Char} {rest : List Char}, Text.isBlank c = false → text = c :: rest →
      (first c rest).1.kind? = some k →
      ∃ t rest, Lexeme.scan pos text = ⟨pos, t⟩ :: rest ∧ t.kind? = some k := by
    rintro c rest hb rfl hkind
    rw [Lexeme.scan, if_neg (by simp [hb])]
    exact ⟨_, _, rfl, hkind⟩
  cases k with
  | digit =>
      obtain ⟨c, rest, rfl, hd⟩ := h
      refine hscan (Text.not_isBlank_of_isSign (Text.isSign_of_isAsciiDigit hd)) rfl ?_
      unfold first
      rw [if_pos hd]
      rfl
  | identifier =>
      obtain ⟨c, rest, rfl, ha⟩ := h
      refine hscan (Text.not_isBlank_of_isAlphabetic ha) rfl ?_
      unfold first
      rw [if_neg (by simp [Text.not_isAsciiDigit_of_isAlphabetic ha]), if_pos ha]
      rfl
  | falseMark =>
      obtain ⟨rest, rfl⟩ := h
      exact ⟨_, _, Lexeme.scan_token (t := .falseMark) trivial (fun _ _ => rfl) pos, rfl⟩
  | lparen =>
      obtain ⟨rest, rfl⟩ := h
      exact ⟨_, _, Lexeme.scan_token (t := .lparen) trivial (fun _ _ => rfl) pos, rfl⟩
  | rparen =>
      obtain ⟨rest, rfl⟩ := h
      exact ⟨_, _, Lexeme.scan_token (t := .rparen) trivial (fun _ _ => rfl) pos, rfl⟩
  | equals =>
      obtain ⟨rest, rfl⟩ := h
      exact ⟨_, _, Lexeme.scan_token (t := .equals) trivial (fun _ _ => rfl) pos, rfl⟩
  | backslash =>
      obtain ⟨rest, rfl⟩ := h
      exact ⟨_, _, Lexeme.scan_token (t := .backslash) trivial (fun _ _ => rfl) pos, rfl⟩

end Token

namespace Reading

/-! ### What a state refuses -/

theorem accepts_complete (e : Expr) (outer : List Pending) : (complete e outer).Accepts := by
  cases outer with
  | nil => trivial
  | cons p outer => cases p <;> trivial

theorem complete_ne_unexpected (e : Expr) (outer : List Pending) :
    complete e outer ≠ .unexpected := by
  intro h
  have haccepts := accepts_complete e outer
  rw [h] at haccepts
  exact haccepts

theorem integer_ne_unexpected (run : List Char) (outer : List Pending) :
    integer run outer ≠ .unexpected := by
  unfold integer
  split
  · simp
  split
  · simp
  exact complete_ne_unexpected _ _

theorem open_ne_unexpected (n room : Nat) (s : State) :
    (if n < room then Move.go s else .tooDeep) ≠ .unexpected := by
  split <;> simp

theorem expected_ne_nil (s : State) : s.expected ≠ [] := by
  cases s with
  | expr outer =>
      cases outer with
      | nil => simp [State.expected, exprKinds]
      | cons p outer => cases p <;> simp [State.expected, exprKinds]
  | _ => simp [State.expected]

/-- A state refuses the tokens of the kinds that it does not list, and no others. -/
theorem step_eq_unexpected_iff {room : Nat} {s : State} {tok : Token} {k : Token.Kind}
    (hk : tok.kind? = some k) : step room s tok = .unexpected ↔ k ∉ s.expected := by
  cases s with
  | expr outer =>
      cases outer with
      | nil =>
          cases tok <;> cases hk <;>
            simp [step, State.expected, exprKinds, complete_ne_unexpected, integer_ne_unexpected,
              open_ne_unexpected]
      | cons p outer =>
          cases p <;> cases tok <;> cases hk <;>
            simp [step, State.expected, exprKinds, complete_ne_unexpected, integer_ne_unexpected,
              open_ne_unexpected]
  | _ => cases tok <;> cases hk <;> simp [step, State.expected, complete_ne_unexpected]

/-- With more room only a step that found too little of it can change. -/
theorem step_of_room_le {room room' : Nat} {s : State} {tok : Token} (hle : room ≤ room')
    (h : step room s tok ≠ .tooDeep) : step room' s tok = step room s tok := by
  revert h
  unfold step
  split
  -- Only a form that opens looks at the room.
  case h_4 outer =>
      intro h
      split at h
      · rename_i hlt
        rw [if_pos hlt, if_pos (Nat.lt_of_lt_of_le hlt hle)]
      · contradiction
  all_goals exact fun _ => rfl

theorem step_mono {room room' : Nat} {s : State} {tok : Token} (hle : room ≤ room')
    (h : (step room s tok).Accepts) : step room' s tok = step room s tok := by
  refine step_of_room_le hle fun hdeep => ?_
  rw [hdeep] at h
  exact h

theorem Path.mono {room room' : Nat} {s : State} {ts : List Token} {m : Move}
    (hle : room ≤ room') (h : Path room s ts m) (hm : m.Accepts) : Path room' s ts m := by
  induction h with
  | stay s => exact .stay s
  | last hstep =>
      subst hstep
      exact .last (step_mono hle hm)
  | cons hstep _ ih =>
      refine .cons ?_ (ih hm)
      rw [step_mono hle (by rw [hstep]; trivial), hstep]

/-! ### Every reading can be finished -/

/-- `count` closing parentheses complete the expression after a move. -/
def Finishes (room count : Nat) : Move → Prop
  | .go s => ∃ e, Path room s (List.replicate count .rparen) (.done e)
  | .done _ => count = 0
  | _ => False

theorem Finishes.of_step {room count : Nat} {s : State}
    (h : Finishes room count (step room s .rparen)) : Finishes room (count + 1) (.go s) := by
  cases hstep : step room s .rparen with
  | go s' =>
      rw [hstep] at h
      obtain ⟨e, hpath⟩ := h
      exact ⟨e, .cons hstep hpath⟩
  | done e =>
      rw [hstep] at h
      obtain rfl : count = 0 := h
      exact ⟨e, .last hstep⟩
  | _ =>
      rw [hstep] at h
      exact h.elim

/-- Once an expression is complete, each open form needs only to be closed. -/
theorem finishes_complete (room : Nat) (e : Expr) (outer : List Pending) :
    Finishes room outer.length (complete e outer) := by
  induction outer generalizing e with
  | nil => rfl
  | cons p outer ih =>
      cases p with
      | callee => exact .of_step (ih (.call e []))
      | statement params body => exact .of_step (ih (.literal (.function params (body ++ [e]))))
      | value name => exact .of_step (ih (.define name e))
      | argument callee args => exact .of_step (ih (.call callee (args ++ [e])))

variable [Text.Alphabet]

def Finishable (room : Nat) (s : State) : Prop :=
  ∃ ts e, (∀ t ∈ ts, t.WellFormed) ∧ Path room s ts (.done e)

theorem Finishable.cons {room : Nat} {s s' : State} (tok : Token) (hwf : tok.WellFormed)
    (hstep : step room s tok = .go s') (h : Finishable room s') : Finishable room s := by
  obtain ⟨ts, e, hts, hpath⟩ := h
  exact ⟨tok :: ts, e, List.forall_mem_cons.mpr ⟨hwf, hts⟩, .cons hstep hpath⟩

theorem Finishes.finishable {room count : Nat} {s : State} (tok : Token) (hwf : tok.WellFormed)
    (h : Finishes room count (step room s tok)) : Finishable room s := by
  cases hstep : step room s tok with
  | go s' =>
      rw [hstep] at h
      obtain ⟨e, hpath⟩ := h
      refine .cons tok hwf hstep ⟨_, e, ?_, hpath⟩
      intro t ht
      rw [List.eq_of_mem_replicate ht]
      trivial
  | done e => exact ⟨[tok], e, by simpa using hwf, .last hstep⟩
  | _ =>
      rw [hstep] at h
      exact h.elim

/-- From every state an expression can be completed, in as much room as is taken. -/
theorem finishable (room : Nat) (s : State) : Finishable room s := by
  have hexpr (outer : List Pending) : Finishable room (.expr outer) :=
    Finishes.finishable .falseMark trivial (finishes_complete room (.literal .falsity) outer)
  have hparams (names : List Key) (outer : List Pending) : Finishable room (.params names outer) :=
    .cons .rparen trivial rfl (hexpr _)
  cases s with
  | expr outer => exact hexpr outer
  | header outer => exact .cons .lparen trivial rfl (hparams [] outer)
  | params names outer => exact hparams names outer
  | target outer => exact .cons _ (Token.Kind.wellFormed_sample .identifier) rfl (hexpr _)
  | defined name value outer =>
      exact Finishes.finishable .rparen trivial (finishes_complete room (.define name value) outer)

omit [Text.Alphabet] in
/-- A token of a listed kind is taken, if it is in range and there is room for one more form. -/
theorem accepts_of_mem_expected {room : Nat} {s : State} {tok : Token} {k : Token.Kind}
    (hk : tok.kind? = some k) (hrange : tok.InRange)
    (hroom : ∀ outer, s = .expr outer → outer.length < room) (h : k ∈ s.expected) :
    (step room s tok).Accepts := by
  have hne : step room s tok ≠ .unexpected := by
    rw [Ne, step_eq_unexpected_iff hk]
    exact not_not_intro h
  revert hne
  unfold step
  split
  case h_2 outer run =>
      rw [integer_of_inRange hrange]
      exact fun _ => accepts_complete _ _
  case h_4 outer =>
      rw [if_pos (hroom outer rfl)]
      exact fun _ => trivial
  case h_14 => exact fun hne => absurd rfl hne
  all_goals first | exact fun _ => trivial | exact fun _ => accepts_complete _ _

theorem exists_path_of_accepts {room : Nat} {s : State} {tok : Token}
    (h : (step room s tok).Accepts) :
    ∃ ts e, (∀ t ∈ ts, t.WellFormed) ∧ Path room s (tok :: ts) (.done e) := by
  cases hstep : step room s tok with
  | go s' =>
      obtain ⟨ts, e, hts, hpath⟩ := finishable room s'
      exact ⟨ts, e, hts, .cons hstep hpath⟩
  | done e => exact ⟨[], e, by simp, .last hstep⟩
  | _ =>
      rw [hstep] at h
      exact h.elim

/-! ### Texts for tokens -/

def spaced (ts : List Token) : List Char :=
  ts.flatMap fun t => ' ' :: t.text

theorem tokens_text_spaced {t : Token} {ts : List Token} (ht : t.WellFormed)
    (hts : ∀ u ∈ ts, u.WellFormed) : tokens (t.text ++ spaced ts) = t :: ts := by
  induction ts generalizing t with
  | nil => rw [spaced, List.flatMap_nil, tokens_token ht (Token.ends_nil t), tokens_nil]
  | cons u ts ih =>
      obtain ⟨hu, hts⟩ := List.forall_mem_cons.mp hts
      have hblank : Text.isBlank ' ' = true := Text.isBlank_space
      rw [spaced, List.flatMap_cons, List.cons_append, tokens_token ht, tokens_blank hblank]
      · rw [← ih hu hts]
        rfl
      · exact Token.ends_cons.mpr (t.absorbs_of_isBlank hblank)

end Reading

namespace Cursor

open Reading

variable [Text.Alphabet]

/-! ### The report of a fault -/

theorem read_of_ok {room : Nat} {c : Cursor} {e : Expr} {rest : List Lexeme}
    (h : (Reading.one room .start c.lexemes).outcome = .ok (e, rest)) :
    c.read room = (⟨(Reading.one room .start c.lexemes).names, .ok e⟩, c.moveTo rest) := by
  simp [read, h]

theorem read_of_error {room : Nat} {c : Cursor} {halt : Halt}
    (h : (Reading.one room .start c.lexemes).outcome = .error halt) :
    c.read room =
      (⟨(Reading.one room .start c.lexemes).names, .error (halt.fault c.source c.pos)⟩, c) := by
  simp [read, h]

/-- A reading at `c` broke off at `pos`: the machine had taken the lexemes `taken` of the text
`before`, was in `state`, and refused the first lexeme of the text `after`, if there was one. -/
structure Broken (room : Nat) (c : Cursor) (pos : Nat) (state : State) (before after : List Char)
    (taken : List Lexeme) : Prop where
  text_eq : c.remainder = before ++ after
  pos_eq : pos = c.pos + before.length
  path : Path room .start (taken.map Lexeme.token) (.go state)
  refused : ∀ l ∈ (Lexeme.scan pos after).head?, Reading.step room state l.token = .unexpected
  /-- After a space, any other text can follow what was taken. -/
  scan_before : ∀ more,
    Lexeme.scan c.pos (before ++ ' ' :: more) = taken ++ Lexeme.scan (pos + 1) more

theorem broken_of_read {room : Nat} {c : Cursor} {site : Text.Site} {found : Option Char}
    {expected : List Token.Kind} (hpos : c.pos ≤ c.source.length)
    (h : (c.read room).1.outcome = .error (.unexpected site found expected)) :
    ∃ state before after taken, expected = state.expected ∧
      Broken room c site.pos state before after taken := by
  have hended := one_ended room .start c.lexemes
  cases hout : (Reading.one room .start c.lexemes).outcome with
  | ok r => simp [read_of_ok hout] at h
  | error halt =>
      rw [read_of_error hout] at h
      rw [hout] at hended
      cases halt with
      | unexpected state rest =>
          simp only [Halt.fault, Except.error.injEq, ReadFault.unexpected.injEq] at h
          obtain ⟨rfl, -, rfl⟩ := h
          obtain ⟨taken, hsplit, hpath, hrefused⟩ := hended
          obtain ⟨a, b, htext, hafter, hnil, hstart, hcut⟩ := Lexeme.scan_cut hsplit
          have hat : position (max c.pos c.source.length) rest = c.pos + a.length := by
            cases rest with
            | nil =>
                have hlen := congrArg List.length htext
                rw [hnil rfl, List.append_nil, List.length_drop] at hlen
                rw [position, ← hlen]
                omega
            | cons l rest => exact hstart l (by simp)
          refine ⟨state, a, b, taken, rfl, htext, hat, hpath, ?_, ?_⟩
          · simp only [Text.Site.of, hat, hafter]
            exact hrefused
          · intro more
            simp only [Text.Site.of, hat]
            exact hcut ' ' more Text.isBlank_space
      | _ => simp [Halt.fault] at h

namespace Broken

variable {room pos : Nat} {c : Cursor} {state : State} {before after : List Char}
  {taken : List Lexeme}

theorem pos_le (h : Broken room c pos state before after taken) (hpos : c.pos ≤ c.source.length) :
    pos ≤ c.source.length := by
  have hlen := congrArg List.length h.text_eq
  rw [remainder, List.length_drop, List.length_append] at hlen
  rw [h.pos_eq]
  omega

theorem lexemes_continued (h : Broken room c pos state before after taken)
    (hpos : c.pos ≤ c.source.length) (more : List Char) :
    lexemes ⟨c.source.take pos ++ ' ' :: more, c.pos⟩ = taken ++ Lexeme.scan (pos + 1) more := by
  have hbefore : (c.source.take pos ++ ' ' :: more).drop c.pos = before ++ ' ' :: more := by
    rw [List.drop_append_of_le_length, List.drop_take, ← remainder, h.text_eq, h.pos_eq]
    · simp
    · rw [List.length_take, h.pos_eq]
      have := h.pos_le hpos
      rw [h.pos_eq] at this
      omega
  rw [lexemes, hbefore, h.scan_before]

/-- The listed kinds are those with which the text before the fault can be continued. -/
theorem mem_expected_iff (h : Broken room c pos state before after taken)
    (hpos : c.pos ≤ c.source.length) {room' : Nat} (hroom : room < room') (k : Token.Kind) :
    k ∈ state.expected ↔ ∃ z e,
      (read room' ⟨c.source.take pos ++ ' ' :: (k.sample.text ++ z), c.pos⟩).1.outcome = .ok e := by
  have hpath := h.path.mono (Nat.le_of_lt hroom) trivial
  constructor
  · intro hk
    have hreads := h.path.accounts (show Reads room [] .start from .nil)
    have haccepts : (Reading.step room' state k.sample).Accepts := by
      refine accepts_of_mem_expected (by cases k <;> rfl) (by cases k <;> trivial) ?_ hk
      rintro outer rfl
      exact Nat.lt_of_le_of_lt (Opened.length_le hreads) hroom
    obtain ⟨ts, e, hts, hmore⟩ := exists_path_of_accepts haccepts
    have htokens := tokens_text_spaced k.wellFormed_sample hts
    -- Written out after the text before the fault, the tokens are scanned as they are.
    have hdone := hpath.append hmore
    rw [← htokens, ← map_token_scan (pos + 1), ← List.map_append, ← h.lexemes_continued hpos]
      at hdone
    have hone := one_of_path_done hdone []
    rw [List.append_nil] at hone
    refine ⟨spaced ts, e, ?_⟩
    rw [read_of_ok (congrArg Result.outcome hone)]
  · rintro ⟨z, e, hread⟩
    by_cases hk : k ∈ state.expected
    · exact hk
    · exfalso
      obtain ⟨t, rest, hscan, hkind⟩ := (k.starts_sample z).exists_lexeme (pos + 1)
      have hrefused : Reading.step room' state t = .unexpected :=
        (step_eq_unexpected_iff hkind).mpr hk
      have hone := one_of_path_go hpath (⟨pos + 1, t⟩ :: rest)
      have hout : (Reading.one room' state (⟨pos + 1, t⟩ :: rest)).outcome =
          .error (.unexpected state (⟨pos + 1, t⟩ :: rest)) := by
        rw [Reading.one, hrefused]
      rw [← hscan, ← h.lexemes_continued hpos, hscan] at hone
      rw [read_of_error ((congrArg Result.outcome hone).trans hout)] at hread
      simp at hread

end Broken

/-- The report of a reading that breaks off. The fault lies between the start of the reading and the
end of the text. The kinds of token that it lists are those that can follow the text before the
fault: some text goes on from there, after a space, with a token of that kind, and is read. The list
is not empty, and the text at the fault starts with a token of none of the kinds in it. -/
theorem read_fault_exact (room : Nat) (c : Cursor) (site : Text.Site) (found : Option Char)
    (expected : List Token.Kind) (hpos : c.pos ≤ c.source.length)
    (h : (c.read room).1.outcome = .error (.unexpected site found expected)) :
    (c.pos ≤ site.pos ∧ site.pos ≤ c.source.length ∧
      ∀ room', room < room' → ∀ k, k ∈ expected ↔
        ∃ z e, (read room'
          ⟨c.source.take site.pos ++ ' ' :: (k.sample.text ++ z), c.pos⟩).1.outcome = .ok e) ∧
    expected ≠ [] ∧ ∀ k ∈ expected, ¬ k.Starts (c.source.drop site.pos) := by
  obtain ⟨state, before, after, taken, rfl, hbroken⟩ := broken_of_read hpos h
  refine ⟨⟨?_, hbroken.pos_le hpos, ?_⟩, expected_ne_nil state, ?_⟩
  · rw [hbroken.pos_eq]
    omega
  · intro room' hroom k
    exact hbroken.mem_expected_iff hpos hroom k
  · intro k hk hstarts
    have hafter : c.source.drop site.pos = after := by
      rw [hbroken.pos_eq, ← List.drop_drop, ← remainder, hbroken.text_eq, List.drop_left]
    rw [hafter] at hstarts
    obtain ⟨t, rest, hscan, hkind⟩ := hstarts.exists_lexeme site.pos
    have hrefused := hbroken.refused ⟨site.pos, t⟩ (by rw [hscan]; rfl)
    exact (step_eq_unexpected_iff hkind).mp hrefused hk

end Cursor

end SproutLang
