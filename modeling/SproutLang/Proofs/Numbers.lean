import SproutLang.Proofs.Concatenation
import SproutLang.Proofs.Expectation

/-!
Numbers in a text. A number is a run of digits with no further digit on either side; the scanner
makes one lexeme of it, and of nothing else. Reading comes to a number where an expression may stand
exactly if what is before it can be gone on with from a `0` in its place. A number that is out of
range ends the reading there, whatever follows it; and if a reading ends for the sake of a number,
then it has come to one that is out of range.
-/

namespace SproutLang

/-! ### Runs of digits -/

/-- Before a digit, a token ends unless it ends in a digit itself. -/
theorem Token.ends_digit_iff [Text.Alphabet] {t : Token} (hwf : t.WellFormed) {d : Char}
    {rest : List Char} (hd : Text.isAsciiDigit d = true) :
    t.Ends (d :: rest) ↔ ∀ c ∈ t.text.getLast?, Text.isAsciiDigit c = false := by
  rw [ends_cons]
  cases t with
  | digits run =>
      obtain ⟨hne, hall⟩ := hwf
      have hlast := hall _ (List.getLast_mem hne)
      simp [absorbs, text, hd, List.getLast?_eq_some_getLast hne, hlast]
  | name run =>
      obtain ⟨hne, hall⟩ := hwf
      have hlast := Text.not_isAsciiDigit_of_isAlphabetic (hall _ (List.getLast_mem hne))
      have hd' := Text.not_isAlphabetic_of_isSign (Text.isSign_of_isAsciiDigit hd)
      simp [absorbs, text, hd', List.getLast?_eq_some_getLast hne, hlast]
  | unknown c =>
      have hf : d ≠ 'f' := by
        rintro rfl
        simp [show Text.isAsciiDigit 'f' = false from by decide] at hd
      simp [absorbs, text, hf, hwf.2.1]
  | _ => simp [absorbs, text]; decide

/-- The digits `run` between `before` and `after` have no digit next to them. -/
structure NumberIn [Text.Alphabet] (before run after : List Char) : Prop where
  digits : (Token.digits run).WellFormed
  left : ∀ c ∈ before.getLast?, Text.isAsciiDigit c = false
  right : (Token.digits run).Ends after

namespace NumberIn

variable [Text.Alphabet] {before run after : List Char}

theorem exists_digit (h : NumberIn before run after) :
    ∃ d ds, run = d :: ds ∧ Text.isAsciiDigit d = true := by
  obtain ⟨d, ds, rfl⟩ := List.exists_cons_of_ne_nil h.digits.1
  exact ⟨d, ds, rfl, h.digits.2 d List.mem_cons_self⟩

/-- A number is one lexeme, and what stands before it is scanned as it is alone. -/
theorem scan_eq (h : NumberIn before run after) (pos : Nat) :
    Lexeme.scan pos (before ++ run ++ after) =
      Lexeme.scan pos before ++ ⟨pos + before.length, .digits run⟩ ::
        Lexeme.scan (pos + before.length + run.length) after := by
  induction before using text_induction generalizing pos with
  | nil =>
      have hscan := Lexeme.scan_token h.digits h.right pos
      simpa [Token.text] using hscan
  | blank c rest hb ih =>
      have hrest : NumberIn rest run after := by
        refine ⟨h.digits, fun d hd => h.left d ?_, h.right⟩
        rw [List.getLast?_cons]
        simp [Option.mem_def.mp hd]
      rw [List.cons_append, List.cons_append, Lexeme.scan_blank hb, Lexeme.scan_blank hb,
        ih hrest, List.length_cons, Nat.add_assoc pos, Nat.add_comm 1]
  | token t rest hwf hend ih =>
      have hrest : NumberIn rest run after := by
        refine ⟨h.digits, fun d hd => h.left d ?_, h.right⟩
        rw [List.getLast?_append, Option.mem_def.mp hd]
        rfl
      have hend' : t.Ends (rest ++ run ++ after) := by
        cases rest with
        | nil =>
            -- Only here does it matter that no digit stands before the number.
            obtain ⟨d, ds, rfl, hd⟩ := h.exists_digit
            refine (Token.ends_digit_iff hwf hd).mpr ?_
            simpa using h.left
        | cons c rest => exact Token.ends_cons.mpr (Token.ends_cons.mp hend)
      rw [List.append_assoc, List.append_assoc, ← List.append_assoc rest,
        Lexeme.scan_token hwf hend', Lexeme.scan_token hwf hend, ih hrest, List.length_append,
        Nat.add_assoc pos, List.cons_append]

end NumberIn

/-- Each lexeme that is a run of digits is a number of the text. -/
theorem Lexeme.exists_numberIn [Text.Alphabet] {pos start : Nat} {text run : List Char}
    {pre post : List Lexeme} (h : scan pos text = pre ++ ⟨start, .digits run⟩ :: post) :
    ∃ before after, text = before ++ run ++ after ∧ NumberIn before run after ∧
      scan pos before = pre := by
  induction text using text_induction generalizing pos pre with
  | nil => simp at h
  | blank c rest hb ih =>
      rw [scan_blank hb] at h
      obtain ⟨before, after, rfl, hnumber, hscan⟩ := ih h
      refine ⟨c :: before, after, rfl, ⟨hnumber.digits, ?_, hnumber.right⟩, ?_⟩
      · have hc : Text.isAsciiDigit c = false :=
          (Token.digits run).absorbs_of_isBlank hb
        intro d hd
        cases before with
        | nil =>
            obtain rfl : c = d := by simpa using hd
            exact hc
        | cons e es => exact hnumber.left d hd
      · rw [scan_blank hb, hscan]
  | token t rest hwf hend ih =>
      rw [scan_token hwf hend] at h
      cases pre with
      | nil =>
          rw [List.nil_append, List.cons.injEq] at h
          obtain rfl : t = .digits run := congrArg Lexeme.token h.1
          exact ⟨[], rest, rfl, ⟨hwf, by simp, hend⟩, scan_nil pos⟩
      | cons l pre =>
          rw [List.cons_append, List.cons.injEq] at h
          obtain ⟨rfl, h⟩ := h
          obtain ⟨before, after, rfl, hnumber, hscan⟩ := ih h
          have hbefore : t.Ends before := by
            cases before with
            | nil => exact t.ends_nil
            | cons c before => exact Token.ends_cons.mpr (Token.ends_cons.mp hend)
          refine ⟨t.text ++ before, after, by simp, ⟨hnumber.digits, ?_, hnumber.right⟩, ?_⟩
          · cases before with
            | nil =>
                obtain ⟨d, ds, rfl, hd⟩ := hnumber.exists_digit
                simpa using (Token.ends_digit_iff hwf hd).mp hend
            | cons c before =>
                intro d hd
                refine hnumber.left d ?_
                simpa using hd
          · rw [scan_token hwf hbefore, hscan]

/-! ### Where a reading comes to a number -/

namespace Reading

variable {room : Nat} {s : State} {outer : List Pending}

/-- The machine takes the lexemes one by one and gets from one state to another; on the way it
completes the expressions `es`. -/
inductive Travels (room : Nat) : State → List Lexeme → List Expr → State → Prop
  | stay (s : State) : Travels room s [] [] s
  | go {s s' s'' : State} {l : Lexeme} {ls : List Lexeme} {es : List Expr} :
      step room s l.token = .go s' → Travels room s' ls es s'' → Travels room s (l :: ls) es s''
  | done {s s'' : State} {e : Expr} {l : Lexeme} {ls : List Lexeme} {es : List Expr} :
      step room s l.token = .done e → Travels room .start ls es s'' →
      Travels room s (l :: ls) (e :: es) s''

def Harvest.behind (h : Harvest) (names : List String) (es : List Expr) : Harvest :=
  ⟨names ++ h.names, es ++ h.exprs, h.halt⟩

theorem Travels.all_eq {s' : State} {pre : List Lexeme} {es : List Expr}
    (h : Travels room s pre es s') (ls : List Lexeme) :
    all room s (pre ++ ls) = (all room s' ls).behind (namesOf pre) es := by
  induction h with
  | stay s => rfl
  | go hstep _ ih =>
      rw [List.cons_append, all, hstep]
      simp only [ih, Harvest.after, Harvest.behind, namesOf_cons, List.append_assoc]
  | done hstep _ ih =>
      rw [List.cons_append, all, hstep]
      simp only [ih, Harvest.after, Harvest.cons, Harvest.behind, namesOf_cons, List.append_assoc,
        List.cons_append]

theorem Travels.halt_eq {s' : State} {pre : List Lexeme} {es : List Expr}
    (h : Travels room s pre es s') (ls : List Lexeme) :
    (all room s (pre ++ ls)).halt = (all room s' ls).halt := by
  rw [h.all_eq]
  rfl

/-- A text that is read to its end has been travelled through, and each of its tokens taken. -/
theorem exists_travels {pre post : List Lexeme} {l : Lexeme}
    (h : (all room s (pre ++ l :: post)).halt = none) :
    ∃ es s', Travels room s pre es s' ∧ step room s' l.token ≠ .unexpected := by
  induction pre generalizing s with
  | nil =>
      refine ⟨[], s, .stay s, fun hrefused => ?_⟩
      rw [List.nil_append, all, hrefused] at h
      contradiction
  | cons m pre ih =>
      rw [List.cons_append, all] at h
      cases hstep : step room s m.token with
      | go s₁ =>
          rw [hstep] at h
          obtain ⟨es, s', htravels, htaken⟩ := ih h
          exact ⟨es, s', .go hstep htravels, htaken⟩
      | done e =>
          rw [hstep] at h
          obtain ⟨es, s', htravels, htaken⟩ := ih h
          exact ⟨e :: es, s', .done hstep htravels, htaken⟩
      | _ => simp [hstep] at h

/-- Where some number was taken, an expression could stand. -/
theorem exists_travels_expr {pre post : List Lexeme} {l : Lexeme}
    (hl : l.token.kind? = some .digit) (h : (all room s (pre ++ l :: post)).halt = none) :
    ∃ es outer, Travels room s pre es (.expr outer) := by
  obtain ⟨es, s', htravels, htaken⟩ := exists_travels h
  rw [Ne, step_eq_unexpected_iff hl, Decidable.not_not] at htaken
  cases s' with
  | expr outer => exact ⟨es, outer, htravels⟩
  | _ => simp [State.expected] at htaken

def Halt.ofNumber (pos : Nat) (run : List Char) : Halt :=
  if maxDigits < run.length then .tooManyDigits run.length else .outOfRange pos run

theorem halt_number {run : List Char} (hrange : ¬ (Token.digits run).InRange) (pos : Nat)
    (outer : List Pending) (post : List Lexeme) :
    (all room (.expr outer) (⟨pos, .digits run⟩ :: post)).halt =
      some (Halt.ofNumber pos run) := by
  rw [all, step, integer, Halt.ofNumber]
  by_cases hmany : maxDigits < run.length
  · rw [if_pos hmany, if_pos hmany]
  · have hlarge : maxInt < Text.decimalNumber run := by
      rw [maxDigits] at hmany
      rw [Token.InRange] at hrange
      rw [maxInt]
      omega
    rw [if_neg hmany, if_neg hmany, if_pos hlarge]

def Halt.AtNumber : Halt → Prop
  | .outOfRange _ _ | .tooManyDigits _ => True
  | _ => False

def Move.AtNumber : Move → Prop
  | .outOfRange _ | .tooManyDigits _ => True
  | _ => False

theorem not_atNumber_complete (e : Expr) (outer : List Pending) :
    ¬ (complete e outer).AtNumber := by
  cases outer with
  | nil => exact id
  | cons p outer => cases p <;> exact id

/-- A number makes the reading halt only where an expression may stand and if it is out of range. -/
theorem step_number {tok : Token} (h : (step room s tok).AtNumber) :
    ∃ outer run, s = .expr outer ∧ tok = .digits run ∧ ¬ (Token.digits run).InRange := by
  revert h
  unfold step
  split
  case h_2 outer run =>
      intro h
      refine ⟨outer, run, rfl, rfl, fun hrange => ?_⟩
      rw [integer_of_inRange hrange] at h
      exact not_atNumber_complete _ _ h
  case h_4 outer =>
      intro h
      split at h <;> exact h.elim
  all_goals
    intro h
    first | exact h.elim | exact absurd h (not_atNumber_complete _ _)

theorem exists_number_of_halt {ls : List Lexeme} {halt : Halt}
    (h : (all room s ls).halt = some halt) (hnumber : halt.AtNumber) :
    ∃ pre start run post es outer, ls = pre ++ ⟨start, .digits run⟩ :: post ∧
      ¬ (Token.digits run).InRange ∧ Travels room s pre es (.expr outer) := by
  induction ls generalizing s with
  | nil =>
      unfold all at h
      split at h
      · simp at h
      · obtain rfl := Option.some.inj h
        exact hnumber.elim
      · contradiction
  | cons l ls ih =>
      rw [all] at h
      have hhere (hmove : (step room s l.token).AtNumber) :
          ∃ pre start run post es outer, l :: ls = pre ++ ⟨start, .digits run⟩ :: post ∧
            ¬ (Token.digits run).InRange ∧ Travels room s pre es (.expr outer) := by
        obtain ⟨outer, run, rfl, htoken, hrange⟩ := step_number hmove
        refine ⟨[], l.start, run, ls, [], outer, ?_, hrange, .stay _⟩
        rw [← htoken]
        rfl
      cases hstep : step room s l.token with
      | go s' =>
          rw [hstep] at h
          obtain ⟨pre, start, run, post, es, outer, rfl, hrange, htravels⟩ := ih h
          exact ⟨l :: pre, start, run, post, es, outer, rfl, hrange, .go hstep htravels⟩
      | done e =>
          rw [hstep] at h
          obtain ⟨pre, start, run, post, es, outer, rfl, hrange, htravels⟩ := ih h
          exact ⟨l :: pre, start, run, post, e :: es, outer, rfl, hrange, .done hstep htravels⟩
      | unexpected =>
          rw [hstep] at h
          obtain rfl := Option.some.inj h
          exact hnumber.elim
      | tooDeep =>
          rw [hstep] at h
          obtain rfl := Option.some.inj h
          exact hnumber.elim
      | outOfRange run => exact hhere (by rw [hstep]; trivial)
      | tooManyDigits count => exact hhere (by rw [hstep]; trivial)

theorem all_of_path_done {ls : List Lexeme} {e : Expr}
    (h : Path room s (ls.map Lexeme.token) (.done e)) :
    all room s ls = ⟨namesOf ls, [e], none⟩ := by
  have hne : ls ≠ [] := by
    rintro rfl
    cases h
  have hone := one_of_path_done h []
  rw [List.append_nil] at hone
  rw [all_eq_one fun hnil => absurd hnil hne, hone]
  simp only [Harvest.after, Harvest.cons, all, State.start, List.append_nil]

/-- Something that is read to its end holds an expression. -/
theorem exprs_ne_nil {ls : List Lexeme} (hls : ls ≠ []) (h : (all room s ls).halt = none) :
    (all room s ls).exprs ≠ [] := by
  rw [all_eq_one fun hnil => absurd hnil hls] at h ⊢
  cases hout : (one room s ls).outcome with
  | ok r => simp [Harvest.after, Harvest.cons]
  | error halt => simp [hout] at h

end Reading

namespace Source

variable [Text.Alphabet] {room : Nat} {before run after source : List Char}

/-- Reading comes to the number `run` between `before` and `after` where an expression may stand:
with a `0` in its place, what stands before it can be gone on with to a text that can be read. -/
structure Reaches (room : Nat) (before run after : List Char) : Prop extends
    NumberIn before run after where
  readable : ∃ z exprs, (all room (before ++ ' ' :: '0' :: z)).outcome = .ok exprs

/-- Where a `0` was gone on with to a text that can be read, an expression could stand, and the `0`
became part of the expressions that come after those completed before it. -/
theorem exists_travels_of_ok {z : List Char} {exprs : List Expr}
    (h : (all room (before ++ ' ' :: '0' :: z)).outcome = .ok exprs) :
    ∃ es outer more, Reading.Travels room .start (Lexeme.scan 0 before) es (.expr outer) ∧
      more ≠ [] ∧ exprs = es ++ more := by
  obtain ⟨hhalt, rfl⟩ := harvest_of_ok h
  obtain ⟨t, post, hscan, hkind⟩ :=
    (Token.Kind.starts_sample .digit z).exists_lexeme (0 + before.length + 1)
  rw [harvest, Lexeme.scan_append (break_space _), Lexeme.scan_blank Text.isBlank_space,
    show Lexeme.scan _ ('0' :: z) = _ from hscan] at hhalt ⊢
  obtain ⟨es, outer, htravels⟩ := Reading.exists_travels_expr hkind hhalt
  refine ⟨es, outer, _, htravels, ?_, congrArg Reading.Harvest.exprs (htravels.all_eq _)⟩
  rw [htravels.halt_eq] at hhalt
  exact Reading.exprs_ne_nil (by simp) hhalt

theorem Reaches.exists_travels (h : Reaches room before run after) :
    ∃ es outer, Reading.Travels room .start (Lexeme.scan 0 before) es (.expr outer) := by
  obtain ⟨z, exprs, hread⟩ := h.readable
  obtain ⟨es, outer, -, htravels, -, -⟩ := exists_travels_of_ok hread
  exact ⟨es, outer, htravels⟩

/-- A number out of range ends the reading that comes to it, whatever follows. -/
theorem Reaches.halt_eq (h : Reaches room before run after)
    (hrange : ¬ (Token.digits run).InRange) :
    (harvest room (before ++ run ++ after)).halt =
      some (Reading.Halt.ofNumber before.length run) := by
  obtain ⟨es, outer, htravels⟩ := h.exists_travels
  rw [harvest, h.scan_eq, htravels.halt_eq, Nat.zero_add, Reading.halt_number hrange]

/-- Where the machine has come to a place for an expression, a `0` there and some more complete one
expression. -/
theorem exists_readable {es : List Expr} {outer : List Reading.Pending}
    (h : Reading.Travels room .start (Lexeme.scan 0 before) es (.expr outer)) :
    ∃ z e, (all room (before ++ ' ' :: '0' :: z)).outcome = .ok (es ++ [e]) := by
  have hrange : (Token.digits ['0']).InRange := by
    constructor <;> decide
  have haccepts : (Reading.step room (.expr outer) (.digits ['0'])).Accepts := by
    rw [Reading.step, Reading.integer_of_inRange hrange]
    exact Reading.accepts_complete _ _
  obtain ⟨ts, e, hts, hpath⟩ := Reading.exists_path_of_accepts haccepts
  have htokens : tokens ('0' :: Reading.spaced ts) = .digits ['0'] :: ts :=
    Reading.tokens_text_spaced (Token.Kind.wellFormed_sample .digit) hts
  have hscan (pos : Nat) : Reading.Path room (.expr outer)
      ((Lexeme.scan pos ('0' :: Reading.spaced ts)).map Lexeme.token) (.done e) := by
    rw [map_token_scan, htokens]
    exact hpath
  refine ⟨Reading.spaced ts, e, ?_⟩
  rw [outcome_all, harvest, Lexeme.scan_append (break_space _),
    Lexeme.scan_blank Text.isBlank_space, h.all_eq, Reading.all_of_path_done (hscan _)]
  rfl

/-- A number that stands alone is where an expression may stand. -/
theorem reaches_alone (h : (Token.digits run).WellFormed) : Reaches room [] run [] where
  digits := h
  left := by simp
  right := Token.ends_nil _
  readable := by
    have htravels : Reading.Travels room .start (Lexeme.scan 0 []) [] (.expr []) := by
      rw [Lexeme.scan_nil]
      exact .stay _
    obtain ⟨z, e, hread⟩ := exists_readable htravels
    exact ⟨z, _, hread⟩

/-- A reading that halts at a number has come to one that is out of range. -/
theorem exists_reaches {halt : Reading.Halt} (h : (harvest room source).halt = some halt)
    (hnumber : halt.AtNumber) :
    ∃ before run after, source = before ++ run ++ after ∧ Reaches room before run after ∧
      ¬ (Token.digits run).InRange := by
  obtain ⟨pre, start, run, post, es, outer, hscan, hrange, htravels⟩ :=
    Reading.exists_number_of_halt h hnumber
  obtain ⟨before, after, rfl, hnumber, rfl⟩ := Lexeme.exists_numberIn hscan
  obtain ⟨z, e, hread⟩ := exists_readable htravels
  exact ⟨before, run, after, rfl, ⟨hnumber, z, _, hread⟩, hrange⟩

omit [Text.Alphabet] in
theorem not_inRange_of_maxDigits_lt (h : Reading.maxDigits < run.length) :
    ¬ (Token.digits run).InRange := by
  rintro ⟨hlength, -⟩
  rw [Reading.maxDigits] at h
  omega

/-- A text is refused for a number of too many digits exactly if reading comes to one. -/
theorem outcome_eq_tooManyDigits_iff {count : Nat} :
    (all room source).outcome = .error (.tooManyDigits count) ↔
      ∃ before run after, source = before ++ run ++ after ∧ Reaches room before run after ∧
        run.length = count ∧ Reading.maxDigits < run.length := by
  constructor
  · intro h
    have hhalt : (harvest room source).halt = some (.tooManyDigits count) := by
      rw [outcome_all] at h
      split at h
      · contradiction
      · rename_i halt hhalt
        cases halt <;> simp_all [Reading.Halt.fault]
    obtain ⟨before, run, after, rfl, hreaches, hrange⟩ := exists_reaches hhalt trivial
    rw [hreaches.halt_eq hrange, Reading.Halt.ofNumber] at hhalt
    split at hhalt
    · rename_i hmany
      have hcount := Reading.Halt.tooManyDigits.inj (Option.some.inj hhalt)
      exact ⟨before, run, after, rfl, hreaches, hcount, hmany⟩
    · simp at hhalt
  · rintro ⟨before, run, after, rfl, hreaches, rfl, hmany⟩
    rw [outcome_all, hreaches.halt_eq (not_inRange_of_maxDigits_lt hmany), Reading.Halt.ofNumber,
      if_pos hmany]
    rfl

end Source

end SproutLang
