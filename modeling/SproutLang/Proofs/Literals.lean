import Mathlib.Data.Nat.Digits.Defs
import SproutLang.Proofs.Numbers
import SproutLang.Proofs.Relocation

/-!
Numbers where an expression may stand. A reading that comes to such a number has completed some
expressions and has some forms open. The number is either taken by the innermost of these, as the
literal of its value, and the reading goes on right behind its last digit; or it does not fit and
ends the reading at its first digit, whichever forms are open and whatever follows.

That a reading comes to a place is said in two ways. `Source.Meets` follows the machine over what
stands before the place and tells what it has done so far. `Source.Reaches` knows nothing of the
machine: a `0` in that place can be gone on with to a text that can be read. Both say the same.
-/

namespace SproutLang

variable {room : Nat}

/-! ### The value of a run of digits -/

namespace Text

/-- The first digit of a run has the highest place. -/
theorem decimalNumber_eq_ofDigits (run : List Char) :
    decimalNumber run = Nat.ofDigits 10 (run.map fun c => c.toNat - 48).reverse := by
  rw [decimalNumber, Nat.ofDigits_eq_foldr, List.foldr_reverse, List.foldl_map]
  congr
  funext n c
  exact Nat.add_comm _ _

theorem decimalNumber_append_zeros (k : Nat) (run : List Char) :
    decimalNumber (List.replicate k '0' ++ run) = decimalNumber run := by
  induction k with
  | zero => rfl
  | succ k ih => exact ih

/-- The digits of a number write the number, whatever zeros stand before them. -/
theorem decimalNumber_zeros_toDigits (k n : Nat) :
    decimalNumber (List.replicate k '0' ++ Nat.toDigits 10 n) = n := by
  rw [decimalNumber_append_zeros]
  exact Nat.ofDigitChars_ten_toDigits

end Text

namespace Reading

variable {s s' : State} {ls pre : List Lexeme} {es : List Expr} {outer : List Pending}
  {run : List Char}

/-! ### An expression completed -/

def Pending.filled (e : Expr) (outer : List Pending) : Pending → State
  | .callee => .expr (.argument e [] :: outer)
  | .statement params body => .expr (.statement params (body ++ [e]) :: outer)
  | .value name => .defined name e outer
  | .argument head args => .expr (.argument head (args ++ [e]) :: outer)

theorem complete_cons (e : Expr) (p : Pending) (outer : List Pending) :
    complete e (p :: outer) = .go (p.filled e outer) := by
  cases p <;> rfl

/-- What reading an expression comes to, when `e` has been completed inside the open forms and the
lexemes `ls` are left. -/
def oneWith (room : Nat) (e : Expr) : List Pending → List Lexeme → Result (Expr × List Lexeme)
  | [], ls => ⟨[], .ok (e, ls)⟩
  | p :: outer, ls => one room (p.filled e outer) ls

def allWith (room : Nat) (e : Expr) : List Pending → List Lexeme → Harvest
  | [], ls => (all room .start ls).cons e
  | p :: outer, ls => all room (p.filled e outer) ls

section Fits

variable (hrange : (Token.digits run).InRange)

include hrange

theorem one_number (outer : List Pending) (pos : Nat) (ls : List Lexeme) :
    one room (.expr outer) (⟨pos, .digits run⟩ :: ls) =
      oneWith room (.literal (.int (Text.decimalNumber run))) outer ls := by
  rw [one, step, integer_of_inRange hrange]
  cases outer with
  | nil => rfl
  | cons p outer => rw [complete_cons]; rfl

theorem all_number (outer : List Pending) (pos : Nat) (ls : List Lexeme) :
    all room (.expr outer) (⟨pos, .digits run⟩ :: ls) =
      allWith room (.literal (.int (Text.decimalNumber run))) outer ls := by
  rw [all, step, integer_of_inRange hrange]
  cases outer with
  | nil => rfl
  | cons p outer => rw [complete_cons]; rfl

end Fits

/-! ### On the way to a number -/

/-- The way depends on the tokens only, not on where they lie. -/
theorem Travels.of_tokens_eq (h : Travels room s pre es s') {pre' : List Lexeme}
    (htokens : pre'.map Lexeme.token = pre.map Lexeme.token) : Travels room s pre' es s' := by
  induction h generalizing pre' with
  | stay s =>
      obtain rfl : pre' = [] := List.map_eq_nil_iff.mp htokens
      exact .stay s
  | go hstep _ ih =>
      obtain ⟨l', ls', rfl, htoken, hrest⟩ := List.map_eq_cons_iff.mp htokens
      exact .go (htoken ▸ hstep) (ih hrest)
  | done hstep _ ih =>
      obtain ⟨l', ls', rfl, htoken, hrest⟩ := List.map_eq_cons_iff.mp htokens
      exact .done (htoken ▸ hstep) (ih hrest)

theorem Travels.scan [Text.Alphabet] {text : List Char} {pos : Nat}
    (h : Travels room s (Lexeme.scan pos text) es s') (pos' : Nat) :
    Travels room s (Lexeme.scan pos' text) es s' :=
  h.of_tokens_eq (by rw [map_token_scan, map_token_scan])

/-- Before any expression is complete, a reading of one goes the same way. -/
theorem Travels.one_eq (h : Travels room s pre [] s') (ls : List Lexeme) :
    one room s (pre ++ ls) = (one room s' ls).after (namesOf pre) := by
  generalize hnone : ([] : List Expr) = es at h
  induction h with
  | stay s => rfl
  | go hstep _ ih =>
      rw [List.cons_append, one, hstep]
      simp only [ih hnone, Result.after_after, namesOf_cons]
  | done hstep _ ih => contradiction

/-- The digits can be converted, but the number does not fit 64 bits. -/
def TooLarge (run : List Char) : Prop :=
  run.length ≤ 4300 ∧ 0xFFFFFFFFFFFFFFFF < Text.decimalNumber run

example : TooLarge "18446744073709551616".toList ∧ ¬ TooLarge "00018446744073709551615".toList := by
  unfold TooLarge
  decide +kernel

theorem ofNumber_eq_outOfRange_iff {pos pos' : Nat} {run' : List Char}
    (hrange : ¬ (Token.digits run').InRange) :
    Halt.ofNumber pos' run' = .outOfRange pos run ↔ pos' = pos ∧ run' = run ∧ TooLarge run := by
  rw [Token.InRange] at hrange
  rw [Halt.ofNumber]
  split
  · rename_i hmany
    rw [maxDigits] at hmany
    simp only [reduceCtorEq, false_iff]
    rintro ⟨-, rfl, hfew, -⟩
    omega
  · rename_i hfew
    rw [maxDigits] at hfew
    constructor
    · intro h
      obtain ⟨rfl, rfl⟩ := Halt.outOfRange.inj h
      exact ⟨rfl, rfl, by omega, by omega⟩
    · rintro ⟨rfl, rfl, -⟩
      rfl

theorem not_inRange_of_tooLarge (h : TooLarge run) : ¬ (Token.digits run).InRange :=
  fun hrange => Nat.not_le.mpr h.2 hrange.2

/-- Reading a text halts at a number for its size exactly if it comes to one that is too large. -/
theorem halt_eq_outOfRange_iff {pos : Nat} :
    (all room s ls).halt = some (.outOfRange pos run) ↔
      ∃ pre post es outer, ls = pre ++ ⟨pos, .digits run⟩ :: post ∧
        Travels room s pre es (.expr outer) ∧ TooLarge run := by
  constructor
  · intro h
    obtain ⟨pre, start, run', post, es, outer, rfl, hrange, htravels⟩ :=
      exists_number_of_halt h trivial
    rw [htravels.halt_eq, halt_number hrange, Option.some.injEq,
      ofNumber_eq_outOfRange_iff hrange] at h
    obtain ⟨rfl, rfl, hlarge⟩ := h
    exact ⟨pre, post, es, outer, rfl, htravels, hlarge⟩
  · rintro ⟨pre, post, es, outer, rfl, htravels, hlarge⟩
    have hrange := not_inRange_of_tooLarge hlarge
    rw [htravels.halt_eq, halt_number hrange,
      (ofNumber_eq_outOfRange_iff hrange).mpr ⟨rfl, rfl, hlarge⟩]

/-- So does reading one expression, if it comes to the number before that is complete. -/
theorem one_eq_outOfRange_iff {pos : Nat} :
    (one room s ls).outcome = .error (.outOfRange pos run) ↔
      ∃ pre post outer, ls = pre ++ ⟨pos, .digits run⟩ :: post ∧
        Travels room s pre [] (.expr outer) ∧ TooLarge run := by
  constructor
  · intro h
    have hls : ls = [] → s ≠ .start := by
      rintro rfl
      simp [one] at h
    have hall : all room s ls = _ := all_eq_one hls
    rw [h] at hall
    obtain ⟨pre, post, es, outer, rfl, htravels, hlarge⟩ :=
      halt_eq_outOfRange_iff.mp (congrArg Harvest.halt hall)
    rw [htravels.all_eq] at hall
    -- Nothing was complete when the reading halted.
    obtain rfl : es = [] := (List.append_eq_nil_iff.mp (congrArg Harvest.exprs hall)).1
    exact ⟨pre, post, outer, rfl, htravels, hlarge⟩
  · rintro ⟨pre, post, outer, rfl, htravels, hlarge⟩
    have hfew : ¬ maxDigits < run.length := Nat.not_lt.mpr hlarge.1
    have hstep : step room (.expr outer) (.digits run) = .outOfRange run := by
      rw [step, integer, if_neg hfew, if_pos (show maxInt < _ from hlarge.2)]
    rw [htravels.one_eq, one, hstep]
    rfl

end Reading

/-! ### Whole texts -/

namespace Source

variable [Text.Alphabet] {before run after source : List Char} {es : List Expr}
  {outer : List Reading.Pending} {site : Text.Site}

/-- Reading comes to the number `run` between `before` and `after` when it has completed `es` and
the forms `outer` are open. -/
structure Meets (room : Nat) (before run after : List Char) (es : List Expr)
    (outer : List Reading.Pending) : Prop extends NumberIn before run after where
  travels : Reading.Travels room .start (Lexeme.scan 0 before) es (.expr outer)

theorem reaches_iff_exists_meets :
    Reaches room before run after ↔ ∃ es outer, Meets room before run after es outer := by
  constructor
  · intro h
    obtain ⟨es, outer, htravels⟩ := h.exists_travels
    exact ⟨es, outer, h.toNumberIn, htravels⟩
  · rintro ⟨es, outer, h⟩
    obtain ⟨z, e, hread⟩ := exists_readable h.travels
    exact ⟨h.toNumberIn, z, es ++ [e], hread⟩

/-- What stands before the number can be gone on with to a single expression, exactly if nothing is
complete when reading comes to the number. -/
theorem exists_meets_nil_iff (h : NumberIn before run after) :
    (∃ outer, Meets room before run after [] outer) ↔
      ∃ z e, (all room (before ++ ' ' :: '0' :: z)).outcome = .ok [e] := by
  constructor
  · rintro ⟨outer, hmeets⟩
    exact exists_readable hmeets.travels
  · rintro ⟨z, e, hread⟩
    obtain ⟨es, outer, more, htravels, hmore, hexprs⟩ := exists_travels_of_ok hread
    obtain rfl : es = [] := by
      cases es with
      | nil => rfl
      | cons e' es =>
          rw [List.cons_append, List.cons.injEq] at hexprs
          exact absurd (List.append_eq_nil_iff.mp hexprs.2.symm).2 hmore
    exact ⟨outer, h, htravels⟩

/-- A number that fits is taken, and the reading goes on behind it. -/
theorem Meets.harvest_eq (h : Meets room before run after es outer)
    (hrange : (Token.digits run).InRange) :
    harvest room (before ++ run ++ after) =
      (Reading.allWith room (.literal (.int (Text.decimalNumber run))) outer
        (Lexeme.scan (before.length + run.length) after)).behind
          (Reading.namesOf (Lexeme.scan 0 before)) es := by
  rw [harvest, h.scan_eq, h.travels.all_eq, Reading.all_number hrange, Nat.zero_add]

/-- The text has, at the site, the number `run`, which is too large, and reading comes to it where
an expression may stand. -/
def TooLargeAt (room : Nat) (source : List Char) (site : Text.Site) (run : List Char) : Prop :=
  ∃ before after, source = before ++ run ++ after ∧ site = .of source before.length ∧
    Reaches room before run after ∧ Reading.TooLarge run

omit [Text.Alphabet] in
theorem fault_eq_outOfRange_iff {halt : Reading.Halt} {pos : Nat} :
    halt.fault source pos = .outOfRange site run ↔
      ∃ start, halt = .outOfRange start run ∧ site = .of source start := by
  cases halt with
  | outOfRange start run' =>
      rw [Reading.Halt.fault, ReadFault.outOfRange.injEq]
      constructor
      · rintro ⟨rfl, rfl⟩
        exact ⟨start, rfl, rfl⟩
      · rintro ⟨start', h, rfl⟩
        obtain ⟨rfl, rfl⟩ := Reading.Halt.outOfRange.inj h
        exact ⟨rfl, rfl⟩
  | _ => simp [Reading.Halt.fault]

theorem tooLargeAt_iff :
    TooLargeAt room source site run ↔
      ∃ start, (harvest room source).halt = some (.outOfRange start run) ∧
        site = .of source start := by
  constructor
  · rintro ⟨before, after, rfl, rfl, hreaches, hlarge⟩
    have hrange := Reading.not_inRange_of_tooLarge hlarge
    refine ⟨before.length, ?_, rfl⟩
    rw [hreaches.halt_eq hrange,
      (Reading.ofNumber_eq_outOfRange_iff hrange).mpr ⟨rfl, rfl, hlarge⟩]
  · rintro ⟨start, hhalt, rfl⟩
    obtain ⟨before, run', after, rfl, hreaches, hrange⟩ := exists_reaches hhalt trivial
    rw [hreaches.halt_eq hrange, Option.some.injEq,
      Reading.ofNumber_eq_outOfRange_iff hrange] at hhalt
    obtain ⟨rfl, rfl, hlarge⟩ := hhalt
    exact ⟨before, after, rfl, rfl, hreaches, hlarge⟩

theorem all_eq_outOfRange_iff :
    (all room source).outcome = .error (.outOfRange site run) ↔
      TooLargeAt room source site run := by
  rw [tooLargeAt_iff, outcome_all]
  cases (harvest room source).halt with
  | none => simp
  | some halt => simp [fault_eq_outOfRange_iff]

/-- The reading that leaves what starts no expression does not leave a number. -/
theorem many_eq_outOfRange_iff :
    (many room source).outcome = .error (.outOfRange site run) ↔
      TooLargeAt room source site run := by
  rw [← all_eq_outOfRange_iff]
  cases endings room source with
  | finished hall hmany => simp [hall, hmany]
  | left rest site' hall hmany _ _ _ _ => simp [hall, hmany]
  | broken fault hall hmany => rw [hall, hmany]; simp

end Source

/-! ### Cursors -/

namespace Cursor

variable [Text.Alphabet] {c : Cursor} {before run after : List Char} {outer : List Reading.Pending}
  {site : Text.Site}

def answer (c : Cursor) (r : Reading.Result (Expr × List Lexeme)) : Source.Reply Expr × Cursor :=
  match r.outcome with
  | .ok (e, rest) => (⟨r.names, .ok e⟩, c.moveTo rest)
  | .error halt => (⟨r.names, .error (halt.fault c.source c.pos)⟩, c)

theorem read_eq_answer (room : Nat) (c : Cursor) :
    c.read room = c.answer (Reading.one room .start c.lexemes) := rfl

theorem lexemes_number (h : NumberIn before run after)
    (hleft : c.remainder = before ++ run ++ after) :
    c.lexemes = Lexeme.scan c.pos before ++ ⟨c.pos + before.length, .digits run⟩ ::
      Lexeme.scan (c.pos + before.length + run.length) after :=
  (congrArg (Lexeme.scan c.pos) hleft).trans (h.scan_eq c.pos)

/-- A number that fits is taken, and the reading of the expression goes on behind it. -/
theorem one_of_meets (h : Source.Meets room before run after [] outer)
    (hleft : c.remainder = before ++ run ++ after) (hrange : (Token.digits run).InRange) :
    Reading.one room .start c.lexemes =
      (Reading.oneWith room (.literal (.int (Text.decimalNumber run))) outer
        (Lexeme.scan (c.pos + before.length + run.length) after)).after
          (Reading.namesOf (Lexeme.scan c.pos before)) := by
  rw [lexemes_number h.toNumberIn hleft, (h.travels.scan c.pos).one_eq, Reading.one_number hrange]

/-- The text has, at the site, the number `run`, which is too large, and reading an expression at
the cursor comes to it: with a `0` in its place, what stands between the cursor and the number can
be gone on with to an expression. -/
def TooLargeAt (room : Nat) (c : Cursor) (site : Text.Site) (run : List Char) : Prop :=
  ∃ before after, c.remainder = before ++ run ++ after ∧
    site = .of c.source (c.pos + before.length) ∧ NumberIn before run after ∧
    (∃ z e, (Source.all room (before ++ ' ' :: '0' :: z)).outcome = .ok [e]) ∧
    Reading.TooLarge run

theorem one_eq_outOfRange_iff {start : Nat} :
    (Reading.one room .start c.lexemes).outcome = .error (.outOfRange start run) ↔
      ∃ before after, c.remainder = before ++ run ++ after ∧ start = c.pos + before.length ∧
        NumberIn before run after ∧
        (∃ z e, (Source.all room (before ++ ' ' :: '0' :: z)).outcome = .ok [e]) ∧
        Reading.TooLarge run := by
  rw [Reading.one_eq_outOfRange_iff]
  constructor
  · rintro ⟨pre, post, outer, hsplit, htravels, hlarge⟩
    obtain ⟨before, after, hleft, hnumber, rfl⟩ := Lexeme.exists_numberIn hsplit
    have hmeets : Source.Meets room before run after [] outer := ⟨hnumber, htravels.scan 0⟩
    have hstart : start = c.pos + before.length := by
      rw [lexemes_number hnumber hleft] at hsplit
      have hhead := (List.cons.inj (List.append_cancel_left hsplit)).1
      exact (congrArg Lexeme.start hhead).symm
    exact ⟨before, after, hleft, hstart, hnumber,
      (Source.exists_meets_nil_iff hnumber).mp ⟨outer, hmeets⟩, hlarge⟩
  · rintro ⟨before, after, hleft, rfl, hnumber, hread, hlarge⟩
    obtain ⟨outer, hmeets⟩ := (Source.exists_meets_nil_iff hnumber).mpr hread
    exact ⟨_, _, outer, lexemes_number hnumber hleft, hmeets.travels.scan c.pos, hlarge⟩

theorem read_eq_outOfRange_iff :
    (c.read room).1.outcome = .error (.outOfRange site run) ↔ c.TooLargeAt room site run := by
  constructor
  · intro h
    obtain ⟨halt, hhalt, hfault, -⟩ := exists_halt_of_read h
    obtain ⟨start, rfl, rfl⟩ := Source.fault_eq_outOfRange_iff.mp hfault.symm
    obtain ⟨before, after, hleft, rfl, hrest⟩ := one_eq_outOfRange_iff.mp hhalt
    exact ⟨before, after, hleft, rfl, hrest⟩
  · rintro ⟨before, after, hleft, rfl, hrest⟩
    have hhalt := one_eq_outOfRange_iff.mpr ⟨before, after, hleft, rfl, hrest⟩
    rw [read_of_error hhalt]
    rfl

/-- With something before it, the cursor asked for the next expression replies as to reading one. -/
theorem next_reply (room : Nat) (hne : c.lexemes ≠ []) :
    (c.next room).1 = ⟨(c.read room).1.names, (c.read room).1.outcome.map some⟩ ∧
      ∀ e, (c.read room).1.outcome = .ok e → (c.next room).2 = (c.read room).2 := by
  have hpos : c.pos ≤ c.source.length := by
    refine Nat.le_of_not_lt fun hlt => hne ?_
    rw [lexemes, List.drop_eq_nil_of_le (Nat.le_of_lt hlt), Lexeme.scan_nil]
  cases c.prospect room hpos with
  | takes names e rest ht =>
      rw [ht.read_eq, ht.next_eq hpos]
      exact ⟨rfl, fun _ _ => rfl⟩
  | balks names halt hb =>
      rw [hb.read_eq hpos, hb.next_eq hpos]
      exact ⟨rfl, fun _ h => absurd h (by simp)⟩
  | finished hnil => contradiction

theorem next_eq_outOfRange_iff :
    (c.next room).1.outcome = .error (.outOfRange site run) ↔ c.TooLargeAt room site run := by
  rw [← read_eq_outOfRange_iff]
  by_cases hnil : c.lexemes = []
  · have hend : c.skipBlanks.atEnd = true := by
      rw [skipBlanks, hnil, atEnd, decide_eq_true_eq]
      exact Nat.le_refl _
    simp [next, read, hend, hnil, Reading.one, Reading.Halt.fault]
  · rw [(next_reply room hnil).1]
    cases (c.read room).1.outcome with
    | ok e => simp [Except.map]
    | error fault => simp [Except.map]

end Cursor

namespace Source

variable [Text.Alphabet]

/-- The first expression of a text is the one that a cursor reads at its start. -/
theorem first_eq (room : Nat) (source : List Char) :
    let a := Cursor.read room ⟨source, 0⟩
    first room source = ⟨a.1.names, a.1.outcome.map fun e => (e, a.2.remainder)⟩ := by
  have hlexemes : (⟨source, 0⟩ : Cursor).lexemes = Lexeme.scan 0 source := rfl
  simp only [first, Cursor.read, hlexemes]
  cases (Reading.one room .start (Lexeme.scan 0 source)).outcome <;> rfl

/-- Numbers are read exactly or not at all. Where reading comes to a number of at most 4300 digits,
whatever it has completed and whichever forms are open, one that fits 64 bits becomes the literal of
its value, for the innermost open form to take, and the reading goes on behind its last digit. One
that does not fit is a fault at its first digit, whatever follows, however the text is read; and
there is no such fault otherwise. Reading comes to a number exactly if a `0` in its place can be
gone on with to a text that can be read, and before it has completed anything, exactly if that can
be a single expression. The value is that of the digits in base ten, and zeros in front of them do
not count. -/
theorem numbers_exact_or_fatal (room : Nat) :
    (∀ before run after,
      Reaches room before run after ↔ ∃ es outer, Meets room before run after es outer) ∧
    (∀ before run after, NumberIn before run after →
      ((∃ outer, Meets room before run after [] outer) ↔
        ∃ z e, (all room (before ++ ' ' :: '0' :: z)).outcome = .ok [e])) ∧
    (∀ before run after es outer, Meets room before run after es outer →
      run.length ≤ 4300 → Text.decimalNumber run ≤ 0xFFFFFFFFFFFFFFFF →
      let source := before ++ run ++ after
      let behind := Lexeme.scan (before.length + run.length) after
      let h := (Reading.allWith room (.literal (.int (Text.decimalNumber run))) outer behind).behind
        (Reading.namesOf (Lexeme.scan 0 before)) es
      all room source = allOf source h ∧ many room source = manyOf source h) ∧
    (∀ (c : Cursor) before run after outer, Meets room before run after [] outer →
      c.remainder = before ++ run ++ after →
      run.length ≤ 4300 → Text.decimalNumber run ≤ 0xFFFFFFFFFFFFFFFF →
      let behind := Lexeme.scan (c.pos + before.length + run.length) after
      let r := (Reading.oneWith room (.literal (.int (Text.decimalNumber run))) outer behind).after
        (Reading.namesOf (Lexeme.scan c.pos before))
      c.read room = c.answer r ∧
      (c.next room).1 = ⟨(c.answer r).1.names, (c.answer r).1.outcome.map some⟩ ∧
      ∀ e, (c.answer r).1.outcome = .ok e → (c.next room).2 = (c.answer r).2) ∧
    (∀ source site run,
      ((all room source).outcome = .error (.outOfRange site run) ↔
        TooLargeAt room source site run) ∧
      ((many room source).outcome = .error (.outOfRange site run) ↔
        TooLargeAt room source site run)) ∧
    (∀ (c : Cursor) site run,
      ((c.read room).1.outcome = .error (.outOfRange site run) ↔ c.TooLargeAt room site run) ∧
      ((c.next room).1.outcome = .error (.outOfRange site run) ↔ c.TooLargeAt room site run)) ∧
    (∀ source,
      let a := Cursor.read room ⟨source, 0⟩
      first room source = ⟨a.1.names, a.1.outcome.map fun e => (e, a.2.remainder)⟩) ∧
    (∀ run, Text.decimalNumber run =
      Nat.ofDigits 10 (run.map fun c => c.toNat - 48).reverse) ∧
    (∀ k n, Text.decimalNumber (List.replicate k '0' ++ Nat.toDigits 10 n) = n) := by
  refine ⟨fun before run after => reaches_iff_exists_meets,
    fun before run after hnumber => exists_meets_nil_iff hnumber, ?_, ?_,
    fun source site run => ⟨all_eq_outOfRange_iff, many_eq_outOfRange_iff⟩,
    fun c site run => ⟨Cursor.read_eq_outOfRange_iff, Cursor.next_eq_outOfRange_iff⟩,
    first_eq room, Text.decimalNumber_eq_ofDigits, Text.decimalNumber_zeros_toDigits⟩
  · intro before run after es outer hmeets hfew hfits source behind h
    have hharvest : harvest room source = h := hmeets.harvest_eq ⟨hfew, hfits⟩
    rw [← hharvest]
    exact ⟨rfl, rfl⟩
  · intro c before run after outer hmeets hleft hfew hfits behind r
    have hone : Reading.one room .start c.lexemes = r :=
      Cursor.one_of_meets hmeets hleft ⟨hfew, hfits⟩
    have hread : c.read room = c.answer r := by rw [c.read_eq_answer, hone]
    have hne : c.lexemes ≠ [] := by
      rw [Cursor.lexemes_number hmeets.toNumberIn hleft]
      simp
    have hnext := Cursor.next_reply room hne
    rw [hread] at hnext
    exact ⟨hread, hnext⟩

end Source

end SproutLang
