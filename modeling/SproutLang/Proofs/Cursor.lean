import SproutLang.Proofs.Concatenation
import SproutLang.Proofs.Expectation

/-!
What a cursor has before it. A cursor keeps nothing but its place in the text, so all that can be
read from it on is settled by the lexemes from there on: its `harvest`, the expressions that are
left and what ends the reading after them.

The one step that a cursor can take is to read an expression. `Prospect` says everything about it:
an expression is taken off the front of the harvest and the cursor moves on, or else the cursor
stays, because nothing is left or because what is left is no expression. Whatever reads from a
cursor again and again is described by following this step.
-/

namespace SproutLang

/-! ### Blanks before a lexeme -/

/-- The first lexeme of a text stands right after the blanks that the text starts with. -/
theorem Lexeme.position_scan [Text.Alphabet] (pos : Nat) (text : List Char) :
    Reading.position (pos + text.length) (scan pos text) =
      pos + (text.takeWhile Text.isBlank).length := by
  induction text using text_induction generalizing pos with
  | nil => simp [Reading.position]
  | blank c rest hb ih =>
      have hrest := ih (pos + 1)
      rw [scan_blank hb, List.takeWhile_cons_of_pos hb, List.length_cons, List.length_cons]
      rw [show pos + (rest.length + 1) = pos + 1 + rest.length by omega, hrest]
      omega
  | token t rest hwf hend _ =>
      obtain ⟨c, cs, htext, hb⟩ := hwf.text_eq_cons
      rw [scan_token hwf hend, htext, List.cons_append, List.takeWhile_cons_of_neg (by simp [hb])]
      rfl

/-- Once a token has been taken, nothing is as at the start until the expression is complete. -/
theorem Reading.Path.ne_start {room : Nat} {s s' : State} {ts : List Token}
    (h : Path room s ts (.go s')) (hne : ts ≠ []) : s' ≠ .start := by
  generalize hgo : Move.go s' = m at h
  induction h with
  | stay s => contradiction
  | last hstep =>
      subst hgo
      exact step_go_ne_start hstep
  | @cons s s₁ t ts m hstep hpath ih =>
      cases ts with
      | nil =>
          subst hgo
          cases hpath with
          | stay => exact step_go_ne_start hstep
      | cons u ts => exact ih (by simp) hgo

namespace Cursor

variable [Text.Alphabet] {room : Nat} {c : Cursor}

/-! ### Moving -/

theorem pos_skipBlanks (h : c.pos ≤ c.source.length) :
    c.skipBlanks.pos = c.pos + (c.remainder.takeWhile Text.isBlank).length := by
  have hpos := Lexeme.position_scan c.pos c.remainder
  rw [remainder, List.length_drop, Nat.add_sub_cancel' h] at hpos
  exact hpos

/-- To skip blanks is to drop them from the front of what is left. -/
theorem remainder_skipBlanks (h : c.pos ≤ c.source.length) :
    c.skipBlanks.remainder = c.remainder.dropWhile Text.isBlank := by
  have hdrop : (c.remainder.takeWhile Text.isBlank ++ c.remainder.dropWhile Text.isBlank).drop
      (c.remainder.takeWhile Text.isBlank).length = c.remainder.dropWhile Text.isBlank :=
    List.drop_left
  rw [List.takeWhile_append_dropWhile] at hdrop
  rw [← hdrop, remainder, pos_skipBlanks h, ← List.drop_drop]
  rfl

/-- Moved to a lexeme, the cursor has the lexemes from there on before it. -/
theorem lexemes_moveTo {taken rest : List Lexeme} (h : c.pos ≤ c.source.length)
    (hsplit : c.lexemes = taken ++ rest) :
    (c.moveTo rest).lexemes = rest ∧ c.pos ≤ (c.moveTo rest).pos ∧
      (c.moveTo rest).pos ≤ c.source.length := by
  obtain ⟨a, b, htext, hafter, hnil, hstart, -⟩ := Lexeme.scan_cut hsplit
  have hlen : c.pos + (a.length + b.length) = c.source.length := by
    have := congrArg List.length htext
    rw [List.length_drop, List.length_append] at this
    omega
  have hpos : (c.moveTo rest).pos = c.pos + a.length := by
    cases rest with
    | nil =>
        rw [hnil rfl, List.length_nil, Nat.add_zero] at hlen
        exact hlen.symm
    | cons l rest => exact hstart l rfl
  refine ⟨?_, by omega, by omega⟩
  have hdrop : c.source.drop (c.pos + a.length) = b := by
    rw [← List.drop_drop, htext, List.drop_left]
  rw [lexemes, hpos, ← hafter, ← hdrop]
  rfl

theorem lexemes_skipBlanks (h : c.pos ≤ c.source.length) : c.skipBlanks.lexemes = c.lexemes :=
  (lexemes_moveTo h (List.nil_append _).symm).1

theorem pos_skipBlanks_le (h : c.pos ≤ c.source.length) : c.skipBlanks.pos ≤ c.source.length :=
  (lexemes_moveTo h (List.nil_append _).symm).2.2

/-- Behind a lexeme the cursor is further on than before it. -/
theorem pos_skipBlanks_lt {taken rest : List Lexeme} (h : c.pos ≤ c.source.length)
    (hsplit : c.lexemes = taken ++ rest) (htaken : taken ≠ []) :
    c.skipBlanks.pos < (c.moveTo rest).pos := by
  have hle : c.skipBlanks.pos ≤ (c.skipBlanks.moveTo rest).pos := by
    rw [← lexemes_skipBlanks h] at hsplit
    exact (lexemes_moveTo (pos_skipBlanks_le h) hsplit).2.1
  refine Nat.lt_of_le_of_ne hle fun heq => htaken ?_
  -- At one and the same place there are the same lexemes.
  have hsame : c.skipBlanks = c.moveTo rest := congrArg (Cursor.mk c.source) heq
  have hlexemes : c.lexemes = rest := by
    rw [← lexemes_skipBlanks h, hsame, (lexemes_moveTo h hsplit).1]
  rw [hsplit] at hlexemes
  simpa using hlexemes

theorem atEnd_skipBlanks_iff (h : c.pos ≤ c.source.length) :
    c.skipBlanks.atEnd = true ↔ c.lexemes = [] := by
  rw [atEnd, decide_eq_true_eq]
  constructor
  · intro hend
    by_cases hne : c.lexemes = []
    · exact hne
    · have hlt := pos_skipBlanks_lt h (List.append_nil _).symm hne
      exact absurd hlt (Nat.not_lt.mpr hend)
  · intro hnil
    rw [skipBlanks, hnil]
    exact Nat.le_refl _

/-! ### Reading -/

def harvest (room : Nat) (c : Cursor) : Reading.Harvest :=
  Reading.all room .start c.lexemes

/-- Before the cursor stands the expression `e`, and behind that the lexemes `rest`. -/
structure Takes (room : Nat) (c : Cursor) (names : List String) (e : Expr) (rest : List Lexeme) :
    Prop where
  one_eq : Reading.one room .start c.lexemes = ⟨names, .ok (e, rest)⟩
  pos_lt : c.skipBlanks.pos < (c.moveTo rest).pos
  pos_le : (c.moveTo rest).pos ≤ c.source.length
  harvest_eq : c.harvest room = (((c.moveTo rest).harvest room).cons e).after names

/-- Before the cursor stands something that cannot be read as an expression. -/
structure Balks (room : Nat) (c : Cursor) (names : List String) (halt : Reading.Halt) : Prop where
  one_eq : Reading.one room .start c.lexemes = ⟨names, .error halt⟩
  lexemes_ne : c.lexemes ≠ []
  harvest_eq : c.harvest room = ⟨names, [], some halt⟩

inductive Prospect (room : Nat) (c : Cursor) : Prop
  | takes (names : List String) (e : Expr) (rest : List Lexeme) :
      c.Takes room names e rest → Prospect room c
  | balks (names : List String) (halt : Reading.Halt) :
      c.Balks room names halt → Prospect room c
  | finished : c.lexemes = [] → Prospect room c

theorem prospect (room : Nat) (h : c.pos ≤ c.source.length) : c.Prospect room := by
  by_cases hnil : c.lexemes = []
  · exact .finished hnil
  have hall : c.harvest room = _ := Reading.all_eq_one fun hls => absurd hls hnil
  have hended := Reading.one_ended room .start c.lexemes
  generalize hone : Reading.one room .start c.lexemes = r at hall hended
  obtain ⟨names, ⟨halt⟩ | ⟨e, rest⟩⟩ := r
  · exact .balks names halt ⟨hone, hnil, hall⟩
  · obtain ⟨taken, hsplit, hpath⟩ := hended
    have htaken : taken ≠ [] := by
      rintro rfl
      cases hpath
    obtain ⟨hlexemes, -, hle⟩ := lexemes_moveTo h hsplit
    refine .takes names e rest ⟨hone, pos_skipBlanks_lt h hsplit htaken, hle, ?_⟩
    rw [hall, harvest, hlexemes]

omit [Text.Alphabet] in
/-- Inside the text, a halt means the same wherever the reading began. -/
theorem fault_eq (halt : Reading.Halt) (h : c.pos ≤ c.source.length) :
    halt.fault c.source c.pos = halt.fault c.source 0 := by
  cases halt with
  | unexpected state rest =>
      simp only [Reading.Halt.fault, Nat.max_eq_right h, Nat.max_eq_right (Nat.zero_le _)]
  | _ => rfl

theorem next_of_ne (h : c.pos ≤ c.source.length) (hne : c.lexemes ≠ []) :
    c.next room = (⟨(c.skipBlanks.read room).1.names, (c.skipBlanks.read room).1.outcome.map some⟩,
      (c.skipBlanks.read room).2) := by
  have hend : ¬ c.skipBlanks.atEnd = true := by
    rw [atEnd_skipBlanks_iff h]
    exact hne
  simp only [next, if_neg hend]

section Prospect

variable {names : List String} {e : Expr} {rest : List Lexeme} {halt : Reading.Halt}

theorem Takes.read_eq (ht : c.Takes room names e rest) :
    c.read room = (⟨names, .ok e⟩, c.moveTo rest) := by
  rw [read_of_ok (congrArg Reading.Result.outcome ht.one_eq), ht.one_eq]

theorem Takes.next_eq (ht : c.Takes room names e rest) (h : c.pos ≤ c.source.length) :
    c.next room = (⟨names, .ok (some e)⟩, c.moveTo rest) := by
  have hne : c.lexemes ≠ [] := by
    intro hnil
    have hone := ht.one_eq
    rw [hnil] at hone
    cases hone
  have hone := ht.one_eq
  rw [← lexemes_skipBlanks h] at hone
  rw [next_of_ne h hne, read_of_ok (congrArg Reading.Result.outcome hone), hone]
  rfl

/-- Behind an expression less is left. -/
theorem Takes.left_lt (ht : c.Takes room names e rest) (h : c.pos ≤ c.source.length) :
    (c.moveTo rest).source.length - (c.moveTo rest).pos < c.source.length - c.pos := by
  have hlt : c.skipBlanks.pos < (c.moveTo rest).pos := ht.pos_lt
  have hle : (c.moveTo rest).pos ≤ c.source.length := ht.pos_le
  have hskip := pos_skipBlanks h
  rw [show (c.moveTo rest).source = c.source from rfl]
  omega

theorem Balks.read_eq (hb : c.Balks room names halt) (h : c.pos ≤ c.source.length) :
    c.read room = (⟨names, .error (halt.fault c.source 0)⟩, c) := by
  rw [read_of_error (congrArg Reading.Result.outcome hb.one_eq), hb.one_eq, fault_eq halt h]

theorem Balks.next_eq (hb : c.Balks room names halt) (h : c.pos ≤ c.source.length) :
    c.next room = (⟨names, .error (halt.fault c.source 0)⟩, c.skipBlanks) := by
  have hone := hb.one_eq
  rw [← lexemes_skipBlanks h] at hone
  rw [next_of_ne h hb.lexemes_ne, read_of_error (congrArg Reading.Result.outcome hone), hone,
    fault_eq halt (pos_skipBlanks_le h)]
  rfl

theorem harvest_of_nil (hnil : c.lexemes = []) : c.harvest room = ⟨[], [], none⟩ := by
  rw [harvest, hnil]
  rfl

theorem read_of_nil (hnil : c.lexemes = []) (h : c.pos ≤ c.source.length) :
    c.read room =
      (⟨[], .error ((Reading.Halt.unexpected .start []).fault c.source 0)⟩, c) := by
  rw [← fault_eq _ h, read, hnil]
  rfl

theorem next_of_nil (hnil : c.lexemes = []) (h : c.pos ≤ c.source.length) :
    c.next room = (⟨[], .ok none⟩, c.skipBlanks) := by
  simp only [next, if_pos ((atEnd_skipBlanks_iff h).mpr hnil)]

/-- Induction along the expressions from a cursor to the end of its text. -/
@[elab_as_elim] theorem prospect_induction (room : Nat)
    {motive : (c : Cursor) → c.pos ≤ c.source.length → Prop}
    (takes : ∀ (c : Cursor) (names : List String) (e : Expr) (rest : List Lexeme)
      (h : c.pos ≤ c.source.length) (ht : c.Takes room names e rest),
      motive (c.moveTo rest) ht.pos_le → motive c h)
    (balks : ∀ (c : Cursor) (names : List String) (halt : Reading.Halt)
      (h : c.pos ≤ c.source.length), c.Balks room names halt → motive c h)
    (finished : ∀ (c : Cursor) (h : c.pos ≤ c.source.length), c.lexemes = [] → motive c h)
    (c : Cursor) (h : c.pos ≤ c.source.length) : motive c h := by
  induction hn : c.source.length - c.pos using Nat.strongRecOn generalizing c with
  | ind n ih =>
      cases prospect room h with
      | takes names e rest ht =>
          have hlt := hn ▸ ht.left_lt h
          exact takes c names e rest h ht (ih _ hlt (c.moveTo rest) ht.pos_le rfl)
      | balks names halt hb => exact balks c names halt h hb
      | finished hnil => exact finished c h hnil

end Prospect

/-- The harvest has halted where the cursor comes to a place from which nothing can be read. -/
theorem exists_balks (h : c.pos ≤ c.source.length) {halt : Reading.Halt}
    (hhalt : (c.harvest room).halt = some halt) :
    ∃ (c' : Cursor) (names : List String), c'.source = c.source ∧ c'.pos ≤ c'.source.length ∧
      c'.Balks room names halt := by
  induction c, h using prospect_induction room with
  | takes c names e rest h ht ih =>
      rw [ht.harvest_eq] at hhalt
      obtain ⟨c', names', hsource, hpos, hb⟩ := ih hhalt
      exact ⟨c', names', hsource, hpos, hb⟩
  | balks c names halt' h hb =>
      rw [hb.harvest_eq] at hhalt
      obtain rfl : halt' = halt := Option.some.inj hhalt
      exact ⟨c, names, rfl, h, hb⟩
  | finished c h hnil =>
      rw [harvest_of_nil hnil] at hhalt
      contradiction

/-- Where a token is refused, either none has been taken and an expression was to start, or one has
been taken and the place is further on. -/
theorem Balks.refused {names : List String} {state : Reading.State} {rest : List Lexeme}
    (hb : c.Balks room names (.unexpected state rest)) (h : c.pos ≤ c.source.length) :
    (state = .start ∧ rest = c.lexemes ∧
      ∀ l ∈ c.lexemes.head?, Reading.step room .start l.token = .unexpected) ∨
    (state ≠ .start ∧ c.skipBlanks.pos < (c.moveTo rest).pos) := by
  have hended := Reading.one_ended room .start c.lexemes
  rw [hb.one_eq] at hended
  obtain ⟨taken, hsplit, hpath, hrefused⟩ := hended
  cases taken with
  | nil =>
      rw [List.nil_append] at hsplit
      subst hsplit
      cases hpath with
      | stay => exact .inl ⟨rfl, rfl, hrefused⟩
  | cons l taken =>
      refine .inr ⟨hpath.ne_start (by simp), pos_skipBlanks_lt h hsplit (by simp)⟩

end Cursor

/-! ### Again and again -/

/-- Done again and again, `step` leads from `a` to `z` with the results `bs`, and there it fails. -/
inductive Repeats {α β ε : Type} (step : α → Except ε (β × α)) : α → List β → α → ε → Prop
  | stop {a : α} {f : ε} : step a = .error f → Repeats step a [] a f
  | more {a a' z : α} {b : β} {bs : List β} {f : ε} :
      step a = .ok (b, a') → Repeats step a' bs z f → Repeats step a (b :: bs) z f

theorem Repeats.unique {α β ε : Type} {step : α → Except ε (β × α)} {a z z' : α} {bs bs' : List β}
    {f f' : ε} (h : Repeats step a bs z f) (h' : Repeats step a bs' z' f') :
    bs = bs' ∧ z = z' ∧ f = f' := by
  induction h generalizing bs' with
  | stop hstep =>
      cases h' with
      | stop hstep' =>
          rw [hstep] at hstep'
          exact ⟨rfl, rfl, Except.error.inj hstep'⟩
      | more hstep' =>
          rw [hstep] at hstep'
          contradiction
  | more hstep _ ih =>
      cases h' with
      | stop hstep' =>
          rw [hstep] at hstep'
          contradiction
      | more hstep' hmore =>
          rw [hstep] at hstep'
          obtain ⟨rfl, rfl⟩ := Prod.mk.inj (Except.ok.inj hstep')
          obtain ⟨rfl, rfl, rfl⟩ := ih hmore
          exact ⟨rfl, rfl, rfl⟩

theorem Repeats.last {α β ε : Type} {step : α → Except ε (β × α)} {a z : α} {bs : List β} {f : ε}
    (h : Repeats step a bs z f) : step z = .error f := by
  induction h with
  | stop hstep => exact hstep
  | more _ _ ih => exact ih

/-- A step that moves on to a later place every time, and no further than some bound, is not done
for ever. -/
theorem exists_repeats_of_lt {α β ε : Type} {step : α → Except ε (β × α)} {inside : α → Prop}
    (place : α → Nat) {bound : Nat} (hbound : ∀ a, inside a → place a ≤ bound)
    (hstep : ∀ a b a', inside a → step a = .ok (b, a') → inside a' ∧ place a < place a')
    {a : α} (ha : inside a) :
    ∃ bs z f, Repeats step a bs z f ∧ inside z ∧ place a + bs.length ≤ place z := by
  induction hn : bound - place a using Nat.strongRecOn generalizing a with
  | ind n ih =>
      cases hfirst : step a with
      | error f => exact ⟨[], a, f, .stop hfirst, ha, Nat.le_refl _⟩
      | ok r =>
          obtain ⟨b, a'⟩ := r
          obtain ⟨ha', hlt⟩ := hstep a b a' ha hfirst
          have hle := hbound a' ha'
          obtain ⟨bs, z, f, hmore, hz, hlen⟩ := ih _ (by omega) ha' rfl
          exact ⟨b :: bs, z, f, .more hfirst hmore, hz, by rw [List.length_cons]; omega⟩

end SproutLang
