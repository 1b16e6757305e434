import SproutLang.Proofs.Descent

/-!
What the descent finds is told by the token that comes next. `Next source pos t` says that behind
the blanks at `pos` stands the token `t`, as the scanner cuts it; `Shows source pos k` that the text
goes on there with a token of the kind `k`, as its characters tell. A text shows one kind at most.
So each leaf of the grammar finds something exactly where its kind is shown, and misses it
otherwise; and of several alternatives only one can find something.
-/

namespace SproutLang.Descent

variable [Text.Alphabet] {source : List Char} {pos : Nat} {t : Token} {pl pl' : Place} {m : Memory}

/-! ### The token at a position -/

def ahead (source : List Char) (pos : Nat) : List Lexeme :=
  Lexeme.scan pos (source.drop pos)

theorem skip_of_length_le (h : source.length ≤ pos) : skip source pos = source.length := by
  rw [skip, List.drop_eq_nil_of_le h, Nat.min_eq_right h]
  rfl

theorem ahead_of_length_le (h : source.length ≤ pos) : ahead source pos = [] := by
  rw [ahead, List.drop_eq_nil_of_le h, Lexeme.scan_nil]

theorem skipBlanks_eq (source : List Char) (pos : Nat) :
    (⟨source, pos⟩ : Cursor).skipBlanks = ⟨source, skip source pos⟩ := by
  refine congrArg (Cursor.mk source) ?_
  by_cases h : pos ≤ source.length
  · rw [skip, Nat.min_eq_left h]
    exact Cursor.pos_skipBlanks h
  · have hle : source.length ≤ pos := by omega
    show Reading.position source.length (ahead source pos) = skip source pos
    rw [ahead_of_length_le hle, skip_of_length_le hle]
    rfl

theorem position_ahead (source : List Char) (pos : Nat) :
    Reading.position source.length (ahead source pos) = skip source pos :=
  congrArg Cursor.pos (skipBlanks_eq source pos)

theorem ahead_skip (source : List Char) (pos : Nat) :
    ahead source (skip source pos) = ahead source pos := by
  by_cases h : pos ≤ source.length
  · have hlexemes := Cursor.lexemes_skipBlanks (c := ⟨source, pos⟩) h
    rw [skipBlanks_eq] at hlexemes
    exact hlexemes
  · have hle : source.length ≤ pos := by omega
    rw [skip_of_length_le hle, ahead_of_length_le hle, ahead_of_length_le (Nat.le_refl _)]

theorem drop_skip (source : List Char) (pos : Nat) :
    source.drop (skip source pos) = (source.drop pos).dropWhile Text.isBlank := by
  by_cases h : pos ≤ source.length
  · have hremainder := Cursor.remainder_skipBlanks (c := ⟨source, pos⟩) h
    rw [skipBlanks_eq] at hremainder
    exact hremainder
  · have hle : source.length ≤ pos := by omega
    rw [skip_of_length_le hle, List.drop_eq_nil_of_le hle, List.drop_length]
    rfl

/-- Behind blanks there is no blank. -/
theorem not_isBlank_skip (source : List Char) (pos : Nat) :
    ∀ c ∈ source[skip source pos]?, Text.isBlank c = false := by
  intro c hc
  rw [← List.head?_drop, drop_skip] at hc
  exact Token.head_dropWhile _ _ c hc

theorem skip_skip (source : List Char) (pos : Nat) :
    skip source (skip source pos) = skip source pos := by
  have hnil : (source.drop (skip source pos)).takeWhile Text.isBlank = [] := by
    have hblank := not_isBlank_skip source pos
    rw [← List.head?_drop] at hblank
    cases hdrop : source.drop (skip source pos) with
    | nil => rfl
    | cons c cs =>
        rw [hdrop] at hblank
        exact List.takeWhile_cons_of_neg (by simp [hblank c rfl])
  have hle := skip_le source pos
  rw [skip, hnil]
  exact Nat.min_eq_left hle

/-- Behind the blanks at `pos` stands the token `t`. -/
structure Next (source : List Char) (pos : Nat) (t : Token) : Prop where
  wellFormed : t.WellFormed
  drop_eq : source.drop (skip source pos) =
    t.text ++ source.drop (skip source pos + t.text.length)
  ends : t.Ends (source.drop (skip source pos + t.text.length))
  ahead_eq : ahead source pos =
    ⟨skip source pos, t⟩ :: ahead source (skip source pos + t.text.length)

theorem next_cases (source : List Char) (pos : Nat) :
    (ahead source pos = [] ∧ source.drop (skip source pos) = []) ∨ ∃ t, Next source pos t := by
  rw [← ahead_skip, ahead]
  cases hdrop : source.drop (skip source pos) with
  | nil => exact .inl ⟨Lexeme.scan_nil _, rfl⟩
  | cons c cs =>
      right
      have hb : Text.isBlank c = false := by
        refine not_isBlank_skip source pos c ?_
        rw [← List.head?_drop, hdrop]
        rfl
      obtain ⟨htext, hwf, hends⟩ := Token.first_spec cs hb
      have hrest : source.drop (skip source pos + (Token.first c cs).1.text.length) =
          (Token.first c cs).2 := by
        rw [← List.drop_drop, hdrop, htext, List.drop_left]
      refine ⟨(Token.first c cs).1, hwf, ?_, ?_, ?_⟩
      · rw [hrest, hdrop, htext]
      · rw [hrest]
        exact hends
      · rw [← ahead_skip, ahead, ahead, hrest, hdrop, htext, Lexeme.scan_token hwf hends]

namespace Next

theorem le (h : Next source pos t) : skip source pos + t.text.length ≤ source.length := by
  have hlen := congrArg List.length h.drop_eq
  obtain ⟨c, cs, htext, -⟩ := h.wellFormed.text_eq_cons
  simp only [List.length_drop, List.length_append, htext, List.length_cons] at hlen ⊢
  omega

/-- A token takes characters, and stands behind the position. -/
theorem pos_lt (h : Next source pos t) :
    pos ≤ skip source pos ∧ skip source pos < skip source pos + t.text.length := by
  obtain ⟨c, cs, htext, -⟩ := h.wellFormed.text_eq_cons
  have hle := h.le
  have hmin := min_le_skip source pos
  rw [htext, List.length_cons] at hle ⊢
  omega

theorem behindBlanks (h : Next source pos t) : Next source (skip source pos) t := by
  refine ⟨h.wellFormed, ?_, ?_, ?_⟩ <;> rw [skip_skip]
  · exact h.drop_eq
  · exact h.ends
  · rw [ahead_skip]
    exact h.ahead_eq

end Next

def Shows (source : List Char) (pos : Nat) (k : Token.Kind) : Prop :=
  k.Starts (source.drop (skip source pos))

theorem Next.shows_iff (h : Next source pos t) (k : Token.Kind) :
    Shows source pos k ↔ t.kind? = some k := by
  constructor
  · intro hshows
    obtain ⟨u, rest, hscan, hu⟩ := Token.Kind.Starts.exists_lexeme hshows 0
    rw [h.drop_eq, Lexeme.scan_token h.wellFormed h.ends] at hscan
    obtain ⟨heq, -⟩ := List.cons.inj hscan
    rw [show t = u from congrArg Lexeme.token heq]
    exact hu
  · intro hk
    have hwf := h.wellFormed
    rw [Shows, h.drop_eq]
    cases t with
    | digits run =>
        obtain rfl := Option.some.inj hk
        obtain ⟨c, cs, rfl⟩ := List.exists_cons_of_ne_nil hwf.1
        exact ⟨c, _, rfl, hwf.2 c List.mem_cons_self⟩
    | name run =>
        obtain rfl := Option.some.inj hk
        obtain ⟨c, cs, rfl⟩ := List.exists_cons_of_ne_nil hwf.1
        exact ⟨c, _, rfl, hwf.2 c List.mem_cons_self⟩
    | unknown c => contradiction
    | _ =>
        obtain rfl := Option.some.inj hk
        exact ⟨_, rfl⟩

theorem not_shows_of_end (h : source.drop (skip source pos) = []) (k : Token.Kind) :
    ¬ Shows source pos k := by
  rw [Shows, h]
  cases k <;> simp [Token.Kind.Starts]

theorem exists_next_of_shows {k : Token.Kind} (h : Shows source pos k) :
    ∃ t, Next source pos t ∧ t.kind? = some k := by
  rcases next_cases source pos with ⟨-, hend⟩ | ⟨t, hnext⟩
  · exact absurd h (not_shows_of_end hend k)
  · exact ⟨t, hnext, (hnext.shows_iff k).mp h⟩

theorem shows_unique {k k' : Token.Kind} (h : Shows source pos k) (h' : Shows source pos k') :
    k = k' := by
  obtain ⟨t, hnext, ht⟩ := exists_next_of_shows h
  rw [hnext.shows_iff, ht] at h'
  exact Option.some.inj h'

theorem shows_skip (k : Token.Kind) :
    Shows source (skip source pos) k ↔ Shows source pos k := by
  rw [Shows, skip_skip, Shows]

/-! ### Single characters and runs -/

/-- The only token of a kind, and the character that it consists of. -/
structure IsPunct (k : Token.Kind) (c : Char) (tok : Token) : Prop where
  starts_iff : ∀ text, k.Starts text ↔ ∃ rest, text = c :: rest
  eq_of_kind : ∀ t : Token, t.kind? = some k → t = tok
  text_eq : tok.text = [c]
  names_eq : tok.names = []

theorem isPunct_lparen : IsPunct .lparen '(' .lparen :=
  ⟨fun _ => Iff.rfl, fun t h => by cases t <;> simp_all [Token.kind?], rfl, rfl⟩

theorem isPunct_rparen : IsPunct .rparen ')' .rparen :=
  ⟨fun _ => Iff.rfl, fun t h => by cases t <;> simp_all [Token.kind?], rfl, rfl⟩

theorem isPunct_equals : IsPunct .equals '=' .equals :=
  ⟨fun _ => Iff.rfl, fun t h => by cases t <;> simp_all [Token.kind?], rfl, rfl⟩

theorem isPunct_backslash : IsPunct .backslash '\\' .backslash :=
  ⟨fun _ => Iff.rfl, fun t h => by cases t <;> simp_all [Token.kind?], rfl, rfl⟩

section

variable {k : Token.Kind} {c : Char} {tok : Token} {letters : List Char}

theorem IsPunct.shows_iff (hk : IsPunct k c tok) :
    Shows source pos k ↔ source[skip source pos]? = some c := by
  rw [Shows, hk.starts_iff, ← List.head?_drop, List.head?_eq_some_iff]

theorem punct_of_shows (hk : IsPunct k c tok) (h : Shows source pl.pos k) :
    (punct source c k).scan pl =
      .ok ((), ⟨skip source (skip source pl.pos + 1), pl.memory⟩) :=
  if_pos (hk.shows_iff.mp h)

theorem punct_of_not_shows (hk : IsPunct k c tok) (h : ¬ Shows source pl.pos k) :
    (punct source c k).scan pl = .error (none, pl.memory.miss (skip source pl.pos) k) :=
  if_neg fun hc => h (hk.shows_iff.mpr hc)

omit [Text.Alphabet] in
/-- A run of a class is empty exactly if the text does not go on with a character of the class. -/
theorem run_eq_nil_iff {p : Char → Bool} :
    run source p pos = [] ↔ ¬ ∃ c rest, source.drop pos = c :: rest ∧ p c = true := by
  rw [run]
  cases source.drop pos with
  | nil => simp
  | cons c cs => cases hc : p c <;> simp [hc]

theorem Next.run_eq {p : Char → Bool} (h : Next source pos t) (hall : ∀ c ∈ t.text, p c = true)
    (hend : ∀ c ∈ (source.drop (skip source pos + t.text.length)).head?, p c = false) :
    run source p (skip source pos) = t.text := by
  rw [run, h.drop_eq]
  exact (Token.takeWhile_append_of_all hall hend).1

theorem ident_of_name (h : Next source pl.pos (.name letters)) :
    (ident source).scan pl = .ok (letters, ⟨skip source (skip source pl.pos + letters.length),
      pl.memory.hash (String.ofList letters)⟩) := by
  have hrun : run source Text.isAlphabetic (skip source pl.pos) = letters :=
    h.run_eq h.wellFormed.2 h.ends
  simp only [ident, Place.pastBlanks, hrun, if_neg h.wellFormed.1]

theorem ident_of_not_shows (h : ¬ Shows source pl.pos .identifier) :
    (ident source).scan pl =
      .error (none, pl.memory.miss (skip source pl.pos) .identifier) := by
  have hrun : run source Text.isAlphabetic (skip source pl.pos) = [] := run_eq_nil_iff.mpr h
  simp only [ident, Place.pastBlanks, hrun, if_true, Place.miss]

theorem exists_name_of_shows (h : Shows source pos .identifier) :
    ∃ letters, Next source pos (.name letters) := by
  obtain ⟨t, hnext, ht⟩ := exists_next_of_shows h
  cases t with
  | name letters => exact ⟨letters, hnext⟩
  | _ => simp [Token.kind?] at ht

theorem next_of_ident (h : (ident source).scan pl = .ok (letters, pl')) :
    Next source pl.pos (.name letters) ∧
      pl' = ⟨skip source (skip source pl.pos + letters.length),
        pl.memory.hash (String.ofList letters)⟩ := by
  by_cases hshows : Shows source pl.pos .identifier
  · obtain ⟨letters', hnext⟩ := exists_name_of_shows hshows
    rw [ident_of_name hnext] at h
    obtain ⟨rfl, rfl⟩ := Prod.mk.inj (Except.ok.inj h)
    exact ⟨hnext, rfl⟩
  · rw [ident_of_not_shows hshows] at h
    contradiction

theorem not_shows_of_ident {e : Option ReadFault × Memory}
    (h : (ident source).scan pl = .error e) :
    e = (none, pl.memory.miss (skip source pl.pos) .identifier) ∧
      ¬ Shows source pl.pos .identifier := by
  by_cases hshows : Shows source pl.pos .identifier
  · obtain ⟨letters, hnext⟩ := exists_name_of_shows hshows
    rw [ident_of_name hnext] at h
    contradiction
  · rw [ident_of_not_shows hshows] at h
    exact ⟨(Except.error.inj h).symm, hshows⟩

end

/-! ### Alternatives -/

section

variable {α : Type} {expr? : Option (Rule source Expr)}

omit [Text.Alphabet] in
theorem otherwise_of_absent {x y : Scan α} (h : x pl = .error (none, m)) :
    otherwise x y pl = y ⟨pl.pos, m⟩ := by
  rw [otherwise, h]

omit [Text.Alphabet] in
/-- A second scan does not matter if it finds nothing where the first has found nothing, and leaves
the memory as it is. -/
theorem otherwise_of_absent_right {x y : Scan α}
    (h : ∀ m, x pl = .error (none, m) → y ⟨pl.pos, m⟩ = .error (none, m)) :
    otherwise x y pl = x pl := by
  rw [otherwise]
  split
  · rename_i m hx
    rw [h m hx, hx]
  · rfl

theorem falseMark_of_not_shows (h : ¬ Shows source pos .falseMark) (m : Memory) :
    falseMark source ⟨skip source pos, m⟩ =
      .error (none, m.miss (skip source pos) .falseMark) := by
  refine if_neg fun hprefix => h ?_
  obtain ⟨rest, hrest⟩ := hprefix
  exact ⟨rest, hrest.symm⟩

theorem falseMark_of_shows (h : Shows source pos .falseMark) (m : Memory) :
    falseMark source ⟨skip source pos, m⟩ =
      .ok (.literal .falsity, ⟨skip source pos + 2, m⟩) := by
  obtain ⟨rest, hrest⟩ := h
  exact if_pos ⟨rest, hrest.symm⟩

theorem integer_of_not_shows (h : ¬ Shows source pos .digit) (m : Memory) :
    integer source ⟨skip source pos, m⟩ = .error (none, m.miss (skip source pos) .digit) := by
  have hrun : run source Text.isAsciiDigit (skip source pos) = [] := run_eq_nil_iff.mpr h
  simp only [integer, hrun, if_true, Place.miss]

/-- Digits that are there are found, or are a fault. -/
theorem integer_ne_absent (h : Shows source pos .digit) (m m' : Memory) :
    integer source ⟨skip source pos, m⟩ ≠ .error (none, m') := by
  have hrun : run source Text.isAsciiDigit (skip source pos) ≠ [] := fun hnil =>
    run_eq_nil_iff.mp hnil h
  simp only [integer, if_neg hrun]
  split
  · simp
  split
  · simp
  · simp

theorem reference_of_not_shows (h : ¬ Shows source pos .identifier) (m : Memory) :
    reference source ⟨skip source pos, m⟩ =
      .error (none, m.miss (skip source pos) .identifier) := by
  have hident : (ident source).scan ⟨skip source pos, m⟩ = _ :=
    ident_of_not_shows (mt (shows_skip _).mp h)
  rw [skip_skip] at hident
  exact bind_of_error hident

theorem reference_of_name {letters : List Char} (h : Next source pos (.name letters))
    (m : Memory) :
    reference source ⟨skip source pos, m⟩ =
      .ok (.ref (Reading.keyOf letters), ⟨skip source (skip source pos + letters.length),
        m.hash (String.ofList letters)⟩) := by
  have hident : (ident source).scan ⟨skip source pos, m⟩ = _ := ident_of_name h.behindBlanks
  rw [skip_skip] at hident
  exact bind_of_ok hident

theorem form_of_not_shows (h : ¬ Shows source pos .lparen) (m : Memory) :
    form expr? ⟨skip source pos, m⟩ = .error (none, m.miss (skip source pos) .lparen) :=
  if_neg fun hc => h (isPunct_lparen.shows_iff.mpr hc)

def pastBlanks (source : List Char) (x : Attempt Expr) : Attempt Expr :=
  x.map fun r => (r.1, r.2.pastBlanks source)

theorem absent_of_pastBlanks {x : Attempt Expr} (h : pastBlanks source x = .error (none, m)) :
    x = .error (none, m) := by
  cases x with
  | ok r => contradiction
  | error e => exact h

/-- Of the alternatives only the one counts that goes with the first token. Those before it have
missed theirs. -/
theorem choice_eq (expr? : Option (Rule source Expr)) (pl : Place) :
    let start (missed : List Token.Kind) : Place :=
      ⟨skip source pl.pos, pl.memory.missAll (skip source pl.pos) missed⟩
    (Shows source pl.pos .falseMark →
      choice expr? pl = pastBlanks source (falseMark source (start []))) ∧
    (Shows source pl.pos .digit →
      choice expr? pl = pastBlanks source (integer source (start [.falseMark]))) ∧
    (Shows source pl.pos .identifier →
      choice expr? pl = pastBlanks source (reference source (start [.falseMark, .digit]))) ∧
    (¬ Shows source pl.pos .falseMark → ¬ Shows source pl.pos .digit →
      ¬ Shows source pl.pos .identifier →
      choice expr? pl =
        pastBlanks source (form expr? (start [.falseMark, .digit, .identifier]))) := by
  intro start
  have hother {k : Token.Kind} (h : Shows source pl.pos k) {k' : Token.Kind} (hne : k ≠ k') :
      ¬ Shows source pl.pos k' := fun h' => hne (shows_unique h h')
  refine ⟨fun h => ?_, fun h => ?_, fun h => ?_, fun h₁ h₂ h₃ => ?_⟩
  · refine congrArg (pastBlanks source) (otherwise_of_absent_right fun m hm => ?_)
    rw [Place.pastBlanks, falseMark_of_shows h] at hm
    contradiction
  · refine congrArg (pastBlanks source) ?_
    refine (otherwise_of_absent (falseMark_of_not_shows (hother h (by decide)) _)).trans ?_
    exact otherwise_of_absent_right fun m hm => absurd hm (integer_ne_absent h _ m)
  · obtain ⟨letters, hnext⟩ := exists_name_of_shows h
    refine congrArg (pastBlanks source) ?_
    refine (otherwise_of_absent (falseMark_of_not_shows (hother h (by decide)) _)).trans ?_
    refine (otherwise_of_absent (integer_of_not_shows (hother h (by decide)) _)).trans ?_
    refine otherwise_of_absent_right fun m hm => ?_
    rw [reference_of_name hnext] at hm
    contradiction
  · refine congrArg (pastBlanks source) ?_
    refine (otherwise_of_absent (falseMark_of_not_shows h₁ _)).trans ?_
    refine (otherwise_of_absent (integer_of_not_shows h₂ _)).trans ?_
    exact otherwise_of_absent (reference_of_not_shows h₃ _)

end

end SproutLang.Descent
