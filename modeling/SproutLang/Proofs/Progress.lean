import SproutLang.Proofs.Agreement
import SproutLang.Proofs.Relocation

/-!
How far reading goes, and how deep. Every expression that is read moves the cursor on, so that a
text is read in at most as many rounds as it has characters: the loops that stop after a number of
rounds never come to that number, and are the loops that go on until there is nothing more.

The machine opens a form at a parenthesis only, so that no more forms are open at any time than the
text has parentheses. As many are enough room for it, and with them the descent never goes deeper
than it may.
-/

namespace SproutLang

variable {room : Nat}

/-! ### Open forms -/

namespace Reading

def State.opened : State → Nat
  | .expr outer => outer.length
  | .header outer => outer.length + 1
  | .params _ outer => outer.length + 1
  | .target outer => outer.length + 1
  | .defined _ _ outer => outer.length + 1

/-- At most `count` forms are open after the move, and if one more was too many, there was room for
less than `count`. -/
def Move.OpensUpTo (room count : Nat) : Move → Prop
  | .go s => s.opened ≤ count
  | .tooDeep => room < count
  | _ => True

theorem opensUpTo_complete (e : Expr) {outer : List Pending} {count : Nat}
    (h : outer.length ≤ count) : (complete e outer).OpensUpTo room count := by
  cases outer with
  | nil => trivial
  | cons p outer => cases p <;> exact h

/-- A token opens one form if it is a parenthesis, and none otherwise. -/
theorem opensUpTo_step (room : Nat) (s : State) (t : Token) :
    (step room s t).OpensUpTo room (s.opened + [t].count .lparen) := by
  unfold step
  split
  case h_2 outer run =>
      unfold integer
      split
      · trivial
      split
      · trivial
      exact opensUpTo_complete _ (Nat.le_add_right _ _)
  case h_4 outer =>
      split
      · exact Nat.le_refl _
      · rename_i hfull
        exact Nat.lt_succ_of_le (Nat.le_of_not_lt hfull)
  -- No other token opens a form: it is refused, or goes into one that is open, or closes one.
  all_goals first
    | trivial
    | exact opensUpTo_complete _ (Nat.le_add_right _ _)
    | exact opensUpTo_complete _ (Nat.le_succ _)
    | exact Nat.le_refl _
    | exact Nat.le_succ _

/-- Where the machine finds no room, more parentheses are ahead than there is room left. -/
theorem lt_of_one_eq_tooDeep {s : State} {ls : List Lexeme}
    (h : (one room s ls).outcome = .error .tooDeep) :
    room < s.opened + (ls.map Lexeme.token).count .lparen := by
  induction ls generalizing s with
  | nil => simp [one] at h
  | cons l ls ih =>
      have hstep := opensUpTo_step room s l.token
      have hcount : ((l :: ls).map Lexeme.token).count .lparen =
          [l.token].count .lparen + (ls.map Lexeme.token).count .lparen := by
        rw [← List.count_append]
        rfl
      rw [one] at h
      rw [hcount]
      cases hmove : step room s l.token with
      | go s' =>
          rw [hmove] at h hstep
          have hrest := ih h
          have hopened : s'.opened ≤ _ := hstep
          omega
      | tooDeep =>
          rw [hmove] at hstep
          have hroom : room < _ := hstep
          omega
      | _ => simp [hmove] at h

/-- Room that is not used up could as well be more. -/
theorem one_of_room_le {room' : Nat} (hle : room ≤ room') {s : State} {ls : List Lexeme}
    (h : (one room s ls).outcome ≠ .error .tooDeep) : one room' s ls = one room s ls := by
  induction ls generalizing s with
  | nil => rfl
  | cons l ls ih =>
      have hstep : step room s l.token ≠ .tooDeep := by
        intro hdeep
        rw [one, hdeep] at h
        exact h rfl
      rw [one] at h
      rw [one, one, step_of_room_le hle hstep]
      cases hmove : step room s l.token with
      | go s' =>
          rw [hmove] at h
          simp only [ih h]
      | _ => rfl

theorem Halt.eq_tooDeep_of_fault {halt : Halt} {source : List Char} {start : Nat}
    (h : halt.fault source start = .tooDeep) : halt = .tooDeep := by
  cases halt with
  | tooDeep => rfl
  | _ => contradiction

end Reading

/-- A parenthesis is a token of one character, so there are no more such tokens than characters. -/
theorem count_tokens_lparen_le [Text.Alphabet] (text : List Char) :
    (tokens text).count .lparen ≤ text.count '(' := by
  induction text using text_induction with
  | nil => simp
  | blank c rest hb ih =>
      rw [tokens_blank hb]
      exact Nat.le_trans ih List.count_le_count_cons
  | token t rest hwf hend ih =>
      have hone : [t].count .lparen ≤ t.text.count '(' := by
        by_cases ht : t = .lparen
        · subst ht
          decide
        · rw [List.count_singleton, beq_eq_false_iff_ne.mpr ht]
          exact Nat.zero_le _
      rw [tokens_token hwf hend, List.count_append, List.count_cons, ← List.count_singleton]
      omega

namespace Cursor

variable [Text.Alphabet] {c : Cursor}

theorem lt_of_one_eq_tooDeep (h : (Reading.one room .start c.lexemes).outcome = .error .tooDeep) :
    room < c.remainder.count '(' := by
  have hlt := Reading.lt_of_one_eq_tooDeep h
  have hcount := count_tokens_lparen_le c.remainder
  rw [show c.lexemes.map Lexeme.token = tokens c.remainder from map_token_scan _ _] at hlt
  have hstart : Reading.State.start.opened = 0 := rfl
  omega

theorem lt_of_readOne_eq_tooDeep (h : readOne room c = .error .tooDeep) :
    room < c.remainder.count '(' := by
  cases hread : (c.read room).1.outcome with
  | ok e =>
      rw [readOne, hread] at h
      contradiction
  | error fault =>
      rw [readOne, hread] at h
      obtain rfl : fault = .tooDeep := Except.error.inj h
      obtain ⟨halt, hone, hfault, -⟩ := exists_halt_of_read hread
      obtain rfl := Reading.Halt.eq_tooDeep_of_fault hfault.symm
      exact lt_of_one_eq_tooDeep hone

theorem readOne_of_room_le {room' : Nat} (hle : room ≤ room') (h : c.remainder.count '(' ≤ room) :
    readOne room' c = readOne room c := by
  have hone : Reading.one room' .start c.lexemes = Reading.one room .start c.lexemes := by
    refine Reading.one_of_room_le hle fun hdeep => ?_
    exact absurd h (Nat.not_le.mpr (lt_of_one_eq_tooDeep hdeep))
  rw [readOne, readOne, read, read, hone]

theorem lt_of_harvest_eq_tooDeep (h : c.pos ≤ c.source.length)
    (hdeep : (c.harvest room).halt = some .tooDeep) : room < c.source.count '(' := by
  obtain ⟨c', names, hsource, -, hb⟩ := exists_balks h hdeep
  have hlt := lt_of_one_eq_tooDeep (congrArg Reading.Result.outcome hb.one_eq)
  rw [← hsource]
  exact Nat.lt_of_lt_of_le hlt ((List.drop_sublist _ _).count_le _)

/-! ### Rounds -/

/-- Asking for the next expression as a step: the expression and the cursor behind it, or a fault,
or that nothing is left. -/
def nextOne (room : Nat) (c : Cursor) : Except (Option ReadFault) (Expr × Cursor) :=
  match (c.next room).1.outcome with
  | .ok (some e) => .ok (e, (c.next room).2)
  | .ok none => .error none
  | .error fault => .error (some fault)

def Inside (source : List Char) (c : Cursor) : Prop :=
  c.source = source ∧ c.pos ≤ source.length

theorem readOne_advances {source : List Char} (c : Cursor) (e : Expr) (c' : Cursor)
    (h : c.Inside source) (hread : readOne room c = .ok (e, c')) :
    c'.Inside source ∧ c.pos < c'.pos := by
  obtain ⟨rfl, hpos⟩ := h
  cases prospect room hpos with
  | takes names e' rest ht =>
      rw [readOne, ht.read_eq] at hread
      obtain rfl : c.moveTo rest = c' := (Prod.mk.inj (Except.ok.inj hread)).2
      have hlt : c.source.length - (c.moveTo rest).pos < c.source.length - c.pos := ht.left_lt hpos
      exact ⟨⟨rfl, ht.pos_le⟩, by omega⟩
  | balks names halt hb =>
      rw [readOne, hb.read_eq hpos] at hread
      contradiction
  | finished hnil =>
      rw [readOne, read_of_nil hnil hpos] at hread
      contradiction

/-- What is handed out next is what can be read. -/
theorem readOne_of_nextOne (h : c.pos ≤ c.source.length) {r : Expr × Cursor}
    (hnext : nextOne room c = .ok r) : readOne room c = .ok r := by
  cases prospect room h with
  | takes names e rest ht =>
      rw [nextOne, ht.next_eq h] at hnext
      obtain rfl := Except.ok.inj hnext
      rw [readOne, ht.read_eq]
      rfl
  | balks names halt hb =>
      rw [nextOne, hb.next_eq h] at hnext
      contradiction
  | finished hnil =>
      rw [nextOne, next_of_nil hnil h] at hnext
      contradiction

theorem nextOne_advances {source : List Char} (c : Cursor) (e : Expr) (c' : Cursor)
    (h : c.Inside source) (hnext : nextOne room c = .ok (e, c')) :
    c'.Inside source ∧ c.pos < c'.pos := by
  refine readOne_advances c e c' h (readOne_of_nextOne ?_ hnext)
  rw [h.1]
  exact h.2

def drained (es : List Expr) : Option ReadFault → Except ReadFault (List Expr)
  | none => .ok es
  | some fault => .error fault

def parted (es : List Expr) (last : Cursor) (fault : ReadFault) :
    Except ReadFault (List Expr × List Char) :=
  if fault.refusedBy last.skipBlanks.pos then .ok (es, last.skipBlanks.remainder) else .error fault

theorem readUpTo_of_repeats {es : List Expr} {last : Cursor} {fault : ReadFault}
    (h : Repeats (readOne room) c es last fault) {count : Nat} (hcount : es.length < count) :
    (c.readUpTo room count).outcome = parted es last fault := by
  induction h generalizing count with
  | @stop c fault hread =>
      obtain ⟨count, rfl⟩ : ∃ n, count = n + 1 := ⟨count - 1, by omega⟩
      cases houtcome : (c.read room).1.outcome with
      | ok e =>
          rw [readOne, houtcome] at hread
          contradiction
      | error fault' =>
          rw [readOne, houtcome] at hread
          obtain rfl : fault' = fault := Except.error.inj hread
          simp only [readUpTo, houtcome, parted]
          split <;> rfl
  | @more c c' last e es fault hread _ ih =>
      rw [List.length_cons] at hcount
      obtain ⟨count, rfl⟩ : ∃ n, count = n + 1 := ⟨count - 1, by omega⟩
      have hrest := @ih count (by omega)
      cases houtcome : (c.read room).1.outcome with
      | error fault' =>
          rw [readOne, houtcome] at hread
          contradiction
      | ok e' =>
          rw [readOne, houtcome] at hread
          obtain ⟨rfl, rfl⟩ := Prod.mk.inj (Except.ok.inj hread)
          simp only [readUpTo, houtcome]
          rw [hrest, parted, parted]
          split <;> rfl

end Cursor

theorem Tap.drainUpTo_of_repeats [Text.Alphabet] {c last : Cursor} {es : List Expr}
    {stop : Option ReadFault} (h : Repeats (Cursor.nextOne room) c es last stop)
    {count : Nat} (hcount : es.length < count) :
    (drainUpTo room count ⟨c, true⟩).1.outcome = Cursor.drained es stop := by
  induction h generalizing count with
  | @stop c stop hnext =>
      obtain ⟨count, rfl⟩ : ∃ n, count = n + 1 := ⟨count - 1, by omega⟩
      rw [Cursor.nextOne] at hnext
      split at hnext
      · contradiction
      · rename_i houtcome
        obtain rfl := Except.error.inj hnext
        simp only [drainUpTo, advance, if_true, houtcome]
        rfl
      · rename_i fault houtcome
        obtain rfl := Except.error.inj hnext
        simp only [drainUpTo, advance, if_true, houtcome]
        rfl
  | @more c c' last e es stop hnext _ ih =>
      rw [List.length_cons] at hcount
      obtain ⟨count, rfl⟩ : ∃ n, count = n + 1 := ⟨count - 1, by omega⟩
      have hrest := @ih count (by omega)
      rw [Cursor.nextOne] at hnext
      split at hnext
      · rename_i e' houtcome
        obtain ⟨rfl, rfl⟩ := Prod.mk.inj (Except.ok.inj hnext)
        simp only [drainUpTo, advance, goesOn, if_true, houtcome] at hrest ⊢
        rw [hrest]
        cases stop <;> rfl
      · contradiction
      · contradiction

theorem Source.all_ne_tooDeep [Text.Alphabet] {source : List Char} (h : source.count '(' ≤ room) :
    (all room source).outcome ≠ .error .tooDeep := by
  intro hall
  rw [all_eq, allOf] at hall
  cases hhalt : (Cursor.harvest room ⟨source, 0⟩).halt with
  | none => simp [hhalt] at hall
  | some halt =>
      simp only [hhalt] at hall
      obtain rfl := Reading.Halt.eq_tooDeep_of_fault (Except.error.inj hall)
      have hlt := Cursor.lt_of_harvest_eq_tooDeep (Nat.zero_le _) hhalt
      exact absurd h (Nat.not_le.mpr hlt)

/-! ### Progress of the descent -/

namespace Descent

variable [Text.Alphabet] {source : List Char} {pos : Nat} {pl pl' : Place}

/-- An expression ends at the end of the text, or where no blank is. -/
theorem end_of_expr {e : Expr} (h : (expr source room).scan pl = .ok (e, pl')) :
    pl'.pos = source.length ∨ ∃ c, source[pl'.pos]? = some c ∧ Text.isBlank c = false := by
  obtain ⟨p, -, hp, hend⟩ := expr_eq_ok h
  rw [hend]
  rcases Nat.eq_or_lt_of_le (skip_le source p) with heq | hlt
  · exact .inl heq
  · have hc := List.getElem?_eq_getElem hlt
    exact .inr ⟨_, hc, not_isBlank_skip source p _ hc⟩

theorem found_expr_ne_tooDeep (h : (source.drop pos).count '(' ≤ room) (m : Memory) :
    found ((expr source room).scan ⟨pos, m⟩) ≠ .error (some .tooDeep) := by
  rw [Reader.found_expr]
  intro hdeep
  cases hread : Cursor.readOne room ⟨source, pos⟩ with
  | ok r =>
      rw [hread] at hdeep
      contradiction
  | error fault =>
      rw [hread] at hdeep
      have hlasting : lasting fault = some .tooDeep := Except.error.inj hdeep
      have hfault : fault = .tooDeep := by
        cases fault with
        | tooDeep => rfl
        | _ => simp [lasting] at hlasting
      rw [hfault] at hread
      exact absurd h (Nat.not_le.mpr (Cursor.lt_of_readOne_eq_tooDeep hread))

theorem found_expr_of_room_le {room' : Nat} (hle : room ≤ room')
    (h : (source.drop pos).count '(' ≤ room) (m : Memory) :
    found ((expr source room').scan ⟨pos, m⟩) = found ((expr source room).scan ⟨pos, m⟩) := by
  have hread : Cursor.readOne room' ⟨source, pos⟩ = Cursor.readOne room ⟨source, pos⟩ :=
    Cursor.readOne_of_room_le hle h
  rw [Reader.found_expr, Reader.found_expr, hread]

/-- Reading always advances and stays in the text, so that every loop of it ends. An expression, a
name or a character that is found takes at least one character; behind an expression no blank is
left. So the loop over expressions, the one over parameters, a stream that is drained and a reading
as far as possible end on every text, after no more rounds than there are characters. No more forms
can be open at once than there are parentheses, and room for more changes nothing. All this holds
with any memory of what was tried before. -/
theorem advances_and_ends (source : List Char) (room : Nat) :
    (∀ pos m, pos ≤ source.length →
      found ((expr source room).scan ⟨pos, m⟩) =
        ((Cursor.readOne room ⟨source, pos⟩).map fun r => (r.1, r.2.pos)).mapError lasting ∧
      (∀ e pl, (expr source room).scan ⟨pos, m⟩ = .ok (e, pl) →
        pos < pl.pos ∧ pl.pos ≤ source.length ∧
        (pl.pos = source.length ∨ ∃ c, source[pl.pos]? = some c ∧ Text.isBlank c = false)) ∧
      (∀ letters pl, (ident source).scan ⟨pos, m⟩ = .ok (letters, pl) →
        pos < pl.pos ∧ pl.pos ≤ source.length) ∧
      (∀ c k pl, (punct source c k).scan ⟨pos, m⟩ = .ok ((), pl) →
        pos < pl.pos ∧ pl.pos ≤ source.length) ∧
      (∃ es last stop, Repeats (expr source room).scan ⟨pos, m⟩ es last stop ∧
        loop (expr source room) ⟨pos, m⟩ = outcome es last stop ∧
        pos + es.length ≤ last.pos ∧ last.pos ≤ source.length) ∧
      (∃ runs last m', Repeats (ident source).scan ⟨pos, m⟩ runs last (none, m') ∧
        loop (ident source) ⟨pos, m⟩ = .ok (runs, ⟨last.pos, m'⟩) ∧
        pos + runs.length ≤ last.pos ∧ last.pos ≤ source.length) ∧
      (∃ es last stop, Repeats (Cursor.nextOne room) ⟨source, pos⟩ es last stop ∧
        pos + es.length ≤ last.pos ∧ last.pos ≤ source.length ∧
        ∀ count, es.length < count →
          (Tap.drainUpTo room count ⟨⟨source, pos⟩, true⟩).1.outcome = Cursor.drained es stop ∧
          (Reader.drainUpTo room count ⟨⟨source, pos⟩, true, m⟩).1 = Cursor.drained es stop) ∧
      (∃ es last fault, Repeats (Cursor.readOne room) ⟨source, pos⟩ es last fault ∧
        pos + es.length ≤ last.pos ∧ last.pos ≤ source.length ∧
        ∀ count, es.length < count →
          (Cursor.readUpTo room count ⟨source, pos⟩).outcome = Cursor.parted es last fault) ∧
      ((source.drop pos).count '(' ≤ room →
        found ((expr source room).scan ⟨pos, m⟩) ≠ .error (some .tooDeep) ∧
        ∀ room', room ≤ room' →
          found ((expr source room').scan ⟨pos, m⟩) = found ((expr source room).scan ⟨pos, m⟩))) ∧
    Source.all room source = (Tap.drain room ⟨⟨source, 0⟩, true⟩).1 ∧
    Source.many room source = Cursor.readMany room ⟨source, 0⟩ ∧
    (source.count '(' ≤ room → (Source.all room source).outcome ≠ .error .tooDeep ∧
      (Source.many room source).outcome ≠ .error .tooDeep) := by
  have hstart : (⟨source, 0⟩ : Cursor).pos ≤ source.length := Nat.zero_le _
  have hcount : source.length - (⟨source, 0⟩ : Cursor).pos < source.length + 1 := by
    omega
  refine ⟨fun pos m hpos => ?_, (Tap.drainUpTo_eq hstart hcount).symm,
    (Cursor.readUpTo_eq hstart hcount).symm, fun hroom => ?_⟩
  · have hinside : (⟨source, pos⟩ : Cursor).Inside source := ⟨rfl, hpos⟩
    refine ⟨Reader.found_expr source room pos m, fun e pl h => ?_,
      fun letters pl => (ident source).advances ⟨pos, m⟩ letters pl,
      fun c k pl => (punct source c k).advances ⟨pos, m⟩ () pl, ?_, ?_, ?_,
      ?_, fun hroom => ⟨found_expr_ne_tooDeep hroom m,
        fun _ hle => found_expr_of_room_le hle hroom m⟩⟩
    · obtain ⟨hlt, hle⟩ := (expr source room).advances ⟨pos, m⟩ e pl h
      exact ⟨hlt, hle, end_of_expr h⟩
    · obtain ⟨es, last, stop, hrepeats, hloop, hbounds⟩ :=
        exists_repeats (expr source room) ⟨pos, m⟩
      exact ⟨es, last, stop, hrepeats, hloop, hbounds hpos⟩
    · obtain ⟨runs, last, stop, hrepeats, hloop, hbounds⟩ :=
        exists_repeats (ident source) ⟨pos, m⟩
      -- Names are found or not found, and nothing else ends the loop over them.
      obtain ⟨rfl, -⟩ := not_shows_of_ident hrepeats.last
      exact ⟨runs, last, _, hrepeats, hloop, hbounds hpos⟩
    · obtain ⟨es, last, stop, hrepeats, hlast, hlen⟩ :=
        exists_repeats_of_lt Cursor.pos (fun _ h => h.2) Cursor.nextOne_advances hinside
      refine ⟨es, last, stop, hrepeats, hlen, hlast.2, fun count hcount => ?_⟩
      have hdrained := Tap.drainUpTo_of_repeats hrepeats hcount
      have hechoes := Reader.drainUpTo_echoes room count ⟨⟨source, pos⟩, true, m⟩
      exact ⟨hdrained, hechoes.outcome.trans hdrained⟩
    · obtain ⟨es, last, fault, hrepeats, hlast, hlen⟩ :=
        exists_repeats_of_lt Cursor.pos (fun _ h => h.2) Cursor.readOne_advances hinside
      exact ⟨es, last, fault, hrepeats, hlen, hlast.2,
        fun count => Cursor.readUpTo_of_repeats hrepeats⟩
  · have hall := Source.all_ne_tooDeep hroom
    refine ⟨hall, fun hmany => ?_⟩
    cases Source.endings room source with
    | finished _ hmany' => simp [hmany] at hmany'
    | left rest site _ hmany' => simp [hmany] at hmany'
    | broken fault hall' hmany' =>
        rw [hmany'] at hmany
        obtain rfl := Except.error.inj hmany
        exact hall hall'

end Descent

end SproutLang
