import SproutLang.Proofs.Cursor

/-!
Three ways to read a text, and three loops. To read a text to its end is to let a stream hand out
all that it has, until only blanks are left. To read as much as there is means to read at a cursor
until there is a fault, and then to look at where the fault is: no further than where the expression
was to start, it only ends the reading. The third loop reads the first expression of a text, then
the first of the text that is left, and so on.

The loops stop by different rules, and they have one harvest: they yield the same expressions and
differ only in what they make of the halt. That the second may go by the place of a fault alone is
because an expression that has started and is broken off never fails at its own first token.
-/

namespace SproutLang

variable {room : Nat}

/-! ### What is made of a harvest -/

namespace Source

def allOf (source : List Char) (h : Reading.Harvest) : Reply (List Expr) :=
  { names := h.names
    outcome :=
      match h.halt with
      | none => .ok h.exprs
      | some halt => .error (halt.fault source 0) }

def manyOf (source : List Char) (h : Reading.Harvest) : Reply (List Expr × List Char) :=
  { names := h.names
    outcome :=
      match h.halt with
      | none => .ok (h.exprs, [])
      | some (.unexpected (.expr []) rest) => .ok (h.exprs, remainder source rest)
      | some halt => .error (halt.fault source 0) }

theorem allOf_cons (source : List Char) (names : List String) (e : Expr) (h : Reading.Harvest) :
    allOf source ((h.cons e).after names) =
      ⟨names ++ (allOf source h).names, (allOf source h).outcome.map (e :: ·)⟩ := by
  obtain ⟨ns, es, _ | halt⟩ := h <;> rfl

theorem manyOf_cons (source : List Char) (names : List String) (e : Expr) (h : Reading.Harvest) :
    manyOf source ((h.cons e).after names) =
      ⟨names ++ (manyOf source h).names,
        (manyOf source h).outcome.map fun r => (e :: r.1, r.2)⟩ := by
  simp only [manyOf, Reading.Harvest.after, Reading.Harvest.cons]
  split <;> rfl

theorem manyOf_of_ne_start (source : List Char) (names : List String) (es : List Expr)
    {halt : Reading.Halt} (hne : ∀ rest, halt ≠ .unexpected .start rest) :
    manyOf source ⟨names, es, some halt⟩ = ⟨names, .error (halt.fault source 0)⟩ := by
  simp only [manyOf]
  split
  · contradiction
  · rename_i rest heq
    exact absurd (Option.some.inj heq) (hne rest)
  · rename_i heq
    rw [Option.some.inj heq]

variable [Text.Alphabet]

theorem all_eq (room : Nat) (source : List Char) :
    all room source = allOf source (Cursor.harvest room ⟨source, 0⟩) := rfl

theorem many_eq (room : Nat) (source : List Char) :
    many room source = manyOf source (Cursor.harvest room ⟨source, 0⟩) := rfl

end Source

/-! ### The loops -/

/-- Is the fault a token that was refused, no further than at `pos`? -/
def ReadFault.refusedBy (pos : Nat) : ReadFault → Bool
  | .unexpected site _ _ => site.pos ≤ pos
  | _ => false

section

variable [Text.Alphabet]

namespace Cursor

/-- Reads at most `count` expressions, until there is a fault. A token that is refused where the
expression was to start only ends the reading there; any other fault is one of the whole. -/
def readUpTo (room : Nat) : Nat → Cursor → Source.Reply (List Expr × List Char)
  | 0, c => ⟨[], .ok ([], c.remainder)⟩
  | count + 1, c =>
      let (reply, c') := c.read room
      match reply.outcome with
      | .ok e =>
          let more := readUpTo room count c'
          ⟨reply.names ++ more.names, more.outcome.map fun r => (e :: r.1, r.2)⟩
      | .error fault =>
          if fault.refusedBy c.skipBlanks.pos then
            ⟨reply.names, .ok ([], c.skipBlanks.remainder)⟩
          else ⟨reply.names, .error fault⟩

def readMany (room : Nat) (c : Cursor) : Source.Reply (List Expr × List Char) :=
  c.readUpTo room (c.source.length + 1)

/-- An expression that has started is never refused at its own first token. -/
theorem Balks.refusedBy_iff {c : Cursor} {names : List String} {halt : Reading.Halt}
    (hb : c.Balks room names halt) (h : c.pos ≤ c.source.length) :
    (halt.fault c.source 0).refusedBy c.skipBlanks.pos = true ↔
      halt = .unexpected .start c.lexemes := by
  cases halt with
  | unexpected state rest =>
      have hpos : ((Reading.Halt.unexpected state rest).fault c.source 0).refusedBy
          c.skipBlanks.pos = decide ((c.moveTo rest).pos ≤ c.skipBlanks.pos) := by
        simp only [Reading.Halt.fault, ReadFault.refusedBy, Nat.max_eq_right (Nat.zero_le _)]
        rfl
      rw [hpos, decide_eq_true_eq]
      rcases hb.refused h with ⟨rfl, rfl, -⟩ | ⟨hstate, hlt⟩
      · exact ⟨fun _ => rfl, fun _ => Nat.le_refl _⟩
      · constructor
        · intro hle
          omega
        · intro heq
          exact absurd (Reading.Halt.unexpected.inj heq).1 hstate
  | _ => simp [Reading.Halt.fault, ReadFault.refusedBy]

theorem readUpTo_eq {c : Cursor} (h : c.pos ≤ c.source.length) {count : Nat}
    (hcount : c.source.length - c.pos < count) :
    c.readUpTo room count = Source.manyOf c.source (c.harvest room) := by
  obtain ⟨count, rfl⟩ : ∃ n, count = n + 1 := ⟨count - 1, by omega⟩
  induction c, h using prospect_induction room generalizing count with
  | takes c names e rest h ht ih =>
      have hless := ht.left_lt h
      obtain ⟨count, rfl⟩ : ∃ n, count = n + 1 := ⟨count - 1, by omega⟩
      rw [readUpTo, ht.read_eq, ht.harvest_eq, Source.manyOf_cons]
      simp only [ih count (by omega)]
      rfl
  | balks c names halt h hb =>
      rw [readUpTo, hb.read_eq h, hb.harvest_eq]
      dsimp only
      split
      · rename_i hby
        obtain rfl := (hb.refusedBy_iff h).mp hby
        rfl
      · rename_i hby
        rw [Source.manyOf_of_ne_start]
        rintro rest rfl
        refine hby ((hb.refusedBy_iff h).mpr ?_)
        rcases hb.refused h with ⟨-, rfl, -⟩ | ⟨hstate, -⟩
        · rfl
        · contradiction
  | finished c h hnil =>
      have hend : c.skipBlanks = ⟨c.source, c.source.length⟩ := by
        rw [skipBlanks, hnil]
        rfl
      have hfault : ((Reading.Halt.unexpected .start []).fault c.source 0).refusedBy
          c.source.length = true := by
        simp [Reading.Halt.fault, ReadFault.refusedBy, Reading.position, Text.Site.of]
      rw [readUpTo, read_of_nil hnil h, harvest_of_nil hnil, hend]
      dsimp only
      rw [if_pos hfault, remainder, List.drop_length]
      rfl

end Cursor

theorem Tap.drainUpTo_eq {c : Cursor} (h : c.pos ≤ c.source.length) {count : Nat}
    (hcount : c.source.length - c.pos < count) :
    (Tap.drainUpTo room count ⟨c, true⟩).1 = Source.allOf c.source (c.harvest room) := by
  induction c, h using Cursor.prospect_induction room generalizing count with
  | takes c names e rest h ht ih =>
      obtain ⟨count, rfl⟩ : ∃ n, count = n + 1 := ⟨count - 1, by omega⟩
      have hless := ht.left_lt h
      have hmore : (Tap.drainUpTo room count ⟨c.moveTo rest, true⟩).1 =
          Source.allOf c.source ((c.moveTo rest).harvest room) := ih (by omega)
      simp only [drainUpTo, advance, goesOn, ht.next_eq h, if_true, hmore]
      rw [ht.harvest_eq, Source.allOf_cons]
  | balks c names halt h hb =>
      obtain ⟨count, rfl⟩ : ∃ n, count = n + 1 := ⟨count - 1, by omega⟩
      simp only [drainUpTo, advance, hb.next_eq h, if_true]
      rw [hb.harvest_eq]
      rfl
  | finished c h hnil =>
      obtain ⟨count, rfl⟩ : ∃ n, count = n + 1 := ⟨count - 1, by omega⟩
      simp only [drainUpTo, advance, Cursor.next_of_nil hnil h, if_true]
      rw [Cursor.harvest_of_nil hnil]
      rfl

namespace Source

/-- A text cut off at a cursor has the expressions that the cursor has before it. -/
theorem exprs_harvest_drop (source : List Char) (pos : Nat) :
    (Cursor.harvest room ⟨source.drop pos, 0⟩).exprs =
      (Cursor.harvest room ⟨source, pos⟩).exprs := by
  have hshift := Lexeme.scan_add 0 pos (source.drop pos)
  rw [Nat.zero_add] at hshift
  rw [Cursor.harvest, Cursor.harvest, Cursor.lexemes, Cursor.lexemes, hshift, Reading.all_map_shift]
  rfl

/-- The first expressions of what is left, again and again, are the expressions of the text. -/
theorem repeats_first (room : Nat) (source : List Char) :
    ∃ last fault, Repeats (fun text => (first room text).outcome) source
      (Cursor.harvest room ⟨source, 0⟩).exprs last fault := by
  induction hn : source.length using Nat.strongRecOn generalizing source with
  | ind n ih =>
      have hle : (⟨source, 0⟩ : Cursor).pos ≤ source.length := Nat.zero_le _
      cases Cursor.prospect room hle with
      | takes names e rest ht =>
          have hfirst : (first room source).outcome = .ok (e, remainder source rest) := by
            have hone : Reading.one room .start (Lexeme.scan 0 source) = ⟨names, .ok (e, rest)⟩ :=
              ht.one_eq
            simp only [first, hone]
          have hlt : (remainder source rest).length < n := by
            have hpos : 0 < Reading.position source.length rest := Nat.zero_lt_of_lt ht.pos_lt
            have hend : Reading.position source.length rest ≤ source.length := ht.pos_le
            rw [remainder, List.length_drop]
            omega
          obtain ⟨last, fault, hmore⟩ := ih _ hlt (remainder source rest) rfl
          rw [remainder, exprs_harvest_drop, ← remainder] at hmore
          refine ⟨last, fault, ?_⟩
          rw [ht.harvest_eq]
          exact .more hfirst hmore
      | balks names halt hb =>
          have hone : Reading.one room .start (Lexeme.scan 0 source) = ⟨names, .error halt⟩ :=
            hb.one_eq
          refine ⟨source, halt.fault source 0, ?_⟩
          rw [hb.harvest_eq]
          refine .stop ?_
          simp only [first, hone]
      | finished hnil =>
          have hone : Reading.one room .start (Lexeme.scan 0 source) =
              ⟨[], .error (.unexpected .start [])⟩ := by
            rw [show Lexeme.scan 0 source = [] from hnil]
            rfl
          refine ⟨source, (Reading.Halt.unexpected .start []).fault source 0, ?_⟩
          rw [Cursor.harvest_of_nil hnil]
          refine .stop ?_
          simp only [first, hone]

/-! ### Where the reading stops -/

/-- The text starts with nothing that can be skipped or that an expression can start with. -/
def StartsNothing (text : List Char) : Prop :=
  ∀ c cs, text = c :: cs → Text.isBlank c = false ∧ Text.isAsciiDigit c = false ∧
    Text.isAlphabetic c = false ∧ c ≠ '(' ∧ ¬ ['#', 'f'] <+: text

theorem startsNothing_of_refused {text : List Char} {pos : Nat}
    (hblank : ∀ c ∈ text.head?, Text.isBlank c = false)
    (hrefused : ∀ l ∈ (Lexeme.scan pos text).head?,
      Reading.step room .start l.token = .unexpected) : StartsNothing text := by
  have hkind {k : Token.Kind} (hk : k ∈ Reading.exprKinds) : ¬ k.Starts text := by
    intro hstarts
    obtain ⟨t, rest, hscan, ht⟩ := hstarts.exists_lexeme pos
    have hstep := hrefused ⟨pos, t⟩ (by rw [hscan]; rfl)
    exact (Reading.step_eq_unexpected_iff ht).mp hstep hk
  rintro c cs rfl
  refine ⟨hblank c rfl, ?_, ?_, ?_, ?_⟩
  · rw [← Bool.not_eq_true]
    intro hd
    exact hkind (k := .digit) (by decide) ⟨c, cs, rfl, hd⟩
  · rw [← Bool.not_eq_true]
    intro ha
    exact hkind (k := .identifier) (by decide) ⟨c, cs, rfl, ha⟩
  · rintro rfl
    exact hkind (k := .lparen) (by decide) ⟨cs, rfl⟩
  · rintro ⟨rest, hrest⟩
    exact hkind (k := .falseMark) (by decide) ⟨rest, hrest.symm⟩

/-- Where the reading stops at the start of an expression, a text is left that starts none, and the
halt is a fault at the first character of that text. -/
theorem remainder_of_halt {source : List Char} {rest : List Lexeme}
    (h : (Cursor.harvest room ⟨source, 0⟩).halt = some (.unexpected .start rest)) :
    remainder source rest <:+ source ∧ remainder source rest ≠ [] ∧
      StartsNothing (remainder source rest) ∧
      ∃ site : Text.Site, site.pos + (remainder source rest).length = source.length ∧
        (Reading.Halt.unexpected .start rest).fault source 0 =
          .unexpected site (remainder source rest).head? Reading.exprKinds := by
  obtain ⟨c, names, rfl, hpos, hb⟩ := Cursor.exists_balks (Nat.zero_le _) h
  rcases hb.refused hpos with ⟨-, rfl, hrefused⟩ | ⟨hstate, -⟩
  · have hle := Cursor.pos_skipBlanks_le hpos
    have hrest : remainder c.source c.lexemes = c.skipBlanks.remainder := rfl
    have hend : ¬ c.skipBlanks.atEnd = true := by
      rw [Cursor.atEnd_skipBlanks_iff hpos]
      exact hb.lexemes_ne
    have hlen : c.skipBlanks.pos + c.skipBlanks.remainder.length = c.source.length := by
      rw [Cursor.remainder, List.length_drop]
      exact Nat.add_sub_cancel' hle
    rw [hrest]
    refine ⟨List.drop_suffix _ _, ?_, ?_, .of c.source c.skipBlanks.pos, hlen, ?_⟩
    · intro hnil
      rw [hnil, List.length_nil, Nat.add_zero] at hlen
      refine hend ?_
      rw [Cursor.atEnd, decide_eq_true_eq, hlen]
      exact Nat.le_refl _
    · have hscan : Lexeme.scan c.skipBlanks.pos c.skipBlanks.remainder = c.lexemes :=
        Cursor.lexemes_skipBlanks hpos
      rw [← hscan] at hrefused
      refine startsNothing_of_refused ?_ hrefused
      rw [Cursor.remainder_skipBlanks hpos]
      exact Token.head_dropWhile _ _
    · rw [Cursor.remainder, List.head?_drop]
      simp only [Reading.Halt.fault, Nat.max_eq_right (Nat.zero_le _)]
      rfl
  · contradiction

inductive Endings (room : Nat) (source : List Char) (es : List Expr) : Prop
  | finished : (all room source).outcome = .ok es → (many room source).outcome = .ok (es, []) →
      Endings room source es
  /-- a text is left that starts no expression -/
  | left (rest : List Char) (site : Text.Site) :
      (all room source).outcome = .error (.unexpected site rest.head? Reading.exprKinds) →
      (many room source).outcome = .ok (es, rest) → rest ≠ [] → rest <:+ source →
      StartsNothing rest → site.pos + rest.length = source.length → Endings room source es
  | broken (fault : ReadFault) : (all room source).outcome = .error fault →
      (many room source).outcome = .error fault → Endings room source es

theorem endings (room : Nat) (source : List Char) :
    Endings room source (Cursor.harvest room ⟨source, 0⟩).exprs := by
  have hall := congrArg Reply.outcome (all_eq room source)
  have hmany := congrArg Reply.outcome (many_eq room source)
  cases hhalt : (Cursor.harvest room ⟨source, 0⟩).halt with
  | none =>
      simp only [allOf, manyOf, hhalt] at hall hmany
      exact .finished hall hmany
  | some halt =>
      by_cases hstart : ∃ rest, halt = .unexpected .start rest
      · obtain ⟨rest, rfl⟩ := hstart
        obtain ⟨hsuffix, hne, hstarts, site, hsite, hfault⟩ := remainder_of_halt hhalt
        simp only [allOf, manyOf, hhalt, hfault] at hall hmany
        exact .left _ site hall hmany hne hsuffix hstarts hsite
      · have hne : ∀ rest, halt ≠ .unexpected .start rest := fun rest heq => hstart ⟨rest, heq⟩
        generalize Cursor.harvest room ⟨source, 0⟩ = h at hall hmany hhalt
        obtain ⟨names, es, _⟩ := h
        subst hhalt
        rw [manyOf_of_ne_start source names es hne] at hmany
        exact .broken _ hall hmany

/-- The three ways to read a text agree. Each is the loop that it stands for: a stream that hands
out all it has, and a cursor that reads on until a token is refused where an expression was to
start. The text is read to its end when nothing is left; what is left otherwise starts no
expression, and a fault lies where it begins. All other faults are the same. To take off the first
expression again and again yields the same expressions. -/
theorem entry_points_agree (room : Nat) (source : List Char) :
    all room source = (((Tap.of source).serve room .stream).2.drain room).1 ∧
    many room source = Cursor.readMany room ⟨source, 0⟩ ∧
    (∀ ns, (all room source).outcome = .ok ns ↔ (many room source).outcome = .ok (ns, [])) ∧
    (∀ ns rest, (many room source).outcome = .ok (ns, rest) →
      rest <:+ source ∧ StartsNothing rest ∧
      (rest ≠ [] → ∃ site : Text.Site, site.pos + rest.length = source.length ∧
        (all room source).outcome = .error (.unexpected site rest.head? Reading.exprKinds))) ∧
    (∀ fault, (many room source).outcome = .error fault →
      (all room source).outcome = .error fault) ∧
    (∀ fault, (all room source).outcome = .error fault →
      (many room source).outcome = .error fault ∨
        ∃ ns rest, (many room source).outcome = .ok (ns, rest) ∧ rest ≠ []) ∧
    (∀ ns rest, (many room source).outcome = .ok (ns, rest) → ∀ es,
      (∃ last fault, Repeats (fun text => (first room text).outcome) source es last fault) ↔
        es = ns) := by
  have hpos : (⟨source, 0⟩ : Cursor).pos ≤ source.length := Nat.zero_le _
  have hcount : source.length - (⟨source, 0⟩ : Cursor).pos < source.length + 1 := by
    omega
  obtain ⟨last, fault, hrepeats⟩ := repeats_first room source
  have hfirsts (es : List Expr) :
      (∃ last fault, Repeats (fun text => (first room text).outcome) source es last fault) ↔
        es = (Cursor.harvest room ⟨source, 0⟩).exprs := by
    constructor
    · rintro ⟨last', fault', h⟩
      exact (h.unique hrepeats).1
    · rintro rfl
      exact ⟨last, fault, hrepeats⟩
  refine ⟨(Tap.drainUpTo_eq hpos hcount).symm, (Cursor.readUpTo_eq hpos hcount).symm, ?_⟩
  cases endings room source with
  | finished hall hmany =>
      refine ⟨?_, ?_, ?_, ?_, ?_⟩
      · simp [hall, hmany]
      · intro ns rest h
        obtain ⟨rfl, rfl⟩ := Prod.mk.inj (Except.ok.inj (hmany.symm.trans h))
        simp [StartsNothing]
      · simp [hmany]
      · simp [hall]
      · intro ns rest h
        obtain ⟨rfl, rfl⟩ := Prod.mk.inj (Except.ok.inj (hmany.symm.trans h))
        exact hfirsts
  | left rest site hall hmany hne hsuffix hstarts hsite =>
      refine ⟨?_, ?_, ?_, ?_, ?_⟩
      · simp [hall, hmany, hne]
      · intro ns rest' h
        obtain ⟨rfl, rfl⟩ := Prod.mk.inj (Except.ok.inj (hmany.symm.trans h))
        exact ⟨hsuffix, hstarts, fun _ => ⟨site, hsite, hall⟩⟩
      · simp [hmany]
      · intro fault _
        exact .inr ⟨_, rest, hmany, hne⟩
      · intro ns rest' h
        obtain ⟨rfl, rfl⟩ := Prod.mk.inj (Except.ok.inj (hmany.symm.trans h))
        exact hfirsts
  | broken fault hall hmany =>
      refine ⟨?_, ?_, ?_, ?_, ?_⟩
      · simp [hall, hmany]
      · simp [hmany]
      · intro fault' h
        obtain rfl : fault = fault' := Except.error.inj (hmany.symm.trans h)
        exact hall
      · intro fault' h
        obtain rfl : fault = fault' := Except.error.inj (hall.symm.trans h)
        exact .inl hmany
      · simp [hmany]

end Source

end

/-- In ` 7 ) 8` the parenthesis starts no expression: it is left with what follows it, and is a
fault to whoever wants the whole text. -/
theorem Source.entry_points_agree_stray_paren :
    let source := [' ', '7', ' ', ')', ' ', '8']
    let rest := [')', ' ', '8']
    (many 1 source).outcome = .ok ([.literal (.int 7)], rest) ∧ StartsNothing rest ∧
      (∃ site : Text.Site, site.pos + 3 = 6 ∧
        (all 1 source).outcome = .error (.unexpected site (some ')') Reading.exprKinds)) ∧
      ∃ last fault, Repeats (fun text => (first 1 text).outcome) source [.literal (.int 7)] last
        fault := by
  intro source rest
  have hmany : (many 1 source).outcome = .ok ([.literal (.int 7)], rest) := by
    have hscan : Lexeme.scan 0 source = [⟨1, .digits ['7']⟩, ⟨3, .rparen⟩, ⟨5, .digits ['8']⟩] := by
      decide +kernel
    rw [many, hscan]
    rfl
  obtain ⟨-, -, -, hleft, -, -, hfirsts⟩ := entry_points_agree 1 source
  obtain ⟨-, hstarts, hfault⟩ := hleft _ _ hmany
  exact ⟨hmany, hstarts, hfault (List.cons_ne_nil _ _), (hfirsts _ _ hmany _).mpr rfl⟩

end SproutLang
