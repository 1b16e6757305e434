import SproutLang.Proofs.Tap

/-!
Reading at a place in a text. The machine looks at the lexemes from the cursor on and at nothing
else, and their positions only go into a fault. So what is read at a cursor is what a new cursor
reads at the start of the text from there on: the same expression, with the end moved on by what
stands before it, or the same fault, at its site in the whole text. What a tap has served before is
not to be seen in it, and a fault leaves no trace, so that it is met again and again. To the cursor
a stream that hands something out is a request for the next expression, and one that has ended is no
request, so that it does not matter how many streams there have been.

A cursor past the end of its text has nothing before it, as at the end, but the fault that it meets
is where the cursor is.
-/

namespace SproutLang

variable {room : Nat}

/-! ### Lexemes further on -/

namespace Reading

def shiftOutcome (d : Nat) : Except Halt (Expr × List Lexeme) → Except Halt (Expr × List Lexeme)
  | .ok (e, rest) => .ok (e, rest.map (Lexeme.shift d))
  | .error halt => .error (halt.shift d)

theorem one_map_shift (room d : Nat) (s : State) (ls : List Lexeme) :
    one room s (ls.map (Lexeme.shift d)) =
      ⟨(one room s ls).names, shiftOutcome d (one room s ls).outcome⟩ := by
  induction ls generalizing s with
  | nil => rfl
  | cons l ls ih =>
      rw [List.map_cons, one, one]
      have htoken : (Lexeme.shift d l).token = l.token := rfl
      rw [htoken]
      cases step room s l.token with
      | go s' => simp only [ih s', Result.after]
      | _ => rfl

end Reading

/-- A fault in the text that starts at position `d` of `source`, as a fault in `source`: its line
and column are counted in the whole. -/
def ReadFault.within (source : List Char) (d : Nat) : ReadFault → ReadFault
  | .unexpected site found expected => .unexpected (.of source (site.pos + d)) found expected
  | .outOfRange site run => .outOfRange (.of source (site.pos + d)) run
  | .tooManyDigits count => .tooManyDigits count
  | .tooDeep => .tooDeep

theorem Reading.Halt.fault_within {source : List Char} {d : Nat} (h : d ≤ source.length)
    (halt : Halt) :
    (halt.shift d).fault source d = (halt.fault (source.drop d) 0).within source d := by
  cases halt with
  | unexpected state rest =>
      have hpos : position (max d source.length) (rest.map (Lexeme.shift d)) =
          position (max 0 (source.drop d).length) rest + d := by
        rw [← position_map_shift, Nat.zero_max, Nat.max_eq_right h, List.length_drop,
          Nat.sub_add_cancel h]
      have hfound : source[position (max 0 (source.drop d).length) rest + d]? =
          (source.drop d)[position (max 0 (source.drop d).length) rest]? := by
        rw [List.getElem?_drop, Nat.add_comm]
      simp only [shift, fault, ReadFault.within, hpos, hfound]
      rfl
  | _ => rfl

/-! ### Cursors -/

namespace Cursor

variable [Text.Alphabet] {c : Cursor}

theorem lexemes_eq_map_shift (c : Cursor) :
    c.lexemes = (lexemes ⟨c.remainder, 0⟩).map (Lexeme.shift c.pos) := by
  have hscan := Lexeme.scan_add 0 c.pos c.remainder
  rw [Nat.zero_add] at hscan
  exact hscan

/-- Inside the text, to read at a cursor is to read at the start of what is left. -/
theorem read_eq_within (room : Nat) (h : c.pos ≤ c.source.length) :
    c.read room =
      (⟨(read room ⟨c.remainder, 0⟩).1.names,
          (read room ⟨c.remainder, 0⟩).1.outcome.mapError (ReadFault.within c.source c.pos)⟩,
        match (read room ⟨c.remainder, 0⟩).1.outcome with
        | .ok _ => ⟨c.source, (read room ⟨c.remainder, 0⟩).2.pos + c.pos⟩
        | .error _ => c) := by
  have hone := Reading.one_map_shift room c.pos .start (lexemes ⟨c.remainder, 0⟩)
  rw [← lexemes_eq_map_shift] at hone
  cases hfresh : (Reading.one room .start (lexemes ⟨c.remainder, 0⟩)).outcome with
  | ok r =>
      obtain ⟨e, rest⟩ := r
      rw [hfresh, Reading.shiftOutcome] at hone
      have hend : Reading.position c.source.length (rest.map (Lexeme.shift c.pos)) =
          Reading.position c.remainder.length rest + c.pos := by
        rw [← Reading.position_map_shift, remainder, List.length_drop, Nat.sub_add_cancel h]
      rw [read_of_ok hfresh, read_of_ok (congrArg Reading.Result.outcome hone), hone, moveTo, hend]
      rfl
  | error halt =>
      rw [hfresh, Reading.shiftOutcome] at hone
      rw [read_of_error hfresh, read_of_error (congrArg Reading.Result.outcome hone), hone,
        halt.fault_within h]
      rfl

/-- Past the end nothing is left to read, and the fault is where the cursor is. -/
theorem read_of_length_lt (room : Nat) (h : c.source.length < c.pos) :
    c.read room = (⟨[], .error (.unexpected (.of c.source c.pos) none Reading.exprKinds)⟩, c) := by
  have hle := Nat.le_of_lt h
  have hlexemes : c.lexemes = [] := by
    rw [lexemes, List.drop_eq_nil_of_le hle, Lexeme.scan_nil]
  have hfault : (Reading.Halt.unexpected .start []).fault c.source c.pos =
      .unexpected (.of c.source c.pos) none Reading.exprKinds := by
    simp only [Reading.Halt.fault, Reading.position, Nat.max_eq_left hle,
      List.getElem?_eq_none hle]
    rfl
  rw [read, hlexemes, ← hfault]
  rfl

/-- A fault that reading meets comes from a halt of the machine, and leaves the cursor where it
was. -/
theorem exists_halt_of_read {fault : ReadFault} (h : (c.read room).1.outcome = .error fault) :
    ∃ halt, (Reading.one room .start c.lexemes).outcome = .error halt ∧
      fault = halt.fault c.source c.pos ∧ (c.read room).2 = c := by
  cases hout : (Reading.one room .start c.lexemes).outcome with
  | ok r =>
      rw [read_of_ok hout] at h
      contradiction
  | error halt =>
      rw [read_of_error hout] at h ⊢
      exact ⟨halt, rfl, (Except.error.inj h).symm, rfl⟩

/-- An expression that is read is one that the machine completes, and the cursor goes behind it. -/
theorem exists_rest_of_read {e : Expr} (h : (c.read room).1.outcome = .ok e) :
    ∃ rest, (Reading.one room .start c.lexemes).outcome = .ok (e, rest) ∧
      (c.read room).2 = c.moveTo rest := by
  cases hout : (Reading.one room .start c.lexemes).outcome with
  | ok r =>
      obtain ⟨e', rest⟩ := r
      rw [read_of_ok hout] at h ⊢
      obtain rfl : e' = e := Except.ok.inj h
      exact ⟨rest, rfl, rfl⟩
  | error halt =>
      rw [read_of_error hout] at h
      contradiction

theorem source_read (room : Nat) (c : Cursor) : (c.read room).2.source = c.source := by
  cases hout : (c.read room).1.outcome with
  | ok e =>
      obtain ⟨rest, -, hmoves⟩ := exists_rest_of_read hout
      rw [hmoves, moveTo]
  | error fault =>
      obtain ⟨halt, -, -, hstays⟩ := exists_halt_of_read hout
      rw [hstays]

theorem source_next (room : Nat) (c : Cursor) : (c.next room).2.source = c.source := by
  simp only [next]
  split
  · rfl
  · exact source_read room c.skipBlanks

end Cursor

/-! ### Taps -/

namespace Tap

variable [Text.Alphabet]

theorem source_serve (room : Nat) (t : Tap) (request : Request) :
    (t.serve room request).2.cursor.source = t.cursor.source := by
  cases request with
  | read => exact t.cursor.source_read room
  | next => exact t.cursor.source_next room
  | stream => rfl
  | advance =>
      simp only [serve, advance]
      split
      · exact t.cursor.source_next room
      · rfl
  | seek pos => rfl

theorem source_serveAll (room : Nat) (t : Tap) (requests : List Request) :
    (serveAll room t requests).2.cursor.source = t.cursor.source := by
  induction requests generalizing t with
  | nil => rfl
  | cons request requests ih =>
      rw [serveAll_cons, ← source_serve room t request]
      exact ih (t.serve room request).2

end Tap

end SproutLang
