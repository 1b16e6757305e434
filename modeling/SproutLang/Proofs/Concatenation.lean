import SproutLang.Proofs.Printing
import SproutLang.Proofs.Site

/-!
Two texts with blanks between them. The lexemes of the whole are those of the first text and, moved
on by the length of what stands before it, those of the second. The machine that reads them keeps no
memory of the expressions that it has completed, and looks at positions only to report them. So to
read the whole is to read the first text and then the second: the expressions and the names are put
together, and a fault in the second is the same fault in the whole, at a site further on.
-/

namespace SproutLang

variable {room d : Nat} {a b w : List Char}

/-! ### Lexemes -/

namespace Lexeme

variable [Text.Alphabet]

theorem scan_blanks (hblank : ∀ c ∈ w, Text.isBlank c = true) (pos : Nat) (rest : List Char) :
    scan pos (w ++ rest) = scan (pos + w.length) rest := by
  induction w generalizing pos with
  | nil => rfl
  | cons c w ih =>
      rw [List.forall_mem_cons] at hblank
      rw [List.cons_append, scan_blank hblank.1, ih hblank.2, List.length_cons, Nat.add_assoc,
        Nat.add_comm 1]

theorem scan_pieces (hw : w ≠ []) (hblank : ∀ c ∈ w, Text.isBlank c = true) :
    scan 0 (a ++ w ++ b) = scan 0 a ++ (scan 0 b).map (shift (a ++ w).length) := by
  have hbreak : Break (w ++ b) := by
    obtain ⟨c, w, rfl⟩ := List.exists_cons_of_ne_nil hw
    exact break_blank (hblank c List.mem_cons_self) _
  rw [List.append_assoc, scan_append hbreak, scan_blanks hblank, Nat.add_assoc,
    ← List.length_append, scan_add]

end Lexeme

/-! ### Reading -/

namespace Reading

def Halt.shift (d : Nat) : Halt → Halt
  | .unexpected state rest => .unexpected state (rest.map (Lexeme.shift d))
  | .outOfRange pos run => .outOfRange (pos + d) run
  | .tooManyDigits count => .tooManyDigits count
  | .tooDeep => .tooDeep

theorem all_map_shift (s : State) (ls : List Lexeme) :
    all room s (ls.map (Lexeme.shift d)) =
      { all room s ls with halt := (all room s ls).halt.map (Halt.shift d) } := by
  induction ls generalizing s with
  | nil =>
      rw [List.map_nil]
      unfold all
      split
      · rfl
      · rfl
      · contradiction
  | cons l ls ih =>
      rw [List.map_cons, all, all]
      have htoken : (Lexeme.shift d l).token = l.token := rfl
      rw [htoken]
      cases step room s l.token with
      | go s' => simp only [ih s', Harvest.after]
      | done e => simp only [ih .start, Harvest.after, Harvest.cons]
      | _ => rfl

/-- Where a reading comes to the end of its lexemes, more lexemes are read as if from the start. -/
theorem all_append {s : State} {ls : List Lexeme} (h : (all room s ls).halt = none)
    (ms : List Lexeme) :
    all room s (ls ++ ms) =
      ⟨(all room s ls).names ++ (all room .start ms).names,
        (all room s ls).exprs ++ (all room .start ms).exprs, (all room .start ms).halt⟩ := by
  induction ls generalizing s with
  | nil =>
      unfold all at h
      split at h
      · rfl
      · simp at h
      · contradiction
  | cons l ls ih =>
      rw [all] at h
      rw [List.cons_append, all, all]
      cases hstep : step room s l.token with
      | go s' =>
          rw [hstep] at h
          simp only [ih h, Harvest.after, List.append_assoc]
      | done e =>
          rw [hstep] at h
          simp only [ih h, Harvest.after, Harvest.cons, List.append_assoc, List.cons_append]
      | _ => simp [hstep] at h

end Reading

/-! ### Whole texts -/

/-- Do the faults differ at most in where they are and what they show of the text? -/
def ReadFault.SameKind : ReadFault → ReadFault → Prop
  | .unexpected _ _ _, .unexpected _ _ _ => True
  | .outOfRange _ _, .outOfRange _ _ => True
  | .tooManyDigits _, .tooManyDigits _ => True
  | .tooDeep, .tooDeep => True
  | _, _ => False

/-- The fault, when the text `front` is put before the text that it is in. -/
def ReadFault.behind (front : List Char) : ReadFault → ReadFault
  | .unexpected site found expected => .unexpected (site.behind front) found expected
  | .outOfRange site run => .outOfRange (site.behind front) run
  | .tooManyDigits count => .tooManyDigits count
  | .tooDeep => .tooDeep

theorem ReadFault.sameKind_behind (front : List Char) (fault : ReadFault) :
    (fault.behind front).SameKind fault := by
  cases fault <;> trivial

namespace Reading

theorem position_map_shift (finish : Nat) (ls : List Lexeme) :
    position (finish + d) (ls.map (Lexeme.shift d)) = position finish ls + d := by
  cases ls <;> rfl

theorem Halt.fault_shift (halt : Halt) (front source : List Char) :
    (halt.shift front.length).fault (front ++ source) 0 =
      (halt.fault source 0).behind front := by
  cases halt with
  | unexpected state rest =>
      have hpos : position (max 0 (front ++ source).length) (rest.map (Lexeme.shift front.length)) =
          position (max 0 source.length) rest + front.length := by
        rw [Nat.zero_max, Nat.zero_max, List.length_append, Nat.add_comm, position_map_shift]
      simp only [shift, fault, ReadFault.behind, hpos, Text.Site.of_append]
      rw [List.getElem?_append_right (Nat.le_add_left _ _), Nat.add_sub_cancel]
  | outOfRange pos run => simp only [shift, fault, ReadFault.behind, Text.Site.of_append]
  | tooManyDigits count => rfl
  | tooDeep => rfl

end Reading

namespace Source

section

variable [Text.Alphabet]

def harvest (room : Nat) (source : List Char) : Reading.Harvest :=
  Reading.all room .start (Lexeme.scan 0 source)

theorem outcome_all (room : Nat) (source : List Char) :
    (all room source).outcome =
      match (harvest room source).halt with
      | none => .ok (harvest room source).exprs
      | some halt => .error (halt.fault source 0) :=
  rfl

theorem harvest_of_ok {xs : List Expr} (h : (all room a).outcome = .ok xs) :
    (harvest room a).halt = none ∧ (harvest room a).exprs = xs := by
  rw [outcome_all] at h
  cases hhalt : (harvest room a).halt with
  | none => exact ⟨rfl, by simpa [hhalt] using h⟩
  | some halt => simp [hhalt] at h

theorem harvest_pieces {xs : List Expr} (h : (all room a).outcome = .ok xs) (hw : w ≠ [])
    (hblank : ∀ c ∈ w, Text.isBlank c = true) (b : List Char) :
    harvest room (a ++ w ++ b) =
      ⟨(harvest room a).names ++ (harvest room b).names, xs ++ (harvest room b).exprs,
        (harvest room b).halt.map (Reading.Halt.shift (a ++ w).length)⟩ := by
  obtain ⟨hhalt, hexprs⟩ := harvest_of_ok h
  rw [harvest, Lexeme.scan_pieces hw hblank, Reading.all_append hhalt, Reading.all_map_shift,
    ← hexprs]
  rfl

/-- The names of the whole are those of both texts, in order. -/
theorem names_pieces {xs : List Expr} (h : (all room a).outcome = .ok xs) (hw : w ≠ [])
    (hblank : ∀ c ∈ w, Text.isBlank c = true) (b : List Char) :
    (all room (a ++ w ++ b)).names = (all room a).names ++ (all room b).names :=
  congrArg Reading.Harvest.names (harvest_pieces h hw hblank b)

/-- Behind a text that can be read, a text is read as it is alone, further on. -/
theorem outcome_pieces {xs : List Expr} (ha : (all room a).outcome = .ok xs) (hw : w ≠ [])
    (hblank : ∀ c ∈ w, Text.isBlank c = true) (b : List Char) :
    (all room (a ++ w ++ b)).outcome =
      match (all room b).outcome with
      | .ok ys => .ok (xs ++ ys)
      | .error fault => .error (fault.behind (a ++ w)) := by
  rw [outcome_all, outcome_all, harvest_pieces ha hw hblank]
  cases (harvest room b).halt with
  | none => rfl
  | some halt => exact congrArg Except.error (halt.fault_shift (a ++ w) b)

theorem all_pieces_ok {xs ys : List Expr} (ha : (all room a).outcome = .ok xs) (hw : w ≠ [])
    (hblank : ∀ c ∈ w, Text.isBlank c = true) (hb : (all room b).outcome = .ok ys) :
    (all room (a ++ w ++ b)).outcome = .ok (xs ++ ys) := by
  rw [outcome_pieces ha hw hblank, hb]

theorem all_pieces_error {xs : List Expr} {fault : ReadFault}
    (ha : (all room a).outcome = .ok xs) (hw : w ≠ [])
    (hblank : ∀ c ∈ w, Text.isBlank c = true) (hb : (all room b).outcome = .error fault) :
    (all room (a ++ w ++ b)).outcome = .error (fault.behind (a ++ w)) := by
  rw [outcome_pieces ha hw hblank, hb]

end

end Source

end SproutLang
