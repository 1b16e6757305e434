import SproutLang.Descent
import SproutLang.Proofs.Tap

/-!
What the descent remembers, and how its loops end. Of the record it matters how far it has come, and
which kinds it holds for one position: `Record.Marks` says both. What is tried further back than the
record has come leaves it as it is. Of the rest of the memory it matters which names were heard.
What is found does not depend on any of this: every scan is `Oblivious`.
-/

namespace SproutLang.Descent

variable {α : Type} {p q : Nat} {k : Token.Kind} {ks ks' : List Token.Kind}

/-! ### The record -/

namespace Record

variable {r : Record}

def UpTo (r : Record) (p : Nat) : Prop :=
  ∀ q, r.reached = some q → q ≤ p

def Before (r : Record) (p : Nat) : Prop :=
  ∀ q, r.reached = some q → q < p

/-- Nothing was tried in vain behind `p`, and at `p` it was tokens of the kinds `ks`. -/
structure Marks (r : Record) (p : Nat) (ks : List Token.Kind) : Prop where
  upTo : r.UpTo p
  mem_iff : ∀ k, k ∈ ks ↔ r.reached = some p ∧ k ∈ r.missed

theorem before_blank (p : Nat) : blank.Before p := by
  intro q h
  contradiction

theorem UpTo.before (h : r.UpTo p) (hlt : p < q) : r.Before q := by
  intro p' hp'
  exact Nat.lt_of_le_of_lt (h p' hp') hlt

theorem Before.marks (h : r.Before p) (hle : p ≤ q) : r.Marks q [] := by
  refine ⟨fun p' hp' => ?_, fun k => ?_⟩
  · have hlt := h p' hp'
    omega
  · have hne : r.reached ≠ some q := fun hq => by
      have hlt := h q hq
      omega
    simp [hne]

theorem Marks.congr (h : r.Marks p ks) (hks : ∀ k, k ∈ ks' ↔ k ∈ ks) : r.Marks p ks' :=
  ⟨h.upTo, fun k => (hks k).trans (h.mem_iff k)⟩

theorem Marks.reached_eq (h : r.Marks p ks) (hne : ks ≠ []) : r.reached = some p := by
  obtain ⟨k, ks, rfl⟩ := List.exists_cons_of_ne_nil hne
  exact ((h.mem_iff k).mp List.mem_cons_self).1

theorem Marks.miss (h : r.Marks p ks) (k : Token.Kind) : (r.miss p k).Marks p (k :: ks) := by
  obtain ⟨hupTo, hmem⟩ := h
  obtain ⟨_ | q, missed⟩ := r
  · refine ⟨fun p' hp' => ?_, fun k' => ?_⟩
    · obtain rfl := Option.some.inj hp'
      exact Nat.le_refl _
    · simp [Record.miss, hmem]
  · have hle : q ≤ p := hupTo q rfl
    rcases Nat.lt_or_eq_of_le hle with hlt | rfl
    · have hmiss : Record.miss ⟨some q, missed⟩ p k = ⟨some p, [k]⟩ := if_pos hlt
      rw [hmiss]
      refine ⟨fun p' hp' => ?_, fun k' => ?_⟩
      · obtain rfl := Option.some.inj hp'
        exact Nat.le_refl _
      · have hne : q ≠ p := Nat.ne_of_lt hlt
        simp [hmem, hne]
    · have hmiss : Record.miss ⟨some q, missed⟩ q k = ⟨some q, k :: missed⟩ := by
        simp [Record.miss]
      rw [hmiss]
      exact ⟨hupTo, fun k' => by simp [hmem]⟩

/-- What is tried before the furthest position changes nothing. -/
theorem miss_of_lt (h : r.reached = some q) (hlt : p < q) (k : Token.Kind) : r.miss p k = r := by
  rw [miss, h]
  show (if q < p then _ else if q = p then _ else r) = r
  rw [if_neg (by omega), if_neg (by omega)]

end Record

/-! ### Memory -/

namespace Memory

variable {m m' m'' : Memory} {names names' : List String}

def missAll (m : Memory) (p : Nat) (ks : List Token.Kind) : Memory :=
  ks.foldl (fun m k => m.miss p k) m

theorem marks_missAll (h : m.record.Marks p ks) (tried : List Token.Kind) :
    (m.missAll p tried).record.Marks p (tried ++ ks) := by
  induction tried generalizing m ks with
  | nil => exact h
  | cons k tried ih =>
      have hmiss : (m.miss p k).record.Marks p (k :: ks) := h.miss k
      refine (ih hmiss).congr fun k' => ?_
      simp only [List.cons_append, List.mem_cons, List.mem_append]
      exact or_left_comm

theorem upTo_missAll (h : m.record.UpTo p) (tried : List Token.Kind) :
    (m.missAll p tried).record.UpTo p := by
  -- Some kinds are marked at `p`; which ones does not matter.
  obtain ⟨ks, hks⟩ : ∃ ks, m.record.Marks p ks := by
    by_cases hreached : m.record.reached = some p
    · exact ⟨m.record.missed, h, fun k => by simp [hreached]⟩
    · exact ⟨[], h, fun k => by simp [hreached]⟩
  exact (marks_missAll hks tried).upTo

theorem miss_of_lt (h : m.record.reached = some q) (hlt : p < q) (k : Token.Kind) :
    m.miss p k = m := by
  rw [miss, Record.miss_of_lt h hlt]

theorem missAll_of_lt (h : m.record.reached = some q) (hlt : p < q) (ks : List Token.Kind) :
    m.missAll p ks = m := by
  induction ks with
  | nil => rfl
  | cons k ks ih =>
      rw [missAll, List.foldl_cons, miss_of_lt h hlt]
      exact ih

/-- Between the two memories the names were hashed, in this order, and no others. -/
structure Heard (m : Memory) (names : List String) (m' : Memory) : Prop where
  hashed : m'.hashed = m.hashed ++ names
  table : m'.table = m.table.recordAll names

theorem heard_nil (m : Memory) : m.Heard [] m :=
  ⟨(List.append_nil _).symm, rfl⟩

theorem heard_hash (m : Memory) (name : String) : m.Heard [name] (m.hash name) :=
  ⟨rfl, rfl⟩

theorem Heard.trans (h : m.Heard names m') (h' : m'.Heard names' m'') :
    m.Heard (names ++ names') m'' := by
  refine ⟨?_, ?_⟩
  · rw [h'.hashed, h.hashed, List.append_assoc]
  · rw [h'.table, h.table, Spellings.recordAll_append]

/-- A record that begins anew has nothing to do with the names. -/
theorem Heard.of_reset (h : m.reset.Heard names m') : m.Heard names m' :=
  ⟨h.hashed, h.table⟩

theorem Heard.miss (h : m.Heard names m') (p : Nat) (k : Token.Kind) :
    m.Heard names (m'.miss p k) :=
  ⟨h.hashed, h.table⟩

theorem Heard.missAll (h : m.Heard names m') (p : Nat) (ks : List Token.Kind) :
    m.Heard names (m'.missAll p ks) := by
  induction ks generalizing m' with
  | nil => exact h
  | cons k ks ih => exact ih (h.miss p k)

theorem heard_missAll (m : Memory) (p : Nat) (ks : List Token.Kind) :
    m.Heard [] (m.missAll p ks) :=
  (heard_nil m).missAll p ks

end Memory

/-! ### Loops -/

variable {source : List Char} {rule : Rule source α} {pl last : Place}

def outcome (as : List α) (last : Place) : Option ReadFault × Memory → Attempt (List α)
  | (none, m) => .ok (as, ⟨last.pos, m⟩)
  | (some fault, m) => .error (some fault, m)

theorem loop_of_repeats {as : List α} {stop : Option ReadFault × Memory}
    (h : Repeats rule.scan pl as last stop) : loop rule pl = outcome as last stop := by
  induction h with
  | @stop pl stop hscan =>
      obtain ⟨_ | fault, m⟩ := stop
      · exact loop_of_absent hscan
      · exact loop_of_fault hscan
  | @more pl pl' last a as stop hscan _ ih =>
      rw [loop_of_ok hscan, ih]
      obtain ⟨_ | fault, m⟩ := stop
      · rfl
      · rfl

/-- The loop comes to a place where the rule finds nothing more, or meets a fault. -/
theorem exists_repeats (rule : Rule source α) (pl : Place) :
    ∃ as last stop, Repeats rule.scan pl as last stop ∧ loop rule pl = outcome as last stop ∧
      (pl.pos ≤ source.length → pl.pos + as.length ≤ last.pos ∧ last.pos ≤ source.length) := by
  have hstep (pl : Place) (a : α) (pl' : Place) (_ : pl.pos ≤ source.length)
      (h : rule.scan pl = .ok (a, pl')) : pl'.pos ≤ source.length ∧ pl.pos < pl'.pos :=
    (rule.advances pl a pl' h).symm
  by_cases hpos : pl.pos ≤ source.length
  · obtain ⟨as, last, stop, hrepeats, hlast, hlen⟩ :=
      exists_repeats_of_lt Place.pos (fun _ => id) hstep hpos
    exact ⟨as, last, stop, hrepeats, loop_of_repeats hrepeats, fun _ => ⟨hlen, hlast⟩⟩
  · -- Past the end nothing is found.
    cases hscan : rule.scan pl with
    | ok r =>
        obtain ⟨hlt, hle⟩ := rule.advances pl r.1 r.2 hscan
        omega
    | error stop =>
        have hrepeats : Repeats rule.scan pl [] pl stop := .stop hscan
        exact ⟨[], pl, stop, hrepeats, loop_of_repeats hrepeats, fun h => absurd h hpos⟩

/-! ### What is found -/

def found (x : Attempt α) : Except (Option ReadFault) (α × Nat) :=
  (x.map fun r => (r.1, r.2.pos)).mapError Prod.fst

theorem exists_of_found_eq_ok {x : Attempt α} {a : α} (h : found x = .ok (a, p)) :
    ∃ m, x = .ok (a, ⟨p, m⟩) := by
  cases x with
  | error stop => contradiction
  | ok r =>
      obtain ⟨rfl, rfl⟩ := Prod.mk.inj (Except.ok.inj h)
      exact ⟨r.2.memory, rfl⟩

theorem exists_of_found_eq_error {x : Attempt α} {stop : Option ReadFault}
    (h : found x = .error stop) : ∃ m, x = .error (stop, m) := by
  cases x with
  | ok r => contradiction
  | error stop' =>
      obtain rfl : stop'.1 = stop := Except.error.inj h
      exact ⟨stop'.2, rfl⟩

/-- What the scan finds does not depend on the memory. -/
def Oblivious (x : Scan α) : Prop :=
  ∀ pos m m', found (x ⟨pos, m⟩) = found (x ⟨pos, m'⟩)

section

variable {β : Type} {x y : Scan α} {f : α → Scan β}

theorem oblivious_pure (a : α) : Oblivious (pure a) :=
  fun _ _ _ => rfl

theorem Oblivious.bind (hx : Oblivious x) (hf : ∀ a, Oblivious (f a)) : Oblivious (x >>= f) := by
  intro pos m m'
  have hfound := hx pos m m'
  cases hscan : x ⟨pos, m⟩ with
  | ok r =>
      obtain ⟨a, q, n⟩ := r
      rw [hscan] at hfound
      obtain ⟨n', hscan'⟩ := exists_of_found_eq_ok hfound.symm
      rw [bind_of_ok hscan, bind_of_ok hscan']
      exact hf a q n n'
  | error stop =>
      rw [hscan] at hfound
      obtain ⟨n', hscan'⟩ := exists_of_found_eq_error hfound.symm
      rw [bind_of_error hscan, bind_of_error hscan']
      rfl

theorem Oblivious.otherwise (hx : Oblivious x) (hy : Oblivious y) :
    Oblivious (otherwise x y) := by
  intro pos m m'
  have hfound := hx pos m m'
  cases hscan : x ⟨pos, m⟩ with
  | ok r =>
      obtain ⟨a, q, n⟩ := r
      rw [hscan] at hfound
      obtain ⟨n', hscan'⟩ := exists_of_found_eq_ok hfound.symm
      simp only [Descent.otherwise, hscan, hscan']
      rfl
  | error stop =>
      obtain ⟨_ | fault, n⟩ := stop
      · rw [hscan] at hfound
        obtain ⟨n', hscan'⟩ := exists_of_found_eq_error hfound.symm
        simp only [Descent.otherwise, hscan, hscan']
        exact hy pos n n'
      · rw [hscan] at hfound
        obtain ⟨n', hscan'⟩ := exists_of_found_eq_error hfound.symm
        simp only [Descent.otherwise, hscan, hscan']
        rfl

/-- Each round of the loop begins where it would with another memory. -/
theorem oblivious_loop (hrule : Oblivious rule.scan) : Oblivious (loop rule) := by
  intro pos m m'
  induction hn : source.length - pos using Nat.strongRecOn generalizing pos m m' with
  | ind n ih =>
      have hfound := hrule pos m m'
      cases hscan : rule.scan ⟨pos, m⟩ with
      | ok r =>
          obtain ⟨a, q, k⟩ := r
          obtain ⟨hlt, hle⟩ : pos < q ∧ q ≤ source.length := rule.advances _ _ _ hscan
          rw [hscan] at hfound
          obtain ⟨k', hscan'⟩ := exists_of_found_eq_ok hfound.symm
          have hrest := ih _ (by omega) q k k' rfl
          rw [loop_of_ok hscan, loop_of_ok hscan']
          cases hloop : loop rule ⟨q, k⟩ with
          | ok r =>
              obtain ⟨as, q', l⟩ := r
              rw [hloop] at hrest
              obtain ⟨l', hloop'⟩ := exists_of_found_eq_ok hrest.symm
              rw [hloop']
              rfl
          | error stop =>
              rw [hloop] at hrest
              obtain ⟨l', hloop'⟩ := exists_of_found_eq_error hrest.symm
              rw [hloop']
              rfl
      | error stop =>
          obtain ⟨stop, k⟩ := stop
          rw [hscan] at hfound
          obtain ⟨k', hscan'⟩ := exists_of_found_eq_error hfound.symm
          cases stop with
          | none =>
              rw [loop_of_absent hscan, loop_of_absent hscan']
              rfl
          | some fault =>
              rw [loop_of_fault hscan, loop_of_fault hscan']
              rfl

end

variable [Text.Alphabet]

theorem oblivious_punct (c : Char) (k : Token.Kind) : Oblivious (punct source c k).scan := by
  intro pos m m'
  dsimp only [punct, Place.pastBlanks]
  split
  · rfl
  · rfl

theorem oblivious_ident : Oblivious (ident source).scan := by
  intro pos m m'
  dsimp only [ident, Place.pastBlanks]
  split
  · rfl
  · rfl

omit [Text.Alphabet] in
theorem oblivious_falseMark : Oblivious (falseMark source) := by
  intro pos m m'
  dsimp only [falseMark]
  split
  · rfl
  · rfl

omit [Text.Alphabet] in
theorem oblivious_integer : Oblivious (integer source) := by
  intro pos m m'
  dsimp only [integer]
  split
  · rfl
  split
  · rfl
  split
  · rfl
  · rfl

theorem oblivious_reference : Oblivious (reference source) :=
  oblivious_ident.bind fun _ => oblivious_pure _

section

variable {expr : Rule source Expr} (hexpr : Oblivious expr.scan)

include hexpr

theorem oblivious_function : Oblivious (function expr) := by
  refine (oblivious_punct _ _).bind fun _ => (oblivious_punct _ _).bind fun _ => ?_
  refine (oblivious_loop oblivious_ident).bind fun params => ?_
  refine (oblivious_punct _ _).bind fun _ => ?_
  exact (oblivious_loop hexpr).bind fun body => oblivious_pure _

theorem oblivious_definition : Oblivious (definition expr) := by
  refine (oblivious_punct _ _).bind fun _ => oblivious_ident.bind fun target => ?_
  exact hexpr.bind fun value => oblivious_pure _

omit [Text.Alphabet] in
theorem oblivious_call : Oblivious (call expr) :=
  hexpr.bind fun _ => (oblivious_loop hexpr).bind fun _ => oblivious_pure _

theorem oblivious_inside : Oblivious (inside expr) := by
  have hforms := (oblivious_function hexpr).otherwise
    ((oblivious_definition hexpr).otherwise (oblivious_call hexpr))
  exact hforms.bind fun e => (oblivious_punct _ _).bind fun _ => oblivious_pure _

end

theorem oblivious_choice {expr? : Option (Rule source Expr)}
    (hexpr : ∀ expr ∈ expr?, Oblivious expr.scan) : Oblivious (choice expr?) := by
  have hform : Oblivious (form expr?) := by
    intro pos m m'
    dsimp only [form]
    split
    · cases expr? with
      | none => rfl
      | some expr => exact oblivious_inside (hexpr expr rfl) (pos + 1) m m'
    · rfl
  have hchoice : Oblivious (otherwise (falseMark source) (otherwise (integer source)
      (otherwise (reference source) (form expr?)))) :=
    oblivious_falseMark.otherwise
      (oblivious_integer.otherwise (oblivious_reference.otherwise hform))
  intro pos m m'
  have hfound := hchoice (skip source pos) m m'
  simp only [choice, Place.pastBlanks]
  cases hscan : otherwise (falseMark source) (otherwise (integer source)
      (otherwise (reference source) (form expr?))) ⟨skip source pos, m⟩ with
  | ok r =>
      obtain ⟨e, q, n⟩ := r
      rw [hscan] at hfound
      obtain ⟨n', hscan'⟩ := exists_of_found_eq_ok hfound.symm
      rw [hscan']
      rfl
  | error stop =>
      rw [hscan] at hfound
      obtain ⟨n', hscan'⟩ := exists_of_found_eq_error hfound.symm
      rw [hscan']
      rfl

/-- The record and the table of names never steer the reading. -/
theorem oblivious_expr (source : List Char) (room : Nat) : Oblivious (expr source room).scan := by
  induction room with
  | zero => exact oblivious_choice fun _ h => by contradiction
  | succ room ih =>
      refine oblivious_choice fun rule h => ?_
      obtain rfl := Option.some.inj h
      exact ih

end SproutLang.Descent
