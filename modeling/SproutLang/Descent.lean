import SproutLang.Cursor
import SproutLang.Spellings

/-!
Reading by descent. The grammar is read by functions that try something at a place of the text and
call each other: the alternatives of a choice are tried in order, each from the same position, and
the first that finds something counts.

What goes back to its position does not go back in its memory. There, a record is kept of the
furthest position at which something was tried in vain and of what was tried there, from which the
message is made if nothing is found at all; and every name that is met, in whatever alternative, is
entered into the table of spellings at once.

What is found takes at least one character, and ends inside the text. A `Rule` has the proof of this
with it, so that it can be repeated for as long as it finds something: the `loop` over a rule is a
recursion on what is left of the text, and comes to an end on every text. A form in parentheses
calls for the rule of expressions again, with one form less to go.
-/

namespace SproutLang

namespace Descent

variable {α β : Type}

/-! ### Memory -/

/-- The furthest position at which tokens were tried in vain, and the kinds of these. -/
structure Record where
  reached : Option Nat
  missed : List Token.Kind

namespace Record

def blank : Record := ⟨none, []⟩

/-- A token of the kind was tried at `pos` in vain. Only the furthest such position is kept. -/
def miss (r : Record) (pos : Nat) (k : Token.Kind) : Record :=
  match r.reached with
  | none => ⟨some pos, [k]⟩
  | some p =>
      if p < pos then ⟨some pos, [k]⟩
      else if p = pos then { r with missed := k :: r.missed }
      else r

def fault (source : List Char) (start : Nat) (r : Record) : ReadFault :=
  let pos := max start (r.reached.getD 0)
  .unexpected (.of source pos) source[pos]? (Token.Kind.all.filter fun k => k ∈ r.missed)

end Record

/-- What a reading remembers. `hashed` are the names that were entered into the table, in order. -/
structure Memory where
  record : Record
  hashed : List String
  table : Spellings

namespace Memory

def reset (m : Memory) : Memory :=
  { m with record := .blank }

def miss (m : Memory) (pos : Nat) (k : Token.Kind) : Memory :=
  { m with record := m.record.miss pos k }

def hash (m : Memory) (name : String) : Memory :=
  { m with hashed := m.hashed ++ [name], table := m.table.record name }

end Memory

/-! ### Scans -/

structure Place where
  pos : Nat
  memory : Memory

/-- What comes of an attempt: what was found and the place behind it, or that there is nothing of
the kind, or a fault that ends the whole reading. Either way there is a memory of it. -/
abbrev Attempt (α : Type) : Type :=
  Except (Option ReadFault × Memory) (α × Place)

def Scan (α : Type) : Type :=
  Place → Attempt α

instance : Monad Scan where
  pure a := fun pl => .ok (a, pl)
  bind x f := fun pl =>
    match x pl with
    | .ok (a, pl') => f a pl'
    | .error e => .error e

/-- The second scan, where the first finds nothing. It starts at the same position, and with the
memory that the first has left. -/
def otherwise (x y : Scan α) : Scan α :=
  fun pl =>
    match x pl with
    | .error (none, m) => y ⟨pl.pos, m⟩
    | r => r

def Place.miss (pl : Place) (k : Token.Kind) : Attempt α :=
  .error (none, pl.memory.miss pl.pos k)

/-- What the scan finds takes at least one character and ends inside the text. -/
def Advances (source : List Char) (x : Scan α) : Prop :=
  ∀ pl a pl', x pl = .ok (a, pl') → pl.pos < pl'.pos ∧ pl'.pos ≤ source.length

/-- What the scan finds, from a position in the text, ends there or further on, inside the text. -/
def Remains (source : List Char) (x : Scan α) : Prop :=
  ∀ pl a pl', pl.pos ≤ source.length → x pl = .ok (a, pl') →
    pl.pos ≤ pl'.pos ∧ pl'.pos ≤ source.length

section

variable {source : List Char} {x y : Scan α} {f : α → Scan β} {pl pl' : Place}

theorem bind_of_ok {a : α} (h : x pl = .ok (a, pl')) : (x >>= f) pl = f a pl' := by
  show (match x pl with
    | .ok (a, pl') => f a pl'
    | .error e => .error e) = _
  rw [h]

theorem bind_of_error {e : Option ReadFault × Memory} (h : x pl = .error e) :
    (x >>= f) pl = .error e := by
  show (match x pl with
    | .ok (a, pl') => f a pl'
    | .error e => .error e) = _
  rw [h]

/-- What a scan of two parts finds, both have found. -/
theorem exists_of_bind_eq_ok {b : β} (h : (x >>= f) pl = .ok (b, pl')) :
    ∃ a mid, x pl = .ok (a, mid) ∧ f a mid = .ok (b, pl') := by
  cases hx : x pl with
  | error e =>
      rw [bind_of_error hx] at h
      contradiction
  | ok r =>
      rw [bind_of_ok hx] at h
      exact ⟨r.1, r.2, rfl, h⟩

theorem Advances.remains (h : Advances source x) : Remains source x := by
  intro pl a pl' _ hx
  obtain ⟨hlt, hle⟩ := h pl a pl' hx
  exact ⟨Nat.le_of_lt hlt, hle⟩

theorem remains_pure (a : α) : Remains source (pure a) := by
  intro pl a' pl' hpos h
  obtain ⟨-, rfl⟩ := Prod.mk.inj (Except.ok.inj h)
  exact ⟨Nat.le_refl _, hpos⟩

theorem Remains.bind (h : Remains source x) (hf : ∀ a, Remains source (f a)) :
    Remains source (x >>= f) := by
  intro pl b pl' hpos hbind
  obtain ⟨a, mid, hx, hy⟩ := exists_of_bind_eq_ok hbind
  obtain ⟨hle, hmid⟩ := h pl a mid hpos hx
  obtain ⟨hle', hend⟩ := hf a mid b pl' hmid hy
  exact ⟨Nat.le_trans hle hle', hend⟩

/-- It is enough that the first part advances. -/
theorem Advances.bind (h : Advances source x) (hf : ∀ a, Remains source (f a)) :
    Advances source (x >>= f) := by
  intro pl b pl' hbind
  obtain ⟨a, mid, hx, hy⟩ := exists_of_bind_eq_ok hbind
  obtain ⟨hlt, hmid⟩ := h pl a mid hx
  obtain ⟨hle, hend⟩ := hf a mid b pl' hmid hy
  exact ⟨Nat.lt_of_lt_of_le hlt hle, hend⟩

theorem Advances.otherwise (hx : Advances source x) (hy : Advances source y) :
    Advances source (otherwise x y) := by
  intro pl a pl' h
  unfold Descent.otherwise at h
  split at h
  · rename_i m _
    exact hy ⟨pl.pos, m⟩ a pl' h
  · exact hx pl a pl' h

end

/-! ### Rules -/

structure Rule (source : List Char) (α : Type) where
  scan : Scan α
  advances : Advances source scan

/-- What the rule finds at a place, then what it finds behind that, and so on until it finds
nothing. -/
def loop {source : List Char} (rule : Rule source α) : Scan (List α) :=
  fun pl =>
    match h : rule.scan pl with
    | .ok (a, pl') =>
        have : pl.pos < pl'.pos ∧ pl'.pos ≤ source.length := rule.advances pl a pl' h
        (loop rule pl').map fun r => (a :: r.1, r.2)
    | .error (none, m) => .ok ([], ⟨pl.pos, m⟩)
    | .error (some fault, m) => .error (some fault, m)
termination_by pl => source.length - pl.pos
decreasing_by omega

section

variable {source : List Char} {rule : Rule source α} {pl pl' : Place} {a : α}

theorem loop_of_ok (h : rule.scan pl = .ok (a, pl')) :
    loop rule pl = (loop rule pl').map fun r => (a :: r.1, r.2) := by
  rw [loop]
  split
  · rename_i a' pl'' h'
    rw [h] at h'
    obtain ⟨rfl, rfl⟩ := Prod.mk.inj (Except.ok.inj h')
    rfl
  · simp_all
  · simp_all

theorem loop_of_absent {m : Memory} (h : rule.scan pl = .error (none, m)) :
    loop rule pl = .ok ([], ⟨pl.pos, m⟩) := by
  rw [loop]
  split <;> simp_all

theorem loop_of_fault {fault : ReadFault} {m : Memory}
    (h : rule.scan pl = .error (some fault, m)) : loop rule pl = .error (some fault, m) := by
  rw [loop]
  split <;> simp_all

theorem remains_loop (rule : Rule source α) : Remains source (loop rule) := by
  intro pl as pl' hpos h
  induction hn : source.length - pl.pos using Nat.strongRecOn generalizing pl as with
  | ind n ih =>
      cases hscan : rule.scan pl with
      | ok r =>
          obtain ⟨a, mid⟩ := r
          obtain ⟨hlt, hmid⟩ := rule.advances pl a mid hscan
          rw [loop_of_ok hscan] at h
          cases hrest : loop rule mid with
          | error e =>
              rw [hrest] at h
              contradiction
          | ok r =>
              rw [hrest] at h
              obtain rfl : r.2 = pl' := (Prod.mk.inj (Except.ok.inj h)).2
              obtain ⟨hle, hend⟩ := ih _ (by omega) mid r.1 hmid hrest rfl
              exact ⟨by omega, hend⟩
      | error e =>
          obtain ⟨_ | fault, m⟩ := e
          · rw [loop_of_absent hscan] at h
            obtain rfl : (⟨pl.pos, m⟩ : Place) = pl' := (Prod.mk.inj (Except.ok.inj h)).2
            exact ⟨Nat.le_refl _, hpos⟩
          · rw [loop_of_fault hscan] at h
            contradiction

end

variable (source : List Char)

/-! ### Leaves -/

def run (p : Char → Bool) (pos : Nat) : List Char :=
  (source.drop pos).takeWhile p

/-- A run that is not empty is inside the text. -/
theorem add_run_le_of_ne_nil (p : Char → Bool) {pos : Nat} (h : run source p pos ≠ []) :
    pos + (run source p pos).length ≤ source.length := by
  have hle := (List.takeWhile_sublist p (l := source.drop pos)).length_le
  have hlen := List.length_pos_iff.mpr h
  rw [List.length_drop] at hle
  rw [run] at hlen ⊢
  omega

variable [Text.Alphabet]

/-- The position behind the blanks at `pos`; from past the end, the end. -/
def skip (pos : Nat) : Nat :=
  min pos source.length + ((source.drop pos).takeWhile Text.isBlank).length

def Place.pastBlanks (pl : Place) : Place :=
  { pl with pos := skip source pl.pos }

theorem min_le_skip (pos : Nat) : min pos source.length ≤ skip source pos :=
  Nat.le_add_right _ _

theorem le_skip {pos : Nat} (h : pos ≤ source.length) : pos ≤ skip source pos := by
  have hmin := min_le_skip source pos
  omega

theorem skip_le (pos : Nat) : skip source pos ≤ source.length := by
  have hle := (List.takeWhile_sublist Text.isBlank (l := source.drop pos)).length_le
  rw [List.length_drop] at hle
  rw [skip]
  omega

def punct (c : Char) (k : Token.Kind) : Rule source Unit where
  scan := fun pl =>
    let pl := pl.pastBlanks source
    if source[pl.pos]? = some c then .ok ((), { pl with pos := skip source (pl.pos + 1) })
    else pl.miss k
  advances := by
    intro pl a pl' h
    dsimp only [Place.pastBlanks] at h
    split at h
    · rename_i hc
      obtain ⟨-, rfl⟩ := Prod.mk.inj (Except.ok.inj h)
      obtain ⟨hlt, -⟩ := List.getElem?_eq_some_iff.mp hc
      have hpos := min_le_skip source pl.pos
      have hend : skip source pl.pos + 1 ≤ skip source (skip source pl.pos + 1) :=
        le_skip source hlt
      refine ⟨?_, skip_le source _⟩
      show pl.pos < skip source (skip source pl.pos + 1)
      omega
    · contradiction

/-- A name, between blanks. It is hashed as soon as it is found. -/
def ident : Rule source (List Char) where
  scan := fun pl =>
    let pl := pl.pastBlanks source
    let letters := run source Text.isAlphabetic pl.pos
    if letters = [] then pl.miss .identifier
    else .ok (letters,
      ⟨skip source (pl.pos + letters.length), pl.memory.hash (String.ofList letters)⟩)
  advances := by
    intro pl a pl' h
    dsimp only [Place.pastBlanks] at h
    split at h
    · contradiction
    · rename_i hne
      obtain ⟨-, rfl⟩ := Prod.mk.inj (Except.ok.inj h)
      have hpos := min_le_skip source pl.pos
      have hlen := List.length_pos_iff.mpr hne
      have hrun := add_run_le_of_ne_nil source _ hne
      have hend := le_skip source hrun
      refine ⟨?_, skip_le source _⟩
      show pl.pos < skip source _
      omega

/-! ### The grammar -/

def falseMark : Scan Expr := fun pl =>
  if ['#', 'f'] <+: source.drop pl.pos then .ok (.literal .falsity, { pl with pos := pl.pos + 2 })
  else pl.miss .falseMark

/-- A number. One that cannot be converted, or that does not fit 64 bits, is a fault at once. -/
def integer : Scan Expr := fun pl =>
  let digits := run source Text.isAsciiDigit pl.pos
  if digits = [] then pl.miss .digit
  else if Reading.maxDigits < digits.length then
    .error (some (.tooManyDigits digits.length), pl.memory)
  else if Reading.maxInt < Text.decimalNumber digits then
    .error (some (.outOfRange (.of source pl.pos) digits), pl.memory)
  else
    .ok (.literal (.int (Text.decimalNumber digits)), { pl with pos := pl.pos + digits.length })

def reference : Scan Expr := do
  let letters ← (ident source).scan
  return .ref (Reading.keyOf letters)

variable {source}

def function (expr : Rule source Expr) : Scan Expr := do
  (punct source '\\' .backslash).scan
  (punct source '(' .lparen).scan
  let params ← loop (ident source)
  (punct source ')' .rparen).scan
  let body ← loop expr
  return .literal (.function (params.map Reading.keyOf) body)

def definition (expr : Rule source Expr) : Scan Expr := do
  (punct source '=' .equals).scan
  let target ← (ident source).scan
  let value ← expr.scan
  return .define (Reading.keyOf target) value

def call (expr : Rule source Expr) : Scan Expr := do
  let callee ← expr.scan
  let args ← loop expr
  return .call callee args

/-- What stands between parentheses, and the closing one. The first form that is found counts, also
if no parenthesis comes after it. -/
def inside (expr : Rule source Expr) : Scan Expr := do
  let e ← otherwise (function expr) (otherwise (definition expr) (call expr))
  (punct source ')' .rparen).scan
  return e

/-- A form in parentheses, with a rule for the expressions in it if there is room for the form. -/
def form (expr? : Option (Rule source Expr)) : Scan Expr := fun pl =>
  if source[pl.pos]? = some '(' then
    match expr? with
    | none => .error (some .tooDeep, pl.memory)
    | some expr => inside expr { pl with pos := pl.pos + 1 }
  else pl.miss .lparen

def choice (expr? : Option (Rule source Expr)) : Scan Expr := fun pl =>
  let found := otherwise (falseMark source)
    (otherwise (integer source) (otherwise (reference source) (form expr?)))
  (found (pl.pastBlanks source)).map fun r => (r.1, r.2.pastBlanks source)

/-! ### What is found advances -/

theorem advances_function (expr : Rule source Expr) : Advances source (function expr) := by
  refine (punct source '\\' .backslash).advances.bind fun _ => ?_
  refine (punct source '(' .lparen).advances.remains.bind fun _ => ?_
  refine (remains_loop _).bind fun params => ?_
  refine (punct source ')' .rparen).advances.remains.bind fun _ => ?_
  exact (remains_loop expr).bind fun body => remains_pure _

theorem advances_definition (expr : Rule source Expr) : Advances source (definition expr) := by
  refine (punct source '=' .equals).advances.bind fun _ => ?_
  refine (ident source).advances.remains.bind fun target => ?_
  exact expr.advances.remains.bind fun value => remains_pure _

omit [Text.Alphabet] in
theorem advances_call (expr : Rule source Expr) : Advances source (call expr) := by
  refine expr.advances.bind fun callee => ?_
  exact (remains_loop expr).bind fun args => remains_pure _

theorem advances_inside (expr : Rule source Expr) : Advances source (inside expr) := by
  have hforms := (advances_function expr).otherwise
    ((advances_definition expr).otherwise (advances_call expr))
  refine hforms.bind fun e => ?_
  exact (punct source ')' .rparen).advances.remains.bind fun _ => remains_pure _

theorem advances_form (expr? : Option (Rule source Expr)) : Advances source (form expr?) := by
  intro pl e pl' h
  simp only [form] at h
  split at h
  · cases expr? with
    | none => contradiction
    | some expr =>
        obtain ⟨hlt, hle⟩ := advances_inside expr { pl with pos := pl.pos + 1 } e pl' h
        exact ⟨Nat.lt_of_succ_lt hlt, hle⟩
  · contradiction

omit [Text.Alphabet] in
theorem advances_falseMark : Advances source (falseMark source) := by
  intro pl e pl' h
  rw [falseMark] at h
  split at h
  · rename_i hprefix
    obtain ⟨-, rfl⟩ := Prod.mk.inj (Except.ok.inj h)
    have hle := hprefix.length_le
    rw [List.length_drop] at hle
    simp only [List.length_cons, List.length_nil] at hle
    show pl.pos < pl.pos + 2 ∧ pl.pos + 2 ≤ source.length
    omega
  · contradiction

omit [Text.Alphabet] in
theorem advances_integer : Advances source (integer source) := by
  intro pl e pl' h
  simp only [integer] at h
  split at h
  · contradiction
  split at h
  · contradiction
  split at h
  · contradiction
  rename_i hne _ _
  obtain ⟨-, rfl⟩ := Prod.mk.inj (Except.ok.inj h)
  have hlen := List.length_pos_iff.mpr hne
  exact ⟨Nat.lt_add_of_pos_right hlen, add_run_le_of_ne_nil source _ hne⟩

theorem advances_reference : Advances source (reference source) :=
  (ident source).advances.bind fun _ => remains_pure _

/-- An expression that is found is followed by blanks, and it is behind these that it ends. -/
theorem exists_of_choice {expr? : Option (Rule source Expr)} {pl pl' : Place} {e : Expr}
    (h : choice expr? pl = .ok (e, pl')) :
    ∃ p, skip source pl.pos < p ∧ p ≤ source.length ∧ pl'.pos = skip source p := by
  have hadvances := advances_falseMark.otherwise
    (advances_integer.otherwise (advances_reference.otherwise (advances_form expr?)))
  simp only [choice] at h
  generalize hfound : otherwise _ _ (pl.pastBlanks source) = found at h
  cases found with
  | error o => contradiction
  | ok r =>
      obtain ⟨-, rfl⟩ := Prod.mk.inj (Except.ok.inj h)
      obtain ⟨hlt, hle⟩ := hadvances (pl.pastBlanks source) r.1 r.2 hfound
      exact ⟨r.2.pos, hlt, hle, rfl⟩

theorem advances_choice (expr? : Option (Rule source Expr)) : Advances source (choice expr?) := by
  intro pl e pl' h
  obtain ⟨p, hlt, hle, heq⟩ := exists_of_choice h
  have hpos := min_le_skip source pl.pos
  have hend := le_skip source hle
  have hbound := skip_le source p
  omega

variable (source) in
/-- The rule of expressions, with at most `room` forms open at once. -/
def expr : Nat → Rule source Expr
  | 0 => ⟨choice none, advances_choice none⟩
  | room + 1 => ⟨choice (some (expr room)), advances_choice (some (expr room))⟩

end Descent

/-! ### Readers -/

/-- A reader of a text. Its memory is that of all that was asked of it; `live` tells whether the
stream on it can still hand out expressions. -/
structure Reader extends Cursor where
  live : Bool
  memory : Descent.Memory

namespace Reader

variable [Text.Alphabet]

def of (source : List Char) (table : Spellings) : Reader :=
  ⟨⟨source, 0⟩, false, ⟨.blank, [], table⟩⟩

/-- Reads an expression. The record begins anew; on a fault the reader stays where it is. -/
def read (room : Nat) (r : Reader) : Except ReadFault Expr × Reader :=
  match (Descent.expr r.source room).scan ⟨r.pos, r.memory.reset⟩ with
  | .ok (e, pl) => (.ok e, { r with pos := pl.pos, memory := pl.memory })
  | .error (some fault, m) => (.error fault, { r with memory := m })
  | .error (none, m) => (.error (m.record.fault r.source r.pos), { r with memory := m })

def next (room : Nat) (r : Reader) : Except ReadFault (Option Expr) × Reader :=
  let r := { r with pos := Descent.skip r.source r.pos }
  if r.source.length ≤ r.pos then (.ok none, r)
  else
    let (outcome, r) := r.read room
    (outcome.map some, r)

def advance (room : Nat) (r : Reader) : Except ReadFault (Option Expr) × Reader :=
  if r.live then
    let (outcome, r) := r.next room
    (outcome, { r with live := Tap.goesOn outcome })
  else (.ok none, r)

def serve (room : Nat) (r : Reader) : Tap.Request → Except ReadFault (Option Expr) × Reader
  | .read =>
      let (outcome, r) := r.read room
      (outcome.map some, r)
  | .next => r.next room
  | .stream => (.ok none, { r with live := true })
  | .advance => r.advance room
  | .seek pos => (.ok none, { r with pos := pos })

def serveAll (room : Nat) (r : Reader) :
    List Tap.Request → List (Except ReadFault (Option Expr)) × Reader
  | [] => ([], r)
  | request :: requests =>
      let (outcome, r) := r.serve room request
      let (outcomes, r) := serveAll room r requests
      (outcome :: outcomes, r)

def drainUpTo (room : Nat) : Nat → Reader → Except ReadFault (List Expr) × Reader
  | 0, r => (.ok [], r)
  | count + 1, r =>
      let (outcome, r) := r.advance room
      match outcome with
      | .error fault => (.error fault, r)
      | .ok none => (.ok [], r)
      | .ok (some e) =>
          let (more, r) := drainUpTo room count r
          (more.map (e :: ·), r)

def drain (room : Nat) (r : Reader) : Except ReadFault (List Expr) × Reader :=
  r.drainUpTo room (r.source.length + 1)

def all (room : Nat) (source : List Char) (table : Spellings) :
    Except ReadFault (List Expr) × Reader :=
  drain room { of source table with live := true }

end Reader

end SproutLang
