import SproutLang.Proofs.Agreement
import SproutLang.Proofs.Names

/-!
What a reader reports, recalls and hashes, although it backtracks. A reader keeps one record of what
it tried in vain, over all alternatives and all readings, and hashes names while it does not know
yet whether the alternative will be kept. Nonetheless its reports are exact, nothing from an earlier
reading comes into a later one, and each name is hashed once, in the order of the text.

Each of these is a fact about the cursor that the reader agrees with, whose machine never goes back.
Where the memory comes into it, it is the memory that the descent leaves.
-/

namespace SproutLang

namespace Reader

/-! ### Reports -/

section Reports

variable [Text.Alphabet] {room : Nat} {r : Reader}

open Descent in
/-- A report says what the record says: it is about the furthest position at which something was
tried in vain, and lists what was tried there. -/
theorem record_read {site : Text.Site} {found : Option Char} {expected : List Token.Kind}
    (hpos : r.pos ≤ r.source.length)
    (h : (r.read room).1 = .error (.unexpected site found expected)) :
    (r.read room).2.memory.record.reached = some site.pos ∧
      ∀ k, k ∈ (r.read room).2.memory.record.missed ↔ k ∈ expected := by
  have hfinds := finds_expr r.source room r.pos r.memory
  cases hscan : (expr r.source room).scan ⟨r.pos, r.memory.reset⟩ with
  | ok found =>
      simp only [read, hscan] at h
      contradiction
  | error stop =>
      rw [hscan] at hfinds
      obtain ⟨_ | fault, m⟩ := stop
      · simp only [read, hscan] at h ⊢
        obtain ⟨q, hreached, hle⟩ := Stops.exists_reached hfinds hpos
        have hmax : max r.pos q = q := Nat.max_eq_right hle
        have hfault : Record.fault r.source r.pos m.record = .unexpected (.of r.source q)
            r.source[q]? (Token.Kind.all.filter fun k => k ∈ m.record.missed) := by
          simp only [Record.fault, hreached, Option.getD_some, hmax]
        obtain ⟨rfl, -, rfl⟩ := ReadFault.unexpected.inj (hfault.symm.trans (Except.error.inj h))
        refine ⟨hreached, fun k => ?_⟩
        have hall : k ∈ Token.Kind.all := by cases k <;> decide
        simp [hall]
      · -- The faults that end a reading at once report nothing of this kind.
        obtain ⟨s, q, -, halt, -, -, hlasting⟩ := hfinds
        simp only [read, hscan] at h
        obtain rfl := Except.error.inj h
        contradiction

/-- The report of a reading that fails, whatever the reader has tried before. The fault lies between
the start of the reading and the end of the text. The kinds of token that it lists are those that
can follow the text before the fault: some text goes on from there, after a space, with a token of
that kind, and is read. The list is not empty, the text at the fault starts with a token of none of
the kinds in it, and it is what the record is left with. -/
theorem fault_exact (room : Nat) (r : Reader) (site : Text.Site) (found : Option Char)
    (expected : List Token.Kind) (hpos : r.pos ≤ r.source.length)
    (h : (r.read room).1 = .error (.unexpected site found expected)) :
    (r.pos ≤ site.pos ∧ site.pos ≤ r.source.length ∧
      ∀ room', room < room' → ∀ k, k ∈ expected ↔
        ∃ z e, (read room' { r with
          source := r.source.take site.pos ++ ' ' :: (k.sample.text ++ z) }).1 = .ok e) ∧
    expected ≠ [] ∧ (∀ k ∈ expected, ¬ k.Starts (r.source.drop site.pos)) ∧
    (r.read room).2.memory.record.reached = some site.pos ∧
    ∀ k, k ∈ (r.read room).2.memory.record.missed ↔ k ∈ expected := by
  have houtcome := (read_echoes room r).outcome
  rw [h] at houtcome
  obtain ⟨⟨hle, hend, hmem⟩, hne, hstarts⟩ :=
    Cursor.read_fault_exact room r.toCursor site found expected hpos houtcome.symm
  refine ⟨⟨hle, hend, fun room' hroom k => ?_⟩, hne, hstarts, record_read hpos h⟩
  rw [hmem room' hroom k]
  refine exists_congr fun z => exists_congr fun e => ?_
  rw [(read_echoes room' _).outcome]

end Reports

/-- In `)(f (= 1`, read from the second character on, the number is a fault: only a name can stand
there. A record of something that was tried further on, before, does not come into it. -/
theorem fault_exact_missing_name :
    let r : Reader := ⟨⟨[')', '(', 'f', ' ', '(', '=', ' ', '1'], 1⟩, false,
      ⟨⟨some 8, [.rparen]⟩, [], .empty 2⟩⟩
    (r.read 2).1 = .error (.unexpected ⟨7, 1, 8⟩ (some '1') [.identifier]) ∧
      (r.read 2).2.memory.record.reached = some 7 ∧
      ∀ room', 2 < room' → ∀ k, k ∈ [Token.Kind.identifier] ↔
        ∃ z e, (read room' { r with
          source := r.source.take 7 ++ ' ' :: (k.sample.text ++ z) }).1 = .ok e := by
  intro r
  have hlexemes : r.toCursor.lexemes = [⟨1, .lparen⟩, ⟨2, .name ['f']⟩, ⟨4, .lparen⟩, ⟨5, .equals⟩,
      ⟨7, .digits ['1']⟩] := by
    decide +kernel
  have hread : (r.read 2).1 = .error (.unexpected ⟨7, 1, 8⟩ (some '1') [.identifier]) := by
    rw [(read_echoes 2 r).outcome, Cursor.read, hlexemes]
    rfl
  obtain ⟨⟨-, -, hmem⟩, -, -, hreached, -⟩ := fault_exact 2 r _ _ _ (by decide) hread
  exact ⟨hread, hreached, hmem⟩

/-! ### History -/

variable [Text.Alphabet] {room : Nat} {r : Reader}

theorem source_serveAll (room : Nat) (r : Reader) (requests : List Tap.Request) :
    (serveAll room r requests).2.source = r.source := by
  have htap := (serveAll_echoes room r requests).2.1
  have hsource := congrArg (fun t => t.cursor.source) htap
  exact hsource.trans (Tap.source_serveAll room r.tap requests)

/-- A failed reading leaves the reader as it was, its memory apart. -/
theorem tap_read_of_error {fault : ReadFault} (h : (r.read room).1 = .error fault) :
    (r.read room).2.tap = r.tap := by
  obtain ⟨houtcome, htap, -⟩ := read_echoes room r
  rw [h] at houtcome
  obtain ⟨halt, -, -, hstays⟩ := Cursor.exists_halt_of_read houtcome.symm
  rw [htap, hstays]
  rfl

/-- Two readers at one place read the same, whatever they recall. -/
theorem read_congr {r' : Reader} (h : r.toCursor = r'.toCursor) :
    (r.read room).1 = (r'.read room).1 := by
  rw [(read_echoes room r).outcome, (read_echoes room r').outcome, h]

/-- Inside the text, reading is what a new reader does with the rest of it. -/
theorem read_eq_within (room : Nat) (h : r.pos ≤ r.source.length) (T : Spellings) :
    let fresh := (of (r.source.drop r.pos) T).read room
    (r.read room).1 = fresh.1.mapError (ReadFault.within r.source r.pos) ∧
      (∀ e, fresh.1 = .ok e → (r.read room).2.pos = fresh.2.pos + r.pos) ∧
      r.memory.Heard fresh.2.memory.hashed (r.read room).2.memory := by
  intro fresh
  obtain ⟨houtcome, htap, hheard⟩ := read_echoes room r
  obtain ⟨houtcome', htap', hheard'⟩ := read_echoes room (of (r.source.drop r.pos) T)
  have hread := Cursor.read_eq_within (c := r.toCursor) room h
  have hcursor : (r.read room).2.toCursor = (r.toCursor.read room).2 := congrArg Tap.cursor htap
  have hcursor' : fresh.2.toCursor = (Cursor.read room ⟨r.toCursor.remainder, 0⟩).2 :=
    congrArg Tap.cursor htap'
  rw [hread] at houtcome hcursor hheard
  refine ⟨?_, fun e he => ?_, ?_⟩
  · rw [houtcome, houtcome']
    rfl
  · have hok : (Cursor.read room ⟨r.toCursor.remainder, 0⟩).1.outcome = .ok e :=
      houtcome'.symm.trans he
    rw [hcursor, hcursor', hok]
  · rw [hheard'.hashed]
    exact hheard

/-- To read depends on the text from the reader's position on, and on nothing that happened before.
Whatever a reader was asked for, moves to any position among it, reading inside the text gives what
a new reader on the rest of the text gives: the same expression, with the end moved on, or the same
fault, at its site in the whole, and the same names are hashed. Past the end the fault is where the
reader is, and lists what can start an expression. A fault leaves the reader where it is and its
stream as it is; what it leaves in the memory does not show, and to read again meets it again. -/
theorem reads_as_afresh (room : Nat) (source : List Char) (T U : Spellings)
    (requests : List Tap.Request) :
    let r := (serveAll room (of source T) requests).2
    let now := r.read room
    let fresh := (of (source.drop r.pos) U).read room
    (r.pos ≤ source.length →
      now.1 = fresh.1.mapError (ReadFault.within source r.pos) ∧
      (∀ e, fresh.1 = .ok e → now.2.pos = fresh.2.pos + r.pos) ∧
      now.2.memory.hashed = r.memory.hashed ++ fresh.2.memory.hashed) ∧
    (source.length < r.pos →
      now.1 = .error (.unexpected (.of source r.pos) none Reading.exprKinds)) ∧
    (∀ fault, now.1 = .error fault →
      now.2.toCursor = r.toCursor ∧ now.2.live = r.live ∧ (now.2.read room).1 = .error fault) := by
  intro r now fresh
  have hsource : r.source = source := source_serveAll room (of source T) requests
  refine ⟨fun hle => ?_, fun hlt => ?_, fun fault hfault => ?_⟩
  · obtain ⟨houtcome, hend, hheard⟩ := read_eq_within room (hsource ▸ hle) U
    rw [hsource] at houtcome hend hheard
    exact ⟨houtcome, hend, hheard.hashed⟩
  · have hread := Cursor.read_of_length_lt (c := r.toCursor) room (hsource ▸ hlt)
    rw [hsource] at hread
    have houtcome := (read_echoes room r).outcome
    rw [hread] at houtcome
    exact houtcome
  · have htap := tap_read_of_error hfault
    have hcursor : now.2.toCursor = r.toCursor := congrArg Tap.cursor htap
    exact ⟨hcursor, congrArg Tap.live htap, (read_congr hcursor).trans hfault⟩

/-! ### Names -/

/-- Reading an expression hashes the runs of letters from the reader's position to where the reading
stops, each once and in order, whatever alternatives were tried on the way. It stops at the end of
the expression, whose names they are, or at the site of the fault, if it has one. The table of
spellings is then the one from before, with these names entered one after another. -/
theorem hashes_names_in_order (room : Nat) (r : Reader) :
    let after := (r.read room).2
    ∃ names, after.memory.hashed = r.memory.hashed ++ names ∧
      after.memory.table = r.memory.table.recordAll names ∧
      (∃ n, Text.RunsBefore (r.source.drop r.pos) n names) ∧
      (∀ e, (r.read room).1 = .ok e → names.map Key.ofName = e.keys ∧
        Text.RunsBefore (r.source.drop r.pos) (after.pos - r.pos) names) ∧
      (∀ site found expected, (r.read room).1 = .error (.unexpected site found expected) →
        Text.RunsBefore (r.source.drop r.pos) (site.pos - r.pos) names) ∧
      (∀ site run, (r.read room).1 = .error (.outOfRange site run) →
        Text.RunsBefore (r.source.drop r.pos) (site.pos - r.pos) names) := by
  intro after
  obtain ⟨houtcome, htap, hheard⟩ := read_echoes room r
  have hcursor : after.toCursor = (r.toCursor.read room).2 := congrArg Tap.cursor htap
  have hnames := Cursor.read_names_in_order room r.toCursor
  refine ⟨_, hheard.hashed, hheard.table, ?_⟩
  rw [houtcome, hcursor]
  exact hnames

end Reader

end SproutLang
