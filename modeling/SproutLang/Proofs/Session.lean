import SproutLang.Proofs.Concatenation
import SproutLang.Session

/-!
Programs in one piece and in pieces. A session reads a text to its end before it evaluates any of
it, so a text has one of two effects: those of its expressions, one after another, or none at all.
Expressions evaluated in a row are expressions evaluated in two rows, and two texts with blanks
between them are read as one after the other; hence a session does with the whole what it does with
the first text and then, if that went well, with the second.

Only the table of spellings tells the two apart, and only when the first text fails: in one piece
the names of the second have been read by then.
-/

namespace SproutLang

variable {σ : Type}

/-! ### Rows of expressions -/

/-- One row of evaluations and, if all of it had values, another in what it left. -/
def Series.followedBy (r : Series σ) (next : Scope → σ → Series σ) : Series σ :=
  match r.ending with
  | .value _ =>
      let q := next r.scope r.world
      { q with values := r.values ++ q.values, log := r.log ++ q.log }
  | _ => r

theorem evaluateAll_append (host : Host σ) (depth : Nat) (xs ys : List Expr) (s : Scope) (w : σ) :
    evaluateAll host depth (xs ++ ys) s w =
      (evaluateAll host depth xs s w).followedBy (evaluateAll host depth ys) := by
  induction xs generalizing s w with
  | nil => rfl
  | cons x xs ih =>
      simp only [List.cons_append, evaluateAll, ih]
      rcases evaluate host depth x s w with ⟨v | f | _, s₁, w₁, log₁⟩
      · -- only the rest of the first row decides whether there is a second
        dsimp only
        rcases evaluateAll host depth xs s₁ w₁ with ⟨vs, _ | _ | _, s₂, w₂, log₂⟩
        · simp only [Series.followedBy, List.cons_append, List.append_assoc]
        · rfl
        · rfl
      · rfl
      · rfl

section Rows

variable {host : Host σ} {depth : Nat} {s : Scope} {w : σ}

theorem length_values_of_value {es : List Expr}
    (h : (evaluateAll host depth es s w).ending = .value ()) :
    (evaluateAll host depth es s w).values.length = es.length := by
  induction es generalizing s w with
  | nil => rfl
  | cons e es ih =>
      cases houtcome : (evaluate host depth e s w).outcome with
      | value v =>
          simp only [evaluateAll, houtcome] at h ⊢
          exact congrArg (· + 1) (ih h)
      | _ => simp [evaluateAll, houtcome] at h

/-- An expression without a value ends the row: the values are those of the expressions before. -/
theorem evaluateAll_stops {before : List Expr}
    (h : (evaluateAll host depth before s w).ending = .value ()) (e : Expr) (after : List Expr) :
    let earlier := evaluateAll host depth before s w
    let row := evaluateAll host depth (before ++ e :: after) s w
    let outcome := (evaluate host depth e earlier.scope earlier.world).outcome
    (∀ f, outcome = .failed f → row.values = earlier.values ∧ row.ending = .failed f) ∧
      (outcome = .exhausted → row.values = earlier.values ∧ row.ending = .exhausted) := by
  intro earlier row outcome
  have hrow : row = earlier.followedBy (evaluateAll host depth (e :: after)) :=
    evaluateAll_append host depth before (e :: after) s w
  rw [hrow, Series.followedBy, h]
  constructor
  · intro f hf
    simp only [outcome] at hf
    simp [evaluateAll, hf]
  · intro hexhausted
    simp only [outcome] at hexhausted
    simp [evaluateAll, hexhausted]

theorem exists_stop {es : List Expr} (h : (evaluateAll host depth es s w).ending ≠ .value ()) :
    ∃ before e after, es = before ++ e :: after ∧
      let earlier := evaluateAll host depth before s w
      earlier.ending = .value () ∧
        ∀ v, (evaluate host depth e earlier.scope earlier.world).outcome ≠ .value v := by
  induction es generalizing s w with
  | nil => exact absurd rfl h
  | cons e es ih =>
      cases houtcome : (evaluate host depth e s w).outcome with
      | value v =>
          simp only [evaluateAll, houtcome] at h
          obtain ⟨before, e', after, rfl, hearlier, hstop⟩ := ih h
          refine ⟨e :: before, e', after, rfl, ?_⟩
          simp only [evaluateAll, houtcome]
          exact ⟨hearlier, hstop⟩
      | _ => exact ⟨[], e, es, rfl, rfl, by simp [evaluateAll, houtcome]⟩

end Rows

/-! ### Texts in a session -/

namespace Session

variable {host : Host σ} {limits : Limits} {a w b text : List Char} {xs ys : List Expr}

theorem run_of_fault (s : Session σ) {fault : ReadFault}
    (h : (Source.all limits.room text).outcome = .error fault) :
    s.run host limits text = ⟨.error (.reading fault),
      { s with spellings := s.spellings.recordAll (Source.all limits.room text).names }, []⟩ := by
  simp only [run, h]

def stepOf (t : Spellings) (r : Series σ) : Step σ (List Value) :=
  ⟨(outcomeOf r.ending).map fun _ => r.values, ⟨r.scope, t, r.world⟩, r.log⟩

theorem run_of_exprs (s : Session σ) (h : (Source.all limits.room text).outcome = .ok xs) :
    s.run host limits text = stepOf (s.spellings.recordAll (Source.all limits.room text).names)
      (evaluateAll host limits.depth xs s.scope s.world) := by
  simp only [run, h, stepOf]

theorem row_of_ok {t : Spellings} {r : Series σ} {vs : List Value}
    (h : (stepOf t r).outcome = .ok vs) : r.ending = .value () ∧ r.values = vs := by
  obtain ⟨us, _ | f | _, s₁, w₁, log₁⟩ := r
  · exact ⟨rfl, by simpa [stepOf, outcomeOf, Except.map] using h⟩
  · simp [stepOf, outcomeOf, Except.map] at h
  · simp [stepOf, outcomeOf, Except.map] at h

theorem stepOf_followedBy_of_ok {t : Spellings} {r : Series σ} {vs : List Value}
    (h : (stepOf t r).outcome = .ok vs) (t' : Spellings) (next : Scope → σ → Series σ) :
    stepOf t' (r.followedBy next) =
      let second := stepOf t' (next r.scope r.world)
      ⟨second.outcome.map (vs ++ ·), second.session, r.log ++ second.log⟩ := by
  obtain ⟨hending, rfl⟩ := row_of_ok h
  simp only [Series.followedBy, hending, stepOf]
  cases (next r.scope r.world).ending <;> rfl

theorem followedBy_of_error {t : Spellings} {r : Series σ} {trouble : Trouble}
    (h : (stepOf t r).outcome = .error trouble) (next : Scope → σ → Series σ) :
    r.followedBy next = r := by
  obtain ⟨us, _ | f | _, s₁, w₁, log₁⟩ := r
  · simp [stepOf, outcomeOf, Except.map] at h
  · rfl
  · rfl

/-- What a session does with a text and, after blanks, another: both rows, and both texts' names. -/
theorem run_pieces (s : Session σ) (ha : (Source.all limits.room a).outcome = .ok xs)
    (hw : w ≠ []) (hblank : ∀ c ∈ w, Text.isBlank c = true)
    (hb : (Source.all limits.room b).outcome = .ok ys) :
    s.run host limits (a ++ w ++ b) =
      stepOf ((s.spellings.recordAll (Source.all limits.room a).names).recordAll
          (Source.all limits.room b).names)
        ((evaluateAll host limits.depth xs s.scope s.world).followedBy
          (evaluateAll host limits.depth ys)) := by
  rw [run_of_exprs s (Source.all_pieces_ok ha hw hblank hb), Source.names_pieces ha hw hblank,
    Spellings.recordAll_append, evaluateAll_append]

theorem run_pieces_of_ok (s : Session σ) (ha : (Source.all limits.room a).outcome = .ok xs)
    (hw : w ≠ []) (hblank : ∀ c ∈ w, Text.isBlank c = true)
    (hb : (Source.all limits.room b).outcome = .ok ys) {vs : List Value}
    (hfirst : (s.run host limits a).outcome = .ok vs) :
    s.run host limits (a ++ w ++ b) =
      let second := (s.run host limits a).session.run host limits b
      ⟨second.outcome.map (vs ++ ·), second.session, (s.run host limits a).log ++ second.log⟩ := by
  rw [run_of_exprs _ hb]
  rw [run_of_exprs s ha] at hfirst ⊢
  rw [run_pieces s ha hw hblank hb, stepOf_followedBy_of_ok hfirst]
  rfl

theorem run_pieces_of_error (s : Session σ) (ha : (Source.all limits.room a).outcome = .ok xs)
    (hw : w ≠ []) (hblank : ∀ c ∈ w, Text.isBlank c = true)
    (hb : (Source.all limits.room b).outcome = .ok ys) {trouble : Trouble}
    (hfirst : (s.run host limits a).outcome = .error trouble) :
    s.run host limits (a ++ w ++ b) =
      let first := s.run host limits a
      { first with session := { first.session with
          spellings := first.session.spellings.recordAll (Source.all limits.room b).names } } := by
  rw [run_of_exprs s ha] at hfirst ⊢
  rw [run_pieces s ha hw hblank hb, followedBy_of_error hfirst]
  rfl

theorem run_pieces_of_fault (host : Host σ) (s : Session σ)
    (ha : (Source.all limits.room a).outcome = .ok xs) (hw : w ≠ [])
    (hblank : ∀ c ∈ w, Text.isBlank c = true) {fault : ReadFault}
    (hb : (Source.all limits.room b).outcome = .error fault) :
    ∃ fault', fault'.SameKind fault ∧ s.run host limits (a ++ w ++ b) =
      ⟨.error (.reading fault'),
        ⟨s.scope, (s.spellings.recordAll (Source.all limits.room a).names).recordAll
          (Source.all limits.room b).names, s.world⟩, []⟩ := by
  refine ⟨fault.behind (a ++ w), fault.sameKind_behind _, ?_⟩
  rw [run_of_fault s (Source.all_pieces_error ha hw hblank hb), Source.names_pieces ha hw hblank,
    Spellings.recordAll_append]

theorem beginWith_eq_load (host : Host σ) (limits : Limits) (spellings : Spellings) (world : σ)
    (natives : Bool) (text : List Char) :
    beginWith host limits spellings world natives text =
      (begin spellings world natives).load host limits text := by
  cases text with
  | nil =>
      have hread : Source.all limits.room [] = ⟨[], .ok []⟩ := by
        rw [Source.all, Lexeme.scan_nil]
        rfl
      rw [load, run_of_exprs _ (congrArg Source.Reply.outcome hread), hread]
      rfl
  | cons c text => rfl

/-- What a text of some values evaluates to: none is `void`, one is itself, and several are a
list. -/
theorem outcome_eval {s : Session σ} {text : List Char} {vs : List Value}
    (h : (s.run host limits text).outcome = .ok vs) :
    (vs = [] → (s.eval host limits text).outcome = .ok .void) ∧
      (∀ v, vs = [v] → (s.eval host limits text).outcome = .ok v) ∧
      (2 ≤ vs.length → (s.eval host limits text).outcome = .ok (.list vs)) := by
  have heval : (s.eval host limits text).outcome = .ok (summary vs) :=
    congrArg (Except.map summary) h
  refine ⟨?_, ?_, fun hlength => ?_⟩
  · rintro rfl
    exact heval
  · rintro v rfl
    exact heval
  · obtain ⟨v, w, rest, rfl⟩ : ∃ v w rest, vs = v :: w :: rest :=
      match vs, hlength with
      | v :: w :: rest, _ => ⟨v, w, rest, rfl⟩
    exact heval

/-- A text in one piece is the text in pieces, and a fault anywhere in it means that nothing
happens; evaluating for the value and for the effects have the same effects, in a session under way
and at its beginning. The value is `void` for no values, a single one for itself, and else the list
of them. -/
theorem run_in_pieces (host : Host σ) (limits : Limits) (s : Session σ) :
    (∀ a w b xs, w ≠ [] → (∀ c ∈ w, Text.isBlank c = true) →
      (Source.all limits.room a).outcome = .ok xs →
      let whole := s.run host limits (a ++ w ++ b)
      let first := s.run host limits a
      let second := first.session.run host limits b
      (∀ ys, (Source.all limits.room b).outcome = .ok ys →
        (∀ vs, first.outcome = .ok vs →
          whole = ⟨second.outcome.map (vs ++ ·), second.session, first.log ++ second.log⟩) ∧
        (∀ trouble, first.outcome = .error trouble →
          whole.outcome = .error trouble ∧ whole.session.scope = first.session.scope ∧
            whole.session.world = first.session.world ∧ whole.log = first.log)) ∧
      (∀ fault, (Source.all limits.room b).outcome = .error fault →
        (∃ fault', fault'.SameKind fault ∧ whole.outcome = .error (.reading fault')) ∧
          whole.session.scope = s.scope ∧ whole.session.world = s.world ∧ whole.log = [])) ∧
    (∀ text, s.eval host limits text =
      let r := s.run host limits text
      ⟨r.outcome.map summary, r.session, r.log⟩) ∧
    (∀ text vs, (s.run host limits text).outcome = .ok vs →
      (vs = [] → (s.eval host limits text).outcome = .ok .void) ∧
      (∀ v, vs = [v] → (s.eval host limits text).outcome = .ok v) ∧
      (2 ≤ vs.length → (s.eval host limits text).outcome = .ok (.list vs))) ∧
    (∀ text, s.load host limits text =
      let r := s.eval host limits text
      ⟨r.outcome.map fun _ => (), r.session, r.log⟩) ∧
    (∀ spellings world natives text,
      beginWith host limits spellings world natives text =
        (begin spellings world natives : Session σ).load host limits text) := by
  refine ⟨?_, fun text => rfl, fun text vs => outcome_eval, fun text => ?_,
    beginWith_eq_load host limits⟩
  · intro a w b xs hw hblank ha
    refine ⟨fun ys hb => ⟨fun vs hfirst => ?_, fun trouble hfirst => ?_⟩, fun fault hb => ?_⟩
    · exact run_pieces_of_ok s ha hw hblank hb hfirst
    · rw [run_pieces_of_error s ha hw hblank hb hfirst]
      exact ⟨hfirst, rfl, rfl, rfl⟩
    · obtain ⟨fault', hkind, hwhole⟩ := run_pieces_of_fault host s ha hw hblank hb
      rw [hwhole]
      exact ⟨⟨fault', hkind, rfl⟩, rfl, rfl, rfl⟩
  · cases h : (s.run host limits text).outcome <;> simp [load, eval, h, Except.map]

/-- The text `7`, and after it the call `(1)` or the fault `)`. -/
theorem run_in_pieces_seven :
    let s : Session Unit := ⟨.empty, ⟨4, []⟩, ()⟩
    let run := s.run Host.bare ⟨1, 3⟩
    (run ['7']).outcome = .ok [.int 7] ∧
      (run ['7', ' ', '\n', '(', '1', ')']).outcome =
        .error (.running (.notCallable (.int 1))) ∧
      ∃ fault, fault.SameKind (.unexpected ⟨0, 1, 1⟩ (some ')') Reading.exprKinds) ∧
        (run ['7', ' ', '\n', ')']).outcome = .error (.reading fault) := by
  intro s run
  have hseven : (Source.all 1 ['7']).outcome = .ok [.literal (.int 7)] := by
    rw [Source.all, show Lexeme.scan 0 ['7'] = [⟨0, .digits ['7']⟩] by decide +kernel]
    rfl
  have hcall : (Source.all 1 ['(', '1', ')']).outcome =
      .ok [.call (.literal (.int 1)) []] := by
    rw [Source.all, show Lexeme.scan 0 ['(', '1', ')'] =
      [⟨0, .lparen⟩, ⟨1, .digits ['1']⟩, ⟨2, .rparen⟩] by decide +kernel]
    rfl
  have hfault : (Source.all 1 [')']).outcome =
      .error (.unexpected ⟨0, 1, 1⟩ (some ')') Reading.exprKinds) := by
    rw [Source.all, show Lexeme.scan 0 [')'] = [⟨0, .rparen⟩] by decide +kernel]
    rfl
  have hfirst : (run ['7']).outcome = .ok [.int 7] := by
    rw [show run ['7'] = _ from run_of_exprs s hseven]
    rfl
  obtain ⟨hpieces, -⟩ := run_in_pieces Host.bare ⟨1, 3⟩ s
  have hblank : ∀ c ∈ [' ', '\n'], Text.isBlank c = true :=
    List.all_eq_true.mp (by decide)
  refine ⟨hfirst, ?_, ?_⟩
  · have hwhole := ((hpieces ['7'] [' ', '\n'] _ _ (by simp) hblank hseven).1 _ hcall).1 _ hfirst
    refine (congrArg Step.outcome hwhole).trans ?_
    rw [run_of_exprs _ hcall]
    rfl
  · exact ((hpieces ['7'] [' ', '\n'] _ _ (by simp) hblank hseven).2 _ hfault).1

end Session

end SproutLang
