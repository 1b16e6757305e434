import SproutLang.Proofs.Relocation
import SproutLang.Proofs.Session

/-!
The names that a reading accepts. `Text.letterRuns` finds the names of a text without looking at
tokens: they are the runs of letters in it, each as long as it can be, save that the `f` of a mark
`#f` is the mark's. The machine takes every token once, in the order of the text, and a token has
the name that it is; so what a reading accepts are the runs of letters from where it began to where
it stopped, whether it stopped behind an expression or at a fault.

A reading stops between tokens. Hence no run of letters is cut in two by the place where it stopped,
and the names of the whole text are those accepted and those of the text behind that place.
-/

namespace SproutLang

/-! ### Runs of letters -/

namespace Text

variable [Alphabet]

/-- The runs of letters of a text, from left to right. The `f` of a mark `#f` is in none of them. -/
def letterRuns (text : List Char) : List String :=
  match text with
  | [] => []
  | c :: rest =>
      if isAlphabetic c then
        String.ofList (c :: rest.takeWhile isAlphabetic) :: letterRuns (rest.dropWhile isAlphabetic)
      else if c = '#' ∧ rest.head? = some 'f' then letterRuns rest.tail
      else letterRuns rest
termination_by text.length
decreasing_by
  · have := (List.dropWhile_sublist (l := rest) isAlphabetic).length_le
    simp only [List.length_cons]
    omega
  · simp only [List.length_cons, List.length_tail]
    omega
  · simp

@[simp] theorem letterRuns_nil : letterRuns [] = [] := by
  rw [letterRuns]

/-- A character that is no letter and begins no mark is passed over. -/
theorem letterRuns_cons {c : Char} {rest : List Char} (hc : isAlphabetic c = false)
    (hmark : c = '#' → ∀ d ∈ rest.head?, d ≠ 'f') : letterRuns (c :: rest) = letterRuns rest := by
  have hnot : ¬ (c = '#' ∧ rest.head? = some 'f') := by
    rintro ⟨hsharp, hf⟩
    exact hmark hsharp 'f' hf rfl
  rw [letterRuns, if_neg (by simp [hc]), if_neg hnot]

/-- Characters that are no letters and no `#` are passed over. -/
theorem letterRuns_append {run : List Char} (rest : List Char)
    (hrun : ∀ c ∈ run, isAlphabetic c = false ∧ c ≠ '#') :
    letterRuns (run ++ rest) = letterRuns rest := by
  induction run with
  | nil => rfl
  | cons c run ih =>
      obtain ⟨hc, hrest⟩ := List.forall_mem_cons.mp hrun
      rw [List.cons_append, letterRuns_cons hc.1 (fun h => absurd h hc.2), ih hrest]

end Text

/-- The runs of letters of a token in front of a text that it does not go on into. -/
theorem Token.letterRuns_text [Text.Alphabet] {t : Token} {rest : List Char} (hwf : t.WellFormed)
    (hend : t.Ends rest) : Text.letterRuns (t.text ++ rest) = t.names ++ Text.letterRuns rest := by
  cases t with
  | falseMark =>
      rw [text, List.cons_append, Text.letterRuns, if_neg (ne_true_of_eq_false
        (Text.not_isAlphabetic_of_isSign (by decide))), if_pos ⟨rfl, rfl⟩]
      rfl
  | digits run =>
      refine Text.letterRuns_append rest fun c hc => ⟨?_, ?_⟩
      · exact Text.not_isAlphabetic_of_isSign (Text.isSign_of_isAsciiDigit (hwf.2 c hc))
      · rintro rfl
        exact absurd (hwf.2 '#' hc) (by decide)
  | name run =>
      obtain ⟨hne, hall⟩ := hwf
      obtain ⟨c, cs, rfl⟩ := List.exists_cons_of_ne_nil hne
      obtain ⟨hc, hcs⟩ := List.forall_mem_cons.mp hall
      obtain ⟨htake, hdrop⟩ := takeWhile_append_of_all hcs hend
      rw [text, List.cons_append, Text.letterRuns, if_pos hc, htake, hdrop]
      rfl
  | unknown c =>
      refine Text.letterRuns_cons hwf.2.2.1 ?_
      rintro rfl d hd rfl
      simpa [absorbs] using hend 'f' hd
  | _ => exact Text.letterRuns_append rest (List.forall_mem_singleton.mpr
      ⟨Text.not_isAlphabetic_of_isSign (by decide), by decide⟩)

/-- The names among the tokens of a text are its runs of letters. -/
theorem flatMap_names_tokens [Text.Alphabet] (text : List Char) :
    (tokens text).flatMap Token.names = Text.letterRuns text := by
  induction text using text_induction with
  | nil => simp
  | blank c rest hb ih =>
      have hsharp : c ≠ '#' := by
        rintro rfl
        rw [Text.not_isBlank_of_isSign (by decide)] at hb
        contradiction
      rw [tokens_blank hb, ih, Text.letterRuns_cons (Text.not_isAlphabetic_of_isBlank hb)
        (fun h => absurd h hsharp)]
  | token t rest hwf hend ih =>
      rw [tokens_token hwf hend, List.flatMap_cons, ih, Token.letterRuns_text hwf hend]

example : Text.letterRuns ['(', '=', ' ', 'a', 'b', ' ', '#', 'f', 'c'] = ["ab", "c"] := by
  decide +kernel

theorem Reading.namesOf_scan [Text.Alphabet] (pos : Nat) (text : List Char) :
    namesOf (Lexeme.scan pos text) = Text.letterRuns text := by
  rw [← flatMap_names_tokens, ← map_token_scan pos, List.flatMap_map]
  rfl

/-! ### Where a reading stops -/

namespace Reading

/-- The reading has taken all lexemes but `rest`; unless it ran out of digits or room, that is what
it reports. -/
def StopsBefore (rest : List Lexeme) : Except Halt (Expr × List Lexeme) → Prop
  | .ok (_, rest') => rest' = rest
  | .error (.unexpected _ rest') => rest' = rest
  | .error (.outOfRange pos _) => ∃ l ∈ rest.head?, l.start = pos
  | .error _ => True

/-- A reading takes some of its lexemes, accepts their names, and stops before the others. -/
theorem exists_stopsBefore (room : Nat) (s : State) (ls : List Lexeme) :
    ∃ taken rest, ls = taken ++ rest ∧ (one room s ls).names = namesOf taken ∧
      StopsBefore rest (one room s ls).outcome := by
  induction ls generalizing s with
  | nil => exact ⟨[], [], rfl, rfl, rfl⟩
  | cons l ls ih =>
      rw [one]
      cases hstep : step room s l.token with
      | go s' =>
          obtain ⟨taken, rest, rfl, hnames, hstops⟩ := ih s'
          refine ⟨l :: taken, rest, rfl, ?_, hstops⟩
          rw [namesOf_cons, ← hnames]
          rfl
      | done e => exact ⟨[l], ls, rfl, by simp, rfl⟩
      | unexpected => exact ⟨[], l :: ls, rfl, rfl, rfl⟩
      | outOfRange run => exact ⟨[], l :: ls, rfl, rfl, l, rfl, rfl⟩
      | tooManyDigits count => exact ⟨[], l :: ls, rfl, rfl, trivial⟩
      | tooDeep => exact ⟨[], l :: ls, rfl, rfl, trivial⟩

end Reading

/-- The names are the runs of letters among the first `n` characters of the text, and none of these
runs goes on behind them. -/
structure Text.RunsBefore [Text.Alphabet] (text : List Char) (n : Nat) (names : List String) :
    Prop where
  before : names = letterRuns (text.take n)
  behind : letterRuns text = names ++ letterRuns (text.drop n)

namespace Cursor

variable [Text.Alphabet] {room : Nat} {c : Cursor}

/-- The names of the first lexemes are the runs of letters before the first of the others. -/
theorem runsBefore_position {taken rest : List Lexeme} (h : c.lexemes = taken ++ rest) :
    Text.RunsBefore c.remainder (Reading.position (max c.pos c.source.length) rest - c.pos)
      (Reading.namesOf taken) := by
  obtain ⟨a, b, htext, hafter, hnil, hstart, hcut⟩ := Lexeme.scan_cut h
  have hremainder : c.remainder = a ++ b := htext
  have hlength : Reading.position (max c.pos c.source.length) rest - c.pos = a.length := by
    cases rest with
    | nil =>
        have hlen := congrArg List.length hremainder
        rw [hnil rfl, List.append_nil, remainder, List.length_drop] at hlen
        rw [Reading.position]
        omega
    | cons l rest =>
        rw [Reading.position, hstart l rfl]
        omega
  -- Cut off behind `a`, the text has the lexemes that it has with a blank there.
  have hbefore : Lexeme.scan c.pos a = taken := by
    have hblank : Text.isBlank ' ' = true := Text.isBlank_space
    have hscan := hcut ' ' [] hblank
    rw [Lexeme.scan_append (break_space []), Lexeme.scan_blank hblank, Lexeme.scan_nil] at hscan
    simpa using hscan
  have htaken : Reading.namesOf taken = Text.letterRuns a := by
    rw [← hbefore, Reading.namesOf_scan]
  have hwhole : Text.letterRuns c.remainder = Reading.namesOf c.lexemes :=
    (Reading.namesOf_scan c.pos c.remainder).symm
  rw [hlength]
  constructor
  · rw [hremainder, List.take_left, htaken]
  · rw [hwhole, h, Reading.namesOf_append, hremainder, List.drop_left, ← hafter,
      Reading.namesOf_scan]

theorem names_read (room : Nat) (c : Cursor) :
    (c.read room).1.names = (Reading.one room .start c.lexemes).names := by
  cases hout : (Reading.one room .start c.lexemes).outcome with
  | ok r => rw [read_of_ok hout]
  | error halt => rw [read_of_error hout]

/-- The names accepted on the way to an expression are the names in it, in order. -/
theorem keys_of_read {e : Expr} (h : (c.read room).1.outcome = .ok e) :
    (c.read room).1.names.map Key.ofName = e.keys := by
  obtain ⟨rest, hout, -⟩ := exists_rest_of_read h
  have hended := Reading.one_ended room .start c.lexemes
  rw [hout] at hended
  obtain ⟨taken, hsplit, hpath⟩ := hended
  have hone := Reading.one_of_path_done hpath rest
  obtain ⟨t, hyield, rfl, -, -⟩ := Reading.path_done_iff.mp hpath
  rw [names_read, hsplit, hone, t.keys_expr, hyield, List.flatMap_map]
  rfl

/-- The names that reading an expression accepts are the runs of letters from the cursor to where
the reading stops, each once and in order: the end of the expression, whose names they are, or the
site of the fault, if it has one. -/
theorem read_names_in_order (room : Nat) (c : Cursor) :
    let names := (c.read room).1.names
    let outcome := (c.read room).1.outcome
    (∃ n, Text.RunsBefore c.remainder n names) ∧
    (∀ e, outcome = .ok e → names.map Key.ofName = e.keys ∧
      Text.RunsBefore c.remainder ((c.read room).2.pos - c.pos) names) ∧
    (∀ site found expected, outcome = .error (.unexpected site found expected) →
      Text.RunsBefore c.remainder (site.pos - c.pos) names) ∧
    (∀ site run, outcome = .error (.outOfRange site run) →
      Text.RunsBefore c.remainder (site.pos - c.pos) names) := by
  intro names outcome
  obtain ⟨taken, rest, hsplit, hnames, hstops⟩ := Reading.exists_stopsBefore room .start c.lexemes
  have hruns := runsBefore_position hsplit
  rw [← hnames, ← names_read] at hruns
  refine ⟨⟨_, hruns⟩, fun e he => ⟨keys_of_read he, ?_⟩, fun site found expected he => ?_,
    fun site run he => ?_⟩
  · obtain ⟨rest', hout, hmoves⟩ := exists_rest_of_read he
    rw [hout] at hstops
    obtain rfl : rest' = rest := hstops
    have hle : c.pos ≤ c.source.length := by
      refine Nat.le_of_not_lt fun hlt => ?_
      simp only [outcome, read_of_length_lt room hlt] at he
      contradiction
    rw [Nat.max_eq_right hle] at hruns
    rw [hmoves]
    exact hruns
  · obtain ⟨halt, hout, hfault, -⟩ := exists_halt_of_read he
    rw [hout] at hstops
    cases halt with
    | unexpected state rest' =>
        obtain rfl : rest' = rest := hstops
        obtain ⟨rfl, -, -⟩ := ReadFault.unexpected.inj hfault
        exact hruns
    | _ => contradiction
  · obtain ⟨halt, hout, hfault, -⟩ := exists_halt_of_read he
    rw [hout] at hstops
    cases halt with
    | outOfRange pos run' =>
        obtain ⟨rfl, -⟩ := ReadFault.outOfRange.inj hfault
        obtain ⟨l, hl, rfl⟩ := hstops
        obtain ⟨rest, rfl⟩ := List.head?_eq_some_iff.mp hl
        exact hruns
    | _ => contradiction

end Cursor

end SproutLang
