import SproutLang.Token

/-!
Texts and their tokens. `Splits text ts` says what it is to cut a text completely into tokens, each
as long as possible, with blanks between them; it mentions no order in which the kinds of token are
tried and no positions. The scanner does exactly this, and goes on doing it where a text has
characters that no token of the language starts with.

The step that everything rests on is that the kinds of token exclude each other by their first
character. It holds because the classes of characters are disjoint.
-/

namespace SproutLang

/-! ### Runs -/

namespace Token

theorem takeWhile_append_of_all {p : Char → Bool} {run rest : List Char}
    (hall : ∀ c ∈ run, p c = true) (hend : ∀ c ∈ rest.head?, p c = false) :
    (run ++ rest).takeWhile p = run ∧ (run ++ rest).dropWhile p = rest := by
  rw [List.takeWhile_append_of_pos hall, List.dropWhile_append_of_pos hall]
  cases rest with
  | nil => simp
  | cons d ds =>
      have hd : p d = false := hend d (by simp)
      simp [hd]

theorem head_dropWhile (p : Char → Bool) (rest : List Char) :
    ∀ c ∈ (rest.dropWhile p).head?, p c = false := by
  intro c hc
  have h := List.head?_dropWhile_not p rest
  rw [Option.mem_def.mp hc] at h
  exact h

theorem all_cons_takeWhile {p : Char → Bool} {c : Char} (hc : p c = true) (rest : List Char) :
    ∀ d ∈ c :: rest.takeWhile p, p d = true := by
  rw [List.forall_mem_cons]
  exact ⟨hc, List.all_eq_true.mp List.all_takeWhile⟩

end Token

/-! ### Classes of characters -/

variable [Text.Alphabet]

namespace Text

omit [Alphabet] in
theorem isSign_of_isAsciiDigit {c : Char} (h : isAsciiDigit c = true) :
    isSign c = true := by
  simp only [isAsciiDigit, Bool.and_eq_true, decide_eq_true_eq] at h
  simp only [isSign, signRanges, Ranges.covers]
  grind

theorem not_isBlank_of_isAlphabetic {c : Char} (h : isAlphabetic c = true) : isBlank c = false := by
  cases hb : isBlank c with
  | false => rfl
  | true => rw [not_isAlphabetic_of_isBlank hb] at h; simp at h

theorem not_isAsciiDigit_of_isAlphabetic {c : Char} (h : isAlphabetic c = true) :
    isAsciiDigit c = false := by
  cases hd : isAsciiDigit c with
  | false => rfl
  | true => rw [not_isAlphabetic_of_isSign (isSign_of_isAsciiDigit hd)] at h; simp at h

end Text

namespace Token

/-! ### The shape of a token -/

/-- Would `c`, right after the token, belong to it? -/
def absorbs : Token → Char → Bool
  | .digits _, c => Text.isAsciiDigit c
  | .name _, c => Text.isAlphabetic c
  | .unknown d, c => d == '#' && c == 'f'
  | _, _ => false

/-- The token is as long as it can be in front of `rest`. -/
def Ends (t : Token) (rest : List Char) : Prop :=
  ∀ c ∈ rest.head?, t.absorbs c = false

/-- Runs are not empty and of one class; an unknown character starts no token. -/
def WellFormed : Token → Prop
  | .digits run => run ≠ [] ∧ ∀ c ∈ run, Text.isAsciiDigit c = true
  | .name run => run ≠ [] ∧ ∀ c ∈ run, Text.isAlphabetic c = true
  | .unknown c =>
      Text.isBlank c = false ∧ Text.isAsciiDigit c = false ∧ Text.isAlphabetic c = false ∧
        c ∉ ['(', ')', '=', '\\']
  | _ => True

def IsKnown (t : Token) : Prop :=
  t.kind?.isSome = true

@[simp] theorem ends_nil (t : Token) : t.Ends [] := by
  simp [Ends]

@[simp] theorem ends_cons {t : Token} {c : Char} {rest : List Char} :
    t.Ends (c :: rest) ↔ t.absorbs c = false := by
  simp [Ends]

theorem absorbs_of_isBlank (t : Token) {c : Char} (h : Text.isBlank c = true) :
    t.absorbs c = false := by
  cases t with
  | digits run =>
      cases hd : Text.isAsciiDigit c with
      | false => exact hd
      | true => rw [Text.not_isBlank_of_isSign (Text.isSign_of_isAsciiDigit hd)] at h; simp at h
  | name run => exact Text.not_isAlphabetic_of_isBlank h
  | unknown d =>
      have hf : c ≠ 'f' := by
        rintro rfl
        have hletter : Text.isAlphabetic 'f' = true :=
          Text.isAlphabetic_of_lower (by decide) (by decide)
        simp [Text.not_isBlank_of_isAlphabetic hletter] at h
      simp [absorbs, hf]
  | _ => rfl

theorem WellFormed.text_eq_cons {t : Token} (h : t.WellFormed) :
    ∃ c cs, t.text = c :: cs ∧ Text.isBlank c = false := by
  cases t with
  | digits run =>
      obtain ⟨hne, hall⟩ := h
      cases run with
      | nil => exact absurd rfl hne
      | cons c cs =>
          exact ⟨c, cs, rfl,
            Text.not_isBlank_of_isSign (Text.isSign_of_isAsciiDigit (hall c (by simp)))⟩
  | name run =>
      obtain ⟨hne, hall⟩ := h
      cases run with
      | nil => exact absurd rfl hne
      | cons c cs => exact ⟨c, cs, rfl, Text.not_isBlank_of_isAlphabetic (hall c (by simp))⟩
  | unknown c => exact ⟨c, [], rfl, h.1⟩
  | _ => exact ⟨_, _, rfl, Text.not_isBlank_of_isSign (by decide)⟩

/-! ### The first token of a text -/

theorem single_spec {c : Char} {rest : List Char} (hb : Text.isBlank c = false)
    (hd : Text.isAsciiDigit c = false) (ha : Text.isAlphabetic c = false)
    (hf : c = '#' → ∀ after, rest ≠ 'f' :: after) :
    c :: rest = (single c).text ++ rest ∧ (single c).WellFormed ∧ (single c).Ends rest := by
  unfold single
  split
  · subst c; exact ⟨rfl, trivial, fun _ _ => rfl⟩
  split
  · subst c; exact ⟨rfl, trivial, fun _ _ => rfl⟩
  split
  · subst c; exact ⟨rfl, trivial, fun _ _ => rfl⟩
  split
  · subst c; exact ⟨rfl, trivial, fun _ _ => rfl⟩
  · refine ⟨rfl, ⟨hb, hd, ha, by simp [*]⟩, ?_⟩
    cases rest with
    | nil => simp
    | cons d ds =>
        rw [ends_cons]
        by_cases hc : c = '#'
        · have hne : d ≠ 'f' := by
            rintro rfl
            exact hf hc ds rfl
          simp [absorbs, hne]
        · simp [absorbs, hc]

/-- The first token starts the text and is as long as it can be. -/
theorem first_spec {c : Char} (rest : List Char) (hb : Text.isBlank c = false) :
    c :: rest = (first c rest).1.text ++ (first c rest).2 ∧ (first c rest).1.WellFormed ∧
      (first c rest).1.Ends (first c rest).2 := by
  unfold first
  split
  · rename_i hd
    refine ⟨?_, ⟨by simp, all_cons_takeWhile hd rest⟩, head_dropWhile _ rest⟩
    simp [text]
  split
  · rename_i ha
    refine ⟨?_, ⟨by simp, all_cons_takeWhile ha rest⟩, head_dropWhile _ rest⟩
    simp [text]
  rename_i hd ha
  have hd : Text.isAsciiDigit c = false := by simpa using hd
  have ha : Text.isAlphabetic c = false := by simpa using ha
  split
  · rename_i hc
    subst c
    -- A `#` makes a token with the `f` after it; without one it is an unknown character.
    split
    · exact ⟨rfl, trivial, fun _ _ => rfl⟩
    · rename_i hf
      exact single_spec hb hd ha fun _ after h => hf after h
  · rename_i hc
    exact single_spec hb hd ha fun h => absurd h hc

/-- Any token that starts the text and is as long as it can be is the first one. -/
theorem first_eq {t : Token} {c : Char} {cs rest : List Char} (ht : t.WellFormed)
    (htext : t.text = c :: cs) (hend : t.Ends rest) : first c (cs ++ rest) = (t, rest) := by
  cases t with
  | digits run =>
      obtain ⟨-, hall⟩ := ht
      obtain rfl : run = c :: cs := htext
      obtain ⟨htake, hdrop⟩ := takeWhile_append_of_all
        (fun d hd => hall d (List.mem_cons_of_mem _ hd)) hend
      unfold first
      rw [if_pos (hall c (by simp)), htake, hdrop]
  | name run =>
      obtain ⟨-, hall⟩ := ht
      obtain rfl : run = c :: cs := htext
      obtain ⟨htake, hdrop⟩ := takeWhile_append_of_all
        (fun d hd => hall d (List.mem_cons_of_mem _ hd)) hend
      have ha := hall c (by simp)
      unfold first
      rw [if_neg (by simp [Text.not_isAsciiDigit_of_isAlphabetic ha]), if_pos ha, htake, hdrop]
  | unknown d =>
      obtain ⟨-, hd, ha, hc⟩ := ht
      obtain ⟨rfl, rfl⟩ : d = c ∧ [] = cs := by simpa [text] using htext
      have hsingle : single d = .unknown d := by
        simp only [List.mem_cons, not_or] at hc
        simp [single, hc]
      unfold first
      rw [if_neg (by simp [hd]), if_neg (by simp [ha]), hsingle]
      split
      · split
        · simp_all [absorbs]
        · rfl
      · rfl
  | falseMark =>
      obtain ⟨rfl, rfl⟩ : '#' = c ∧ ['f'] = cs := by simpa [text] using htext
      unfold first
      rw [if_neg (by decide), if_neg (ne_true_of_eq_false
        (Text.not_isAlphabetic_of_isSign (by decide)))]
      rfl
  | _ =>
      simp only [text, List.cons.injEq] at htext
      obtain ⟨rfl, rfl⟩ := htext
      unfold first
      rw [if_neg (by decide), if_neg (ne_true_of_eq_false
        (Text.not_isAlphabetic_of_isSign (by decide)))]
      rfl

end Token

/-! ### Scanning -/

/-- Induction on texts: every text is made up from its end by putting blanks and tokens in front. -/
@[elab_as_elim] theorem text_induction {motive : List Char → Prop} (nil : motive [])
    (blank : ∀ c rest, Text.isBlank c = true → motive rest → motive (c :: rest))
    (token : ∀ (t : Token) rest, t.WellFormed → t.Ends rest → motive rest →
      motive (t.text ++ rest)) (text : List Char) : motive text := by
  induction hn : text.length using Nat.strongRecOn generalizing text with
  | ind n ih =>
      cases text with
      | nil => exact nil
      | cons c rest =>
          cases hb : Text.isBlank c with
          | true =>
              have hlt : rest.length < n := by
                rw [← hn]
                simp
              exact blank c rest hb (ih _ hlt rest rfl)
          | false =>
              obtain ⟨htext, hwf, hend⟩ := Token.first_spec rest hb
              have hlt : (Token.first c rest).2.length < n := by
                have := Token.length_first_le c rest
                rw [← hn, List.length_cons]
                omega
              rw [htext]
              exact token _ _ hwf hend (ih _ hlt _ rfl)

namespace Lexeme

@[simp] theorem scan_nil (pos : Nat) : scan pos [] = [] := by
  rw [scan]

theorem scan_blank {c : Char} (hb : Text.isBlank c = true) (pos : Nat) (rest : List Char) :
    scan pos (c :: rest) = scan (pos + 1) rest := by
  rw [scan, if_pos hb]

theorem scan_token {t : Token} {rest : List Char} (hwf : t.WellFormed) (hend : t.Ends rest)
    (pos : Nat) : scan pos (t.text ++ rest) = ⟨pos, t⟩ :: scan (pos + t.text.length) rest := by
  obtain ⟨c, cs, htext, hb⟩ := hwf.text_eq_cons
  have hfirst := Token.first_eq hwf htext hend
  rw [htext, List.cons_append, scan, if_neg (by simp [hb]), hfirst, ← htext]

def shift (d : Nat) (l : Lexeme) : Lexeme :=
  { l with start := l.start + d }

/-- A text further on has the same lexemes further on. -/
theorem scan_add (pos d : Nat) (text : List Char) :
    scan (pos + d) text = (scan pos text).map (shift d) := by
  induction text using text_induction generalizing pos with
  | nil => simp
  | blank c rest hb ih => rw [scan_blank hb, scan_blank hb, Nat.add_right_comm, ih]
  | token t rest hwf hend ih =>
      rw [scan_token hwf hend, scan_token hwf hend, List.map_cons, Nat.add_right_comm, ih, shift]

end Lexeme

def tokens (text : List Char) : List Token :=
  (Lexeme.scan 0 text).map Lexeme.token

theorem map_token_scan (pos : Nat) (text : List Char) :
    (Lexeme.scan pos text).map Lexeme.token = tokens text := by
  rw [← Nat.zero_add pos, Lexeme.scan_add, List.map_map]
  rfl

@[simp] theorem tokens_nil : tokens [] = [] := by
  simp [tokens]

theorem tokens_blank {c : Char} (hb : Text.isBlank c = true) (rest : List Char) :
    tokens (c :: rest) = tokens rest := by
  rw [tokens, Lexeme.scan_blank hb, map_token_scan]

theorem tokens_token {t : Token} {rest : List Char} (hwf : t.WellFormed) (hend : t.Ends rest) :
    tokens (t.text ++ rest) = t :: tokens rest := by
  rw [tokens, Lexeme.scan_token hwf hend, List.map_cons, map_token_scan]

theorem wellFormed_of_mem_tokens {text : List Char} {t : Token} (h : t ∈ tokens text) :
    t.WellFormed := by
  induction text using text_induction with
  | nil => simp at h
  | blank c rest hb ih =>
      rw [tokens_blank hb] at h
      exact ih h
  | token u rest hwf hend ih =>
      rw [tokens_token hwf hend] at h
      rcases List.mem_cons.mp h with rfl | h
      · exact hwf
      · exact ih h

theorem tokens_ne_nil {text : List Char} {c : Char} (hc : c ∈ text)
    (hb : Text.isBlank c = false) : tokens text ≠ [] := by
  induction text using text_induction with
  | nil => simp at hc
  | blank d rest hd ih =>
      rw [tokens_blank hd]
      rcases List.mem_cons.mp hc with rfl | hc
      · rw [hd] at hb
        contradiction
      · exact ih hc
  | token t rest hwf hend _ =>
      rw [tokens_token hwf hend]
      exact List.cons_ne_nil _ _

/-! ### Splitting a text into tokens -/

/-- `Splits text ts`: between blanks, the text consists of the tokens `ts` of the language, each of
which could not be longer. -/
inductive Splits : List Char → List Token → Prop
  | nil : Splits [] []
  | blank {c : Char} {rest : List Char} {ts : List Token} :
      Text.isBlank c = true → Splits rest ts → Splits (c :: rest) ts
  | token {t : Token} {rest : List Char} {ts : List Token} :
      t.IsKnown → t.WellFormed → t.Ends rest → Splits rest ts → Splits (t.text ++ rest) (t :: ts)

theorem Splits.tokens_eq {text : List Char} {ts : List Token} (h : Splits text ts) :
    tokens text = ts := by
  induction h with
  | nil => exact tokens_nil
  | blank hb _ ih => rw [tokens_blank hb, ih]
  | token _ hwf hend _ ih => rw [tokens_token hwf hend, ih]

theorem splits_tokens {text : List Char} (h : ∀ t ∈ tokens text, t.IsKnown) :
    Splits text (tokens text) := by
  induction text using text_induction with
  | nil =>
      rw [tokens_nil]
      exact .nil
  | blank c rest hb ih =>
      rw [tokens_blank hb] at h ⊢
      exact .blank hb (ih h)
  | token t rest hwf hend ih =>
      rw [tokens_token hwf hend] at h ⊢
      exact .token (h t (by simp)) hwf hend (ih fun u hu => h u (List.mem_cons_of_mem _ hu))

theorem Splits.isKnown {text : List Char} {ts : List Token} (h : Splits text ts) :
    ∀ t ∈ ts, t.IsKnown := by
  induction h with
  | nil => simp
  | blank _ _ ih => exact ih
  | token hk _ _ _ ih =>
      intro u hu
      rcases List.mem_cons.mp hu with rfl | hu
      · exact hk
      · exact ih u hu

/-- A text splits in one way, if at all: into the tokens that the scanner finds. -/
theorem splits_iff {text : List Char} {ts : List Token} :
    Splits text ts ↔ tokens text = ts ∧ ∀ t ∈ ts, t.IsKnown := by
  constructor
  · intro h
    exact ⟨h.tokens_eq, h.isKnown⟩
  · rintro ⟨rfl, h⟩
    exact splits_tokens h

/-! ### Cutting a text in front of a lexeme -/

namespace Lexeme

/-- In front of any of its lexemes, or at its end, a text can be cut in two: what is scanned before
the cut depends on nothing after it, if a blank is put at the cut. -/
theorem scan_cut {pos : Nat} {text : List Char} {before after : List Lexeme}
    (h : scan pos text = before ++ after) :
    ∃ a b, text = a ++ b ∧ scan (pos + a.length) b = after ∧ (after = [] → b = []) ∧
      (∀ l ∈ after.head?, l.start = pos + a.length) ∧
      ∀ c more, Text.isBlank c = true →
        scan pos (a ++ c :: more) = before ++ scan (pos + a.length + 1) more := by
  induction text using text_induction generalizing pos before with
  | nil =>
      obtain ⟨rfl, rfl⟩ : before = [] ∧ after = [] := by simpa using h.symm
      exact ⟨[], [], rfl, by simp, fun _ => rfl, by simp, fun c more hc => scan_blank hc _ _⟩
  | blank c rest hb ih =>
      rw [scan_blank hb] at h
      obtain ⟨a, b, rfl, hafter, hnil, hstart, hcut⟩ := ih h
      have hpos : pos + (c :: a).length = pos + 1 + a.length := by
        rw [List.length_cons]
        omega
      refine ⟨c :: a, b, rfl, ?_, hnil, ?_, ?_⟩
      · rw [hpos, hafter]
      · rw [hpos]
        exact hstart
      · intro d more hd
        rw [hpos, List.cons_append, scan_blank hb, hcut d more hd]
  | token t rest hwf hend ih =>
      cases before with
      | nil =>
          refine ⟨[], t.text ++ rest, rfl, by simpa using h, ?_, ?_,
            fun d more hd => scan_blank hd _ _⟩
          · rintro rfl
            rw [scan_token hwf hend] at h
            simp at h
          · intro l hl
            rw [scan_token hwf hend, List.nil_append] at h
            obtain rfl : ⟨pos, t⟩ = l := by simpa [← h] using hl
            rfl
      | cons l before =>
          rw [scan_token hwf hend, List.cons_append, List.cons.injEq] at h
          obtain ⟨rfl, h⟩ := h
          obtain ⟨a, b, rfl, hafter, hnil, hstart, hcut⟩ := ih h
          have hpos : pos + (t.text ++ a).length = pos + t.text.length + a.length := by
            rw [List.length_append]
            omega
          refine ⟨t.text ++ a, b, by simp, ?_, hnil, ?_, ?_⟩
          · rw [hpos, hafter]
          · rw [hpos]
            exact hstart
          · intro d more hd
            -- The token ended in front of `a ++ b`, and a blank does not continue it either.
            have hend' : t.Ends (a ++ d :: more) := by
              cases a with
              | nil => exact Token.ends_cons.mpr (t.absorbs_of_isBlank hd)
              | cons e es => exact Token.ends_cons.mpr (Token.ends_cons.mp hend)
            rw [hpos, List.append_assoc, scan_token hwf hend', hcut d more hd, List.cons_append]

end Lexeme

end SproutLang
