import SproutLang.Proofs.Relocation

/-!
Lines of a text, and what a site says about them. A site is `Exact` when its line is a line of the
text and its position is reached by going over the lines before it, each with the line feed behind
it, and then to its column. The site of a position is made from two searches, for the number of line
feeds before the position and for the last of them; it is exact, and up to the end of the text no
other site with that position is. So positions and pairs of line and column determine each other,
in the same order.
-/

namespace SproutLang

namespace Text

/-! ### Lines -/

def lines (text : List Char) : List (List Char) :=
  text.splitOn '\n'

def span : List (List Char) → Nat
  | [] => 0
  | line :: rest => line.length + 1 + span rest

theorem lines_newline (text : List Char) : lines ('\n' :: text) = [] :: lines text := by
  rw [lines, List.splitOn_cons_eq_if_modifyHead, if_pos (beq_self_eq_true _)]
  rfl

/-- A character that ends no line stands on the first one. -/
theorem lines_cons {c : Char} (hc : c ≠ '\n') {text line : List Char} {rest : List (List Char)}
    (h : lines text = line :: rest) : lines (c :: text) = (c :: line) :: rest := by
  rw [lines] at h ⊢
  rw [List.splitOn_cons_eq_if_modifyHead, if_neg (by simpa using hc), h, List.modifyHead_cons]

theorem exists_lines_eq_cons (text : List Char) : ∃ line rest, lines text = line :: rest :=
  List.exists_cons_of_ne_nil (List.splitOn_ne_nil '\n' text)

theorem span_append (ls ms : List (List Char)) : span (ls ++ ms) = span ls + span ms := by
  induction ls with
  | nil => simp [span]
  | cons l ls ih =>
      rw [List.cons_append, span, span, ih]
      omega

/-- The lines make up the text, but for a line feed behind the last. -/
theorem span_lines (text : List Char) : span (lines text) = text.length + 1 := by
  induction text with
  | nil => simp [lines, span]
  | cons c text ih =>
      obtain ⟨line, rest, hlines⟩ := exists_lines_eq_cons text
      rw [hlines, span] at ih
      by_cases hc : c = '\n'
      · subst hc
        rw [lines_newline, hlines, span, span, List.length_nil, List.length_cons]
        omega
      · rw [lines_cons hc hlines, span, List.length_cons, List.length_cons]
        omega

namespace Site

variable {source : List Char} {st st' : Site}

/-! ### Exact sites -/

/-- The position is `col - 1` characters into the line, behind the lines before it; inside the text
that is on the line or at its end. -/
structure Exact (source : List Char) (st : Site) : Prop where
  one_le_line : 1 ≤ st.line
  line_le : st.line ≤ (lines source).length
  one_le_col : 1 ≤ st.col
  pos_eq : span ((lines source).take (st.line - 1)) + (st.col - 1) = st.pos
  col_le : st.pos ≤ source.length →
    ∀ line ∈ (lines source)[st.line - 1]?, st.col - 1 ≤ line.length

/-- The same with the line of the site in hand, and the lines before and after it. -/
structure On (source : List Char) (before : List (List Char)) (line : List Char)
    (after : List (List Char)) (st : Site) : Prop where
  lines_eq : lines source = before ++ line :: after
  line_eq : st.line = before.length + 1
  pos_eq : st.pos + 1 = span before + st.col
  one_le_col : 1 ≤ st.col
  col_le : st.pos ≤ source.length → st.col ≤ line.length + 1

theorem On.exact {before after : List (List Char)} {line : List Char}
    (h : st.On source before line after) : st.Exact source := by
  obtain ⟨hlines, hline, hpos, hcol, hle⟩ := h
  have hindex : st.line - 1 = before.length := by omega
  refine ⟨by omega, ?_, hcol, ?_, fun hin l hl => ?_⟩
  · rw [hlines, hline, List.length_append, List.length_cons]
    omega
  · rw [hlines, hindex, List.take_left]
    omega
  · rw [hlines, hindex, List.getElem?_append_right (Nat.le_refl _), Nat.sub_self] at hl
    obtain rfl : line = l := by simpa using hl
    have := hle hin
    omega

theorem Exact.exists_on (h : st.Exact source) :
    ∃ before line after, st.On source before line after := by
  obtain ⟨hone, hline, hcol, hpos, hle⟩ := h
  have hlt : st.line - 1 < (lines source).length := by omega
  refine ⟨(lines source).take (st.line - 1), (lines source)[st.line - 1],
    (lines source).drop (st.line - 1 + 1), ?_, ?_, by omega, hcol, fun hin => ?_⟩
  · rw [← List.drop_eq_getElem_cons hlt, List.take_append_drop]
  · rw [List.length_take]
    omega
  · have := hle hin _ (List.getElem?_eq_getElem hlt)
    omega

/-- A line feed in front of the text is the end of an empty line. -/
theorem On.newline {before after : List (List Char)} {line : List Char}
    (h : st.On source before line after) :
    (st.behind ['\n']).On ('\n' :: source) ([] :: before) line after := by
  obtain ⟨hlines, hline, hpos, hcol, hle⟩ := h
  have hpos' : (st.behind ['\n']).pos = st.pos + 1 := rfl
  have hline' : (st.behind ['\n']).line = st.line + 1 := rfl
  have hcol' : (st.behind ['\n']).col = st.col := by simp [behind, lastLineLength]
  refine ⟨?_, ?_, ?_, by omega, fun hin => ?_⟩
  · rw [lines_newline, hlines]
    rfl
  · rw [List.length_cons]
    omega
  · rw [span, List.length_nil]
    omega
  · rw [List.length_cons] at hin
    have := hle (by omega)
    omega

/-- Any other character in front of the text is a character more on the first line, whose columns
move with it. -/
theorem On.exists_cons {before after : List (List Char)} {line : List Char} {c : Char}
    (h : st.On source before line after) (hc : c ≠ '\n') :
    ∃ before' line', (st.behind [c]).On (c :: source) before' line' after := by
  obtain ⟨hlines, hline, hpos, hcol, hle⟩ := h
  have hmem : '\n' ∉ [c] := by simpa using hc.symm
  have hpos' : (st.behind [c]).pos = st.pos + 1 := rfl
  have hline' : (st.behind [c]).line = st.line := by
    rw [behind, List.count_eq_zero_of_not_mem hmem, Nat.add_zero]
  have hcol' : (st.behind [c]).col = if 1 < st.line then st.col else st.col + 1 := by
    rw [behind, lastLineLength_of_not_mem hmem]
    rfl
  cases before with
  | nil =>
      rw [List.length_nil] at hline
      rw [span] at hpos
      rw [if_neg (by omega)] at hcol'
      refine ⟨[], c :: line, lines_cons hc hlines, by rw [List.length_nil]; omega, ?_, by omega,
        fun hin => ?_⟩
      · rw [span]
        omega
      · rw [List.length_cons] at hin ⊢
        have := hle (by omega)
        omega
  | cons first before =>
      rw [List.length_cons] at hline
      rw [span] at hpos
      rw [if_pos (by omega)] at hcol'
      refine ⟨(c :: first) :: before, line, lines_cons hc hlines, by rw [List.length_cons]; omega,
        ?_, by omega, fun hin => ?_⟩
      · rw [span, List.length_cons]
        omega
      · rw [List.length_cons] at hin
        have := hle (by omega)
        omega

/-- The site of a position is on a line of the text, past its end on the last. -/
theorem exists_on_of (source : List Char) (pos : Nat) :
    ∃ before line after, (of source pos).On source before line after ∧
      (source.length < pos → after = []) := by
  induction source generalizing pos with
  | nil =>
      refine ⟨[], [], [], ⟨rfl, ?_, ?_, ?_, ?_⟩, fun _ => rfl⟩ <;> simp [of, lastLineLength, span]
  | cons c source ih =>
      cases pos with
      | zero =>
          obtain ⟨line, rest, hlines⟩ := exists_lines_eq_cons (c :: source)
          refine ⟨[], line, rest, ⟨hlines, ?_, ?_, ?_, ?_⟩, ?_⟩ <;>
            simp [of, lastLineLength, span]
      | succ pos =>
          obtain ⟨before, line, after, hon, hpast⟩ := ih pos
          have hbehind : of (c :: source) (pos + 1) = (of source pos).behind [c] :=
            of_append [c] source pos
          rw [hbehind, List.length_cons, Nat.add_lt_add_iff_right]
          by_cases hc : c = '\n'
          · subst hc
            exact ⟨[] :: before, line, after, hon.newline, hpast⟩
          · obtain ⟨before', line', hon'⟩ := hon.exists_cons hc
            exact ⟨before', line', after, hon', hpast⟩

theorem exact_of (source : List Char) (pos : Nat) : (of source pos).Exact source := by
  obtain ⟨before, line, after, hon, -⟩ := exists_on_of source pos
  exact hon.exact

theorem line_of_length_lt {pos : Nat} (h : source.length < pos) :
    (of source pos).line = (lines source).length := by
  obtain ⟨before, line, after, hon, hpast⟩ := exists_on_of source pos
  rw [hon.line_eq, hon.lines_eq, hpast h, List.length_append]
  rfl

/-! ### Lines and columns in order -/

def Precedes (st st' : Site) : Prop :=
  st.line < st'.line ∨ st.line = st'.line ∧ st.col < st'.col

theorem span_take_le {i j : Nat} (ls : List (List Char)) (h : i ≤ j) :
    span (ls.take i) ≤ span (ls.take j) := by
  obtain ⟨ms, hms⟩ := List.take_prefix_take_left (l := ls) h
  rw [← hms, span_append]
  omega

/-- What is earlier by line and column is earlier in the text. -/
theorem Exact.pos_lt (h : st.Exact source) (h' : st'.Exact source) (hin : st.pos ≤ source.length)
    (hprec : st.Precedes st') : st.pos < st'.pos := by
  obtain ⟨before, line, after, hon⟩ := h.exists_on
  have hpos := hon.pos_eq
  have hcol := hon.col_le hin
  have hpos' := h'.pos_eq
  have hone' := h'.one_le_col
  rcases hprec with hline | ⟨hline, hlt⟩
  · -- All of the line of `st`, with its line feed, is before the line of `st'`.
    have hspan : span ((lines source).take st.line) = span before + (line.length + 1) := by
      rw [hon.lines_eq, hon.line_eq, List.append_cons, List.take_left' (by simp), span_append]
      rfl
    have hle := span_take_le (lines source) (show st.line ≤ st'.line - 1 by omega)
    omega
  · have heq := h.pos_eq
    rw [hline] at heq
    have hone := h.one_le_col
    omega

theorem Exact.precedes_iff (h : st.Exact source) (h' : st'.Exact source)
    (hin : st.pos ≤ source.length) (hin' : st'.pos ≤ source.length) :
    st.Precedes st' ↔ st.pos < st'.pos := by
  refine ⟨h.pos_lt h' hin, fun hlt => ?_⟩
  rcases Nat.lt_trichotomy st.line st'.line with hline | hline | hline
  · exact .inl hline
  · refine .inr ⟨hline, ?_⟩
    have hpos := h.pos_eq
    have hpos' := h'.pos_eq
    rw [hline] at hpos
    omega
  · have := h'.pos_lt h hin' (.inl hline)
    omega

/-- Up to the end of the text, no other site with the position is exact. -/
theorem Exact.eq_of (h : st.Exact source) (hin : st.pos ≤ source.length) :
    st = of source st.pos := by
  have h' := exact_of source st.pos
  have hiff := h.precedes_iff h' hin hin
  have hiff' := h'.precedes_iff h hin hin
  simp only [Precedes] at hiff hiff'
  have hpos : (of source st.pos).pos = st.pos := rfl
  ext
  · rfl
  · omega
  · omega

/-- Every place on a line of the text is the site of a position in it. -/
theorem exists_of_eq {i j : Nat} {line : List Char} (h : (lines source)[i]? = some line)
    (hj : j ≤ line.length) :
    ∃ pos, pos ≤ source.length ∧ of source pos = ⟨pos, i + 1, j + 1⟩ := by
  obtain ⟨hi, rfl⟩ := List.getElem?_eq_some_iff.mp h
  have hlines : lines source =
      (lines source).take i ++ (lines source)[i] :: (lines source).drop (i + 1) := by
    rw [← List.drop_eq_getElem_cons hi, List.take_append_drop]
  have hin : span ((lines source).take i) + j ≤ source.length := by
    have htotal := span_lines source
    rw [hlines, span_append, span] at htotal
    omega
  have hon : Site.On source ((lines source).take i) (lines source)[i] ((lines source).drop (i + 1))
      ⟨span ((lines source).take i) + j, i + 1, j + 1⟩ := by
    refine ⟨hlines, ?_, by simp only; omega, by simp, fun _ => by simpa using hj⟩
    rw [List.length_take, Nat.min_eq_left (Nat.le_of_lt hi)]
  exact ⟨_, hin, (hon.exact.eq_of hin).symm⟩

end Site

end Text

/-! ### Sites of faults -/

def ReadFault.site? : ReadFault → Option Text.Site
  | .unexpected site _ _ => some site
  | .outOfRange site _ => some site
  | .tooManyDigits _ => none
  | .tooDeep => none

/-- The line and the column of the fault are those of its position in the text. -/
def ReadFault.Sited (source : List Char) (fault : ReadFault) : Prop :=
  ∀ st ∈ fault.site?, st = .of source st.pos ∧ st.Exact source

def Source.Reply.Sited {α : Type} (source : List Char) (reply : Source.Reply α) : Prop :=
  ∀ fault, reply.outcome = .error fault → fault.Sited source

theorem Reading.Halt.sited_fault (source : List Char) (start : Nat) (halt : Halt) :
    (halt.fault source start).Sited source := by
  intro st hst
  cases halt with
  | unexpected state rest =>
      obtain rfl := Option.some.inj hst
      exact ⟨rfl, Text.Site.exact_of source _⟩
  | outOfRange pos run =>
      obtain rfl := Option.some.inj hst
      exact ⟨rfl, Text.Site.exact_of source _⟩
  | tooManyDigits count => contradiction
  | tooDeep => contradiction

namespace Source.Reply

variable {α β : Type} {source : List Char}

theorem sited_ok (names : List String) (a : α) : Sited source ⟨names, .ok a⟩ := by
  intro fault hfault
  contradiction

theorem sited_error (names : List String) (start : Nat) (halt : Reading.Halt) :
    Sited source (⟨names, .error (halt.fault source start)⟩ : Reply α) := by
  intro fault hfault
  obtain rfl := Except.error.inj hfault
  exact halt.sited_fault source start

theorem Sited.map {reply : Reply α} (h : reply.Sited source) (names : List String) (f : α → β) :
    Sited source ⟨names, reply.outcome.map f⟩ := by
  obtain ⟨names', fault | a⟩ := reply
  · intro fault' hfault
    exact h fault' (congrArg Except.error (Except.error.inj hfault))
  · exact sited_ok names (f a)

end Source.Reply

namespace Cursor

variable [Text.Alphabet]

theorem sited_read (room : Nat) (c : Cursor) : (c.read room).1.Sited c.source := by
  simp only [read]
  split
  · exact Source.Reply.sited_ok _ _
  · exact Source.Reply.sited_error _ _ _

theorem sited_next (room : Nat) (c : Cursor) : (c.next room).1.Sited c.source := by
  simp only [next]
  split
  · exact Source.Reply.sited_ok _ _
  · exact (sited_read room c.skipBlanks).map _ some

end Cursor

namespace Tap

variable [Text.Alphabet]

theorem sited_serve (room : Nat) (t : Tap) (request : Request) :
    (t.serve room request).1.Sited t.cursor.source := by
  cases request with
  | read => exact (t.cursor.sited_read room).map _ some
  | next => exact t.cursor.sited_next room
  | advance =>
      simp only [serve, advance]
      split
      · exact t.cursor.sited_next room
      · exact Source.Reply.sited_ok _ _
  | stream => exact Source.Reply.sited_ok _ _
  | seek pos => exact Source.Reply.sited_ok _ _

theorem sited_serveAll (room : Nat) (t : Tap) (requests : List Request) :
    ∀ reply ∈ (serveAll room t requests).1, reply.Sited t.cursor.source := by
  induction requests generalizing t with
  | nil => simp [serveAll]
  | cons request requests ih =>
      rw [serveAll_cons]
      intro reply hreply
      rcases List.mem_cons.mp hreply with rfl | hreply
      · exact sited_serve room t request
      · rw [← source_serve room t request]
        exact ih _ reply hreply

end Tap

namespace Source

variable [Text.Alphabet]

theorem sited_first (room : Nat) (source : List Char) : (first room source).Sited source := by
  simp only [first]
  split
  · exact Reply.sited_ok _ _
  · exact Reply.sited_error _ _ _

theorem sited_many (room : Nat) (source : List Char) : (many room source).Sited source := by
  simp only [many]
  split
  · exact Reply.sited_ok _ _
  · exact Reply.sited_ok _ _
  · exact Reply.sited_error _ _ _

theorem sited_all (room : Nat) (source : List Char) : (all room source).Sited source := by
  simp only [all]
  split
  · exact Reply.sited_ok _ _
  · exact Reply.sited_error _ _ _

end Source

/-- A line and a column identify a position. Split at its line feeds, a text has the line of every
site, and the position is reached by going over the lines before it and then to the column, which
inside the text is on the line or at its end; past the end the line is the last. Up to the end of
the text the order of positions is the order of lines and columns, and every place on a line is the
site of one position. And whatever is read from the text, in whatever way, a fault that names a site
names the line and the column of its position. -/
theorem Text.Site.identifies_position [Text.Alphabet] (source : List Char) :
    (∀ pos, (of source pos).pos = pos ∧ (of source pos).Exact source ∧
      (source.length < pos → (of source pos).line = (lines source).length)) ∧
    (∀ pos pos', pos ≤ source.length → pos' ≤ source.length →
      (pos < pos' ↔ (of source pos).Precedes (of source pos'))) ∧
    (∀ i line, (lines source)[i]? = some line → ∀ j ≤ line.length,
      ∃ pos ≤ source.length, of source pos = ⟨pos, i + 1, j + 1⟩ ∧
        ∀ pos', (of source pos').line = i + 1 → (of source pos').col = j + 1 → pos' = pos) ∧
    (∀ room requests, ∀ reply ∈ (Tap.serveAll room (Tap.of source) requests).1,
      reply.Sited source) ∧
    (∀ room, (Source.first room source).Sited source ∧ (Source.many room source).Sited source ∧
      (Source.all room source).Sited source) := by
  refine ⟨fun pos => ⟨rfl, exact_of source pos, line_of_length_lt⟩, fun pos pos' hin hin' => ?_,
    fun i line hline j hj => ?_, fun room requests => Tap.sited_serveAll room _ requests,
    fun room => ⟨Source.sited_first room source, Source.sited_many room source,
      Source.sited_all room source⟩⟩
  · exact ((exact_of source pos).precedes_iff (exact_of source pos') hin hin').symm
  · obtain ⟨pos, hin, hof⟩ := exists_of_eq hline hj
    refine ⟨pos, hin, hof, fun pos' hline' hcol' => ?_⟩
    have hpos := (exact_of source pos).pos_eq
    have hpos' := (exact_of source pos').pos_eq
    rw [hof] at hpos
    rw [hline', hcol'] at hpos'
    exact hpos'.symm.trans hpos

end SproutLang
