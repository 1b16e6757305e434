import SproutLang.Text.Site

/-!
Sites in a text that another text stands before. Every position moves on by the length of what is in
front, every line by the line feeds in it; a column moves only on the first line, which goes on
where the last line of the text in front stops.
-/

namespace SproutLang.Text

/-- The last line begins in the second text if that has a line feed at all. -/
theorem lastLineLength_append (a b : List Char) :
    lastLineLength (a ++ b) =
      if '\n' ∈ b then lastLineLength b else lastLineLength a + b.length := by
  rw [lastLineLength, List.reverse_append]
  by_cases hmem : '\n' ∈ b
  · have hshort : (b.reverse.takeWhile fun c => c ≠ '\n').length ≠ b.reverse.length := by
      intro hlength
      have hall := List.all_takeWhile (p := fun c => decide (c ≠ '\n')) (l := b.reverse)
      rw [(List.takeWhile_prefix _).eq_of_length hlength, List.all_eq_true] at hall
      simpa using hall '\n' (List.mem_reverse.mpr hmem)
    rw [List.takeWhile_append, if_neg hshort, if_pos hmem]
    rfl
  · have hall : ∀ c ∈ b.reverse, decide (c ≠ '\n') = true := by
      intro c hc
      simpa using ne_of_mem_of_not_mem (List.mem_reverse.mp hc) hmem
    rw [List.takeWhile_append_of_pos hall, if_neg hmem, List.length_append, List.length_reverse,
      Nat.add_comm]
    rfl

theorem lastLineLength_of_not_mem {text : List Char} (h : '\n' ∉ text) :
    lastLineLength text = text.length := by
  simpa [h, lastLineLength] using lastLineLength_append [] text

namespace Site

/-- The site of the same character when the text `front` is put before the text that it is in. -/
def behind (front : List Char) (s : Site) : Site where
  pos := s.pos + front.length
  line := s.line + front.count '\n'
  col := if 1 < s.line then s.col else s.col + lastLineLength front

theorem of_append (front source : List Char) (pos : Nat) :
    of (front ++ source) (pos + front.length) = (of source pos).behind front := by
  have htake : (front ++ source).take (pos + front.length) = front ++ source.take pos := by
    rw [Nat.add_comm, List.take_length_add_append]
  have hline : 1 < (of source pos).line ↔ '\n' ∈ source.take pos := by
    rw [← List.count_pos_iff]
    exact Nat.lt_add_left_iff_pos
  have hpast : pos + front.length - (front ++ source.take pos).length =
      pos - (source.take pos).length := by
    rw [List.length_append]
    omega
  ext
  · rfl
  · show ((front ++ source).take (pos + front.length)).count '\n' + 1 = _
    rw [htake, List.count_append, Nat.add_comm (front.count '\n'), Nat.add_right_comm]
    rfl
  · simp only [behind, hline]
    simp only [of, htake, hpast, lastLineLength_append]
    split
    · rfl
    · rename_i hmem
      rw [lastLineLength_of_not_mem hmem]
      omega

end Site

end SproutLang.Text
