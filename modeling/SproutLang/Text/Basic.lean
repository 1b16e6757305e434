/-!
Small things about texts: sets of code points, numbers in base sixteen, texts strung together, and
the line ends of files.
-/

namespace SproutLang.Text

/-- A set of code points: inclusive ranges, in increasing order. -/
abbrev Ranges := List (Nat × Nat)

namespace Ranges

/-- Does one of the ranges hold `code`? The search ends at the first range that starts above it. -/
def covers : Ranges → Nat → Bool
  | [], _ => false
  | (low, high) :: rest, code =>
      if code < low then false
      else if code ≤ high then true
      else covers rest code

theorem exists_of_covers {r : Ranges} {code : Nat} (h : r.covers code = true) :
    ∃ p ∈ r, p.1 ≤ code ∧ code ≤ p.2 := by
  induction r with
  | nil => simp [covers] at h
  | cons p rest ih =>
      obtain ⟨low, high⟩ := p
      rw [covers] at h
      split at h
      · simp at h
      · split at h
        · exact ⟨(low, high), by simp, by simp; omega⟩
        · obtain ⟨q, hq, hle⟩ := ih h
          exact ⟨q, List.mem_cons_of_mem _ hq, hle⟩

/-- Tables of ranges are too large to be compared by hand and small enough to be compared by
evaluation: no code point of one, listed one by one, is covered by the other. -/
theorem not_covers_of_disjoint {r s : Ranges} {code : Nat}
    (hrs : ∀ p ∈ r, ∀ n ∈ List.range' p.1 (p.2 + 1 - p.1), s.covers n = false)
    (h : r.covers code = true) : s.covers code = false := by
  obtain ⟨p, hp, hlow, hhigh⟩ := exists_of_covers h
  exact hrs p hp code (by rw [List.mem_range'_1]; omega)

end Ranges

def hexDigits (width n : Nat) : List Char :=
  (Nat.toDigits 16 n).leftpad width '0'

def joinWith (separator : String) : List String → String
  | [] => ""
  | [text] => text
  | text :: rest => text ++ separator ++ joinWith separator rest

/-- A carriage return, alone or before a line feed, reads as a line feed. -/
def unifyNewlines : List Char → List Char
  | [] => []
  | '\r' :: '\n' :: rest => '\n' :: unifyNewlines rest
  | '\r' :: rest => '\n' :: unifyNewlines rest
  | c :: rest => c :: unifyNewlines rest

end SproutLang.Text
