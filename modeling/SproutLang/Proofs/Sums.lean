import Mathlib.Algebra.BigOperators.Group.List.Basic
import Mathlib.Data.Int.Bitwise
import SproutLang.Native

/-!
Sums of the native `add`. The running total is cut to 64 bits at every step, and what is no number
is passed over with a warning. Since to cut is to take the remainder, on negative numbers as well,
it makes no difference when it is done: the native yields the remainder of the sum of its numbers.
So neither the order of the arguments counts nor in what parts they are added up.
-/

namespace SproutLang

def Value.int? : Value → Option Int
  | .int n => some n
  | _ => none

namespace Native

/-! ### Cutting to a number of bits -/

/-- To keep the last `w` bits of an integer is to take its remainder; a negative one has ones for
ever in front. -/
theorem land_mask (n : Int) (w : Nat) :
    Int.land n ((2 ^ w - 1 : Nat) : Int) = n % ((2 ^ w : Nat) : Int) := by
  cases n with
  | ofNat m =>
      change ((m &&& (2 ^ w - 1) : Nat) : Int) = ((m % 2 ^ w : Nat) : Int)
      rw [Nat.and_two_pow_sub_one_eq_mod]
  | negSucc m =>
      have hpos : 0 < 2 ^ w := Nat.two_pow_pos w
      have hlt : m % 2 ^ w < 2 ^ w := Nat.mod_lt m hpos
      -- The bits of `-m - 1` are those that `m` lacks.
      have hbits : Nat.ldiff (2 ^ w - 1) m = 2 ^ w - (m % 2 ^ w + 1) := by
        apply Nat.eq_of_testBit_eq
        intro i
        rw [Nat.testBit_ldiff, Nat.testBit_two_pow_sub_one, Nat.testBit_two_pow_sub_succ hlt,
          Nat.testBit_mod_two_pow]
        by_cases hi : i < w <;> simp [hi]
      change ((Nat.ldiff (2 ^ w - 1) m : Nat) : Int) = _
      rw [hbits, Int.negSucc_emod _ (Int.natCast_pos.mpr hpos)]
      omega

theorem land_wordBound (n : Int) : Int.land n (wordBound - 1) = n % wordBound :=
  land_mask n 64

/-! ### The sum and the warnings -/

variable {args args' : List Value}

/-- What one pass over the arguments comes to, from a total that fits. -/
theorem addFrom_eq_emod {total : Int} (htotal : total % wordBound = total) (args : List Value) :
    addFrom total args = ((total + (args.filterMap Value.int?).sum) % wordBound,
      List.replicate (args.countP fun v => !v.isInt) .skippedAddend) := by
  fun_induction addFrom total args with
  | case1 total => simp [htotal]
  | case2 total n args ih =>
      rw [ih (Int.emod_emod_of_dvd _ (Int.dvd_refl _)), Int.emod_add_emod, Int.add_assoc]
      simp [Value.int?, Value.isInt]
  | case3 total v args hv sum warnings hrest ih =>
      have hnone : v.int? = none ∧ v.isInt = false := by
        cases v <;> simp_all [Value.int?, Value.isInt]
      obtain ⟨hsum, hwarnings⟩ := Prod.mk.inj (hrest.symm.trans (ih htotal))
      rw [List.filterMap_cons_none hnone.1, List.countP_cons_of_pos (by simp [hnone.2]),
        List.replicate_succ, hsum, hwarnings]

theorem add_eq (args : List Value) :
    add args = ((args.filterMap Value.int?).sum % wordBound,
      List.replicate (args.countP fun v => !v.isInt) .skippedAddend) := by
  rw [add, addFrom_eq_emod (Int.zero_emod _), Int.zero_add]

theorem add_bounds (args : List Value) : 0 ≤ (add args).1 ∧ (add args).1 < wordBound := by
  rw [add_eq]
  exact ⟨Int.emod_nonneg _ (by decide), Int.emod_lt_of_pos _ (by decide)⟩

/-- To cut the total at every step is to cut it once, at the end. -/
theorem foldl_land (total : Int) (ns : List Int) :
    ns.foldl (fun total n => Int.land (total + n) (wordBound - 1)) (total % wordBound) =
      (total + ns.sum) % wordBound := by
  induction ns generalizing total with
  | nil => simp
  | cons n ns ih =>
      rw [List.foldl_cons, land_wordBound, Int.emod_add_emod, ih, List.sum_cons, Int.add_assoc]

theorem add_of_perm (h : args.Perm args') : add args = add args' := by
  rw [add_eq, add_eq, (h.filterMap _).sum_eq, h.countP_eq]

theorem add_append (xs ys : List Value) :
    add (xs ++ ys) = ((add [.int (add xs).1, .int (add ys).1]).1, (add xs).2 ++ (add ys).2) := by
  have htwo (m n : Int) : (add [.int m, .int n]).1 = (m + n) % wordBound := by
    simp [add_eq, Value.int?]
  rw [htwo, add_eq, add_eq, add_eq, List.filterMap_append, List.sum_append, List.countP_append,
    List.replicate_add, ← Int.add_emod]

/-- The native `add` adds its numbers up modulo 2 to the power of 64, whatever their size and sign,
and warns once for every other argument. That is the sum of the numbers cut to 64 bits at every
step. So the order of the arguments does not count, and they may be added up in two parts, however
these are picked: the sums of the parts add up to the sum of all, and the warnings of the parts are
those of all. -/
theorem add_wraps_sum (args : List Value) :
    let numbers := args.filterMap Value.int?
    let others := args.countP fun v => !v.isInt
    (add args).1 = numbers.sum % wordBound ∧
    0 ≤ (add args).1 ∧ (add args).1 < wordBound ∧ wordBound = 2 ^ 64 ∧
    (add args).2 = List.replicate others .skippedAddend ∧
    (add args).1 = numbers.foldl (fun total n => Int.land (total + n) (wordBound - 1)) 0 ∧
    (∀ {σ : Type} (host : Host σ) (scope : Scope) (world : σ),
      call host .add args scope world = ⟨.value (.int (add args).1), scope, world,
        List.replicate others (.warning .skippedAddend)⟩) ∧
    (∀ args' : List Value, args.Perm args' → add args' = add args) ∧
    (∀ xs ys : List Value, args.Perm (xs ++ ys) →
      add args =
        ((add [.int (add xs).1, .int (add ys).1]).1, (add xs).2 ++ (add ys).2)) := by
  intro numbers others
  have hsum : (add args).1 = numbers.sum % wordBound := congrArg Prod.fst (add_eq args)
  have hwarnings : (add args).2 = List.replicate others .skippedAddend :=
    congrArg Prod.snd (add_eq args)
  obtain ⟨hlow, hhigh⟩ := add_bounds args
  refine ⟨hsum, hlow, hhigh, rfl, hwarnings, ?_, ?_, ?_, ?_⟩
  · have hsteps := foldl_land 0 numbers
    rw [Int.zero_emod, Int.zero_add] at hsteps
    rw [hsum, hsteps]
  · intro σ host scope world
    change (⟨.value (.int (add args).1), scope, world, (add args).2.map .warning⟩ :
      Run σ Value) = _
    rw [hwarnings, List.map_replicate]
  · exact fun args' h => (add_of_perm h).symm
  · exact fun xs ys h => (add_of_perm h).trans (add_append xs ys)

end Native

end SproutLang
