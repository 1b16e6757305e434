import SproutLang.Proofs.Soundness

/-!
The two equalities. Inside the language, two values are equal when they are the same and of a kind
that is compared at all: a constant or a number. That is symmetric and transitive, and what it lacks
in reflexivity is exactly the other kinds. So it is enough that `eq` compares with its first
argument, and the order of the arguments is of no account.

A host finds two programs equal when they are the same and no function literal stands in them, since
it finds no function equal to another. So the comparison of a program with itself, read a second
time, tells whether there is a function literal anywhere in it.
-/

namespace SproutLang

/-! ### Values -/

namespace Value

def isComparable : Value → Bool
  | .void | .falsity | .int _ => true
  | _ => false

/-- Does the value belong to the host, not to the language? -/
def isForeign : Value → Bool
  | .bool _ | .text _ | .absent | .list _ => true
  | _ => false

variable {u v w : Value}

theorem equals_iff : v.equals w = true ↔ v = w ∧ v.isComparable = true := by
  cases v <;> cases w <;> simp [equals, isComparable]

theorem equals_self_iff : v.equals v = true ↔ v.isComparable = true := by
  simp [equals_iff]

theorem equals_symm (h : v.equals w = true) : w.equals v = true := by
  obtain ⟨rfl, hv⟩ := equals_iff.mp h
  exact h

theorem equals_comm (v w : Value) : v.equals w = w.equals v :=
  Bool.eq_iff_iff.mpr ⟨equals_symm, equals_symm⟩

theorem equals_trans (h : u.equals v = true) (h' : v.equals w = true) : u.equals w = true := by
  obtain ⟨rfl, -⟩ := equals_iff.mp h
  exact h'

theorem isComparable_iff :
    v.isComparable = true ↔ v = .void ∨ v = .falsity ∨ v.isInt = true := by
  cases v <;> simp [isComparable, isInt]

/-- Every value is comparable, callable or foreign. -/
theorem not_isComparable_iff :
    v.isComparable = false ↔ v.isCallable = true ∨ v.isForeign = true := by
  cases v <;> simp [isComparable, isCallable, isForeign]

/-- On values of the language a host sees what the language sees. -/
theorem matches_eq_equals (hv : v.isForeign = false) (hw : w.isForeign = false) :
    v.matches w = v.equals w := by
  cases v <;> cases w <;> simp_all [equals, Value.matches, isForeign]

end Value

/-! ### The native `eq` -/

namespace Native

variable {args args' : List Value}

theorem eq_eq_void_or_falsity (args : List Value) : eq args = .void ∨ eq args = .falsity := by
  cases args with
  | nil => exact .inl rfl
  | cons head args =>
      rw [eq]
      split
      · exact .inl rfl
      · exact .inr rfl

/-- To compare all arguments with the first is to compare them with one another. -/
theorem eq_eq_void_iff :
    eq args = .void ↔ args.Pairwise fun v w => v.equals w = true := by
  cases args with
  | nil => exact iff_of_true rfl .nil
  | cons head args =>
      have hfirst : eq (head :: args) = .void ↔ ∀ v ∈ args, v.equals head = true := by
        rw [eq, ← List.all_eq_true]
        split <;> simp_all
      rw [hfirst, List.pairwise_cons]
      constructor
      · intro h
        refine ⟨fun v hv => Value.equals_symm (h v hv), ?_⟩
        -- Two of the others are equal by way of the first.
        exact List.pairwise_of_forall_mem_list fun v hv w hw =>
          Value.equals_trans (h v hv) (Value.equals_symm (h w hw))
      · exact fun h v hv => Value.equals_symm (h.1 v hv)

theorem eq_eq_falsity_iff :
    eq args = .falsity ↔ ¬ args.Pairwise fun v w => v.equals w = true := by
  rw [← eq_eq_void_iff]
  rcases eq_eq_void_or_falsity args with h | h <;> simp [h]

theorem eq_of_perm (h : args.Perm args') : eq args = eq args' := by
  have hpairs := h.pairwise_iff (R := fun v w => v.equals w = true) Value.equals_symm
  rcases eq_eq_void_or_falsity args with hargs | hargs
  · have hargs' := eq_eq_void_iff.mpr (hpairs.mp (eq_eq_void_iff.mp hargs))
    rw [hargs, hargs']
  · have hargs' := eq_eq_falsity_iff.mpr (mt hpairs.mpr (eq_eq_falsity_iff.mp hargs))
    rw [hargs, hargs']

/-- A value that equals nothing is not equal to the others, if there are any. -/
theorem eq_eq_falsity_of_mem {v : Value} (hlength : 2 ≤ args.length) (hv : v ∈ args)
    (hother : v.isComparable = false) : eq args = .falsity := by
  obtain ⟨before, after, rfl⟩ := List.append_of_mem hv
  rw [eq_of_perm List.perm_middle, eq_eq_falsity_iff, List.pairwise_cons]
  rintro ⟨hall, -⟩
  obtain ⟨w, hw⟩ : ∃ w, w ∈ before ++ after := by
    refine List.exists_mem_of_length_pos ?_
    simp only [List.length_append, List.length_cons] at hlength ⊢
    omega
  have hcompared := (Value.equals_iff.mp (hall w hw)).2
  rw [hother] at hcompared
  contradiction

/-- The native `eq` decides whether its arguments are equal to one another, each to each, in
whatever order they come; with a callable or a foreign value among two or more, they are not. Behind
this, equality is symmetric and transitive on all values, and a value equals itself exactly if it
is a constant or a number. A host sees the same equality on the values of the language, and another
one on its own. -/
theorem eq_decides_pairwise (args : List Value) :
    (eq args = .void ↔ args.Pairwise fun v w => v.equals w = true) ∧
    (eq args = .falsity ↔ ¬ args.Pairwise fun v w => v.equals w = true) ∧
    (∀ args' : List Value, args.Perm args' → eq args' = eq args) ∧
    (2 ≤ args.length → (∃ v ∈ args, v.isCallable = true ∨ v.isForeign = true) →
      eq args = .falsity) ∧
    (∀ v w : Value, v.equals w = w.equals v) ∧
    (∀ u v w : Value, u.equals v = true → v.equals w = true → u.equals w = true) ∧
    (∀ v : Value, v.equals v = true ↔ v = .void ∨ v = .falsity ∨ v.isInt = true) ∧
    (∀ v w : Value, v.isForeign = false → w.isForeign = false → v.equals w = v.matches w) ∧
    ¬ ∀ v w : Value, v.equals w = v.matches w := by
  refine ⟨eq_eq_void_iff, eq_eq_falsity_iff, fun args' h => (eq_of_perm h).symm, ?_,
    Value.equals_comm, fun u v w => Value.equals_trans, fun v => ?_,
    fun v w hv hw => (Value.matches_eq_equals hv hw).symm, fun h => ?_⟩
  · rintro hlength ⟨v, hv, hkind⟩
    exact eq_eq_falsity_of_mem hlength hv (Value.not_isComparable_iff.mpr hkind)
  · rw [Value.equals_self_iff, Value.isComparable_iff]
  · -- A truth value is a number to the host, and nothing to the language.
    have hone := h (.bool true) (.int 1)
    simp [Value.equals, Value.matches, boolNumber] at hone

end Native

/-! ### Programs -/

namespace Expr

def HoldsFunction (e : Expr) : Prop :=
  ∃ params body, .literal (.function params body) ∈ e.parts

@[simp] theorem holdsFunction_literal_iff {v : Value} :
    (literal v).HoldsFunction ↔ ∃ params body, v = .function params body := by
  cases v with
  | function params body => exact iff_of_true ⟨params, body, self_mem_parts _⟩ ⟨params, body, rfl⟩
  | _ => simp [HoldsFunction, parts, Value.parts]

@[simp] theorem not_holdsFunction_ref (k : Key) : ¬ (ref k).HoldsFunction := by
  simp [HoldsFunction, parts]

@[simp] theorem holdsFunction_define_iff {k : Key} {value : Expr} :
    (define k value).HoldsFunction ↔ value.HoldsFunction := by
  simp [HoldsFunction, parts]

@[simp] theorem holdsFunction_call_iff {callee : Expr} {args : List Expr} :
    (call callee args).HoldsFunction ↔
      callee.HoldsFunction ∨ ∃ e ∈ args, e.HoldsFunction := by
  simp only [HoldsFunction, parts, List.mem_cons, List.mem_append, mem_partsOf_iff, reduceCtorEq,
    false_or]
  grind

/-- What a literal in a text may stand for. -/
theorem Derived.literal_cases {v : Value} (h : (literal v).Derived) :
    v = .falsity ∨ (∃ n, v = .int n) ∨ ∃ params body, v = .function params body := by
  obtain ⟨t, -, ht⟩ := h
  cases t <;> simp_all [Tree.expr, eq_comm]

theorem not_derived_stray (v : Value) : ¬ (stray v).Derived := by
  rintro ⟨t, -, ht⟩
  cases t <;> simp [Tree.expr] at ht

theorem Derived.literal_matches_iff {v w : Value} (hv : (literal v).Derived)
    (hw : (literal w).Derived) :
    v.matches w = true ↔ v = w ∧ ¬ (literal v).HoldsFunction := by
  have hown {x : Value} (hx : (literal x).Derived) : x.isForeign = false := by
    obtain rfl | ⟨n, rfl⟩ | ⟨params, body, rfl⟩ := hx.literal_cases <;> rfl
  have hcompared : v.isComparable = true ↔ ¬ (literal v).HoldsFunction := by
    rw [holdsFunction_literal_iff]
    obtain rfl | ⟨n, rfl⟩ | ⟨params, body, rfl⟩ := hv.literal_cases <;> simp [Value.isComparable]
  rw [Value.matches_eq_equals (hown hv) (hown hw), Value.equals_iff, hcompared]

mutual

/-- Two expressions that come from texts are equal to a host exactly if they are the same and hold
no function literal. -/
theorem Derived.matches_iff (e f : Expr) (he : e.Derived) (hf : f.Derived) :
    e.matches f = true ↔ e = f ∧ ¬ e.HoldsFunction := by
  -- On the first expression; a second one of another form is neither the same nor equal.
  match e with
  | .literal v =>
      cases f with
      | literal w => rw [Expr.matches, he.literal_matches_iff hf, Expr.literal.injEq]
      | _ => simp [Expr.matches]
  | .ref k =>
      cases f with
      | ref l => simp [Expr.matches]
      | _ => simp [Expr.matches]
  | .define k value =>
      cases f with
      | define l value' =>
          have hvalue := Derived.matches_iff value value' (inherited_derived.value he)
            (inherited_derived.value hf)
          rw [Expr.matches, Bool.and_eq_true, hvalue, beq_iff_eq, Expr.define.injEq,
            holdsFunction_define_iff, and_assoc]
      | _ => simp [Expr.matches]
  | .call callee args =>
      cases f with
      | call callee' args' =>
          have hcallee := Derived.matches_iff callee callee' (inherited_derived.callee he)
            (inherited_derived.callee hf)
          have hargs := matchesAll_iff args args' (inherited_derived.argument he)
            (inherited_derived.argument hf)
          rw [Expr.matches, Bool.and_eq_true, hcallee, hargs, Expr.call.injEq,
            holdsFunction_call_iff]
          grind
      | _ => simp [Expr.matches]
  | .stray v => exact absurd he (not_derived_stray v)

theorem matchesAll_iff (es fs : List Expr) (hes : ∀ e ∈ es, e.Derived)
    (hfs : ∀ f ∈ fs, f.Derived) :
    matchesAll es fs = true ↔ es = fs ∧ ∀ e ∈ es, ¬ e.HoldsFunction := by
  match es, fs with
  | [], [] => simp [matchesAll]
  | [], f :: fs => simp [matchesAll]
  | e :: es, [] => simp [matchesAll]
  | e :: es, f :: fs =>
      rw [List.forall_mem_cons] at hes hfs
      have hfirst := Derived.matches_iff e f hes.1 hfs.1
      have hrest := matchesAll_iff es fs hes.2 hfs.2
      rw [matchesAll, Bool.and_eq_true, hfirst, hrest, List.cons.injEq, List.forall_mem_cons]
      exact and_and_and_comm

end

end Expr

namespace Source

section Programs

variable [Text.Alphabet]

/-- The text reads as these expressions, if there is room enough. -/
def ReadsAs (text : List Char) (es : List Expr) : Prop :=
  ∃ room, (all room text).outcome = .ok es

variable {text : List Char} {es fs : List Expr}

theorem ReadsAs.unique (h : ReadsAs text es) (h' : ReadsAs text fs) : es = fs := by
  obtain ⟨room, h⟩ := h
  obtain ⟨room', h'⟩ := h'
  obtain ⟨ts, htokens, -, -, rfl⟩ := all_eq_ok_iff.mp h
  obtain ⟨us, htokens', -, -, rfl⟩ := all_eq_ok_iff.mp h'
  rw [Tree.yields_injective (htokens.symm.trans htokens')]

theorem ReadsAs.derived (h : ReadsAs text es) : ∀ e ∈ es, e.Derived := by
  obtain ⟨room, h⟩ := h
  intro e he
  exact derived_of_mem_partsOf h (Expr.mem_partsOf_iff.mpr ⟨e, he, e.self_mem_parts⟩)

/-- Two programs that were read are equal to a host exactly if they are the same expressions and no
function literal stands in them at any depth. So the equality is symmetric and transitive, and a
program equals a second reading of its text exactly if it holds no function literal. -/
theorem matchesAll_iff_same_without_function {a b : List Char} {xs ys : List Expr}
    (ha : ReadsAs a xs) (hb : ReadsAs b ys) :
    (Expr.matchesAll xs ys = true ↔ xs = ys ∧ ∀ e ∈ xs, ¬ e.HoldsFunction) ∧
    Expr.matchesAll xs ys = Expr.matchesAll ys xs ∧
    (∀ zs, Expr.matchesAll xs ys = true → Expr.matchesAll ys zs = true →
      Expr.matchesAll xs zs = true) ∧
    (∀ again, ReadsAs a again →
      (Expr.matchesAll xs again = true ↔ ∀ e ∈ xs, ¬ e.HoldsFunction)) := by
  have hxy := Expr.matchesAll_iff xs ys ha.derived hb.derived
  have hyx := Expr.matchesAll_iff ys xs hb.derived ha.derived
  refine ⟨hxy, ?_, fun zs hleft hright => ?_, fun again hagain => ?_⟩
  · rw [Bool.eq_iff_iff, hxy, hyx]
    constructor
    · rintro ⟨rfl, hfree⟩
      exact ⟨rfl, hfree⟩
    · rintro ⟨rfl, hfree⟩
      exact ⟨rfl, hfree⟩
  · obtain ⟨rfl, -⟩ := hxy.mp hleft
    exact hright
  · obtain rfl := ha.unique hagain
    rw [Expr.matchesAll_iff xs xs ha.derived ha.derived]
    exact and_iff_right rfl

end Programs

/-- The text `(#f 7)`, the same with more blanks, and a call with a function literal in it. -/
theorem matchesAll_iff_same_without_function_blanks :
    let plain := ['(', '#', 'f', ' ', '7', ')']
    let spaced := ['(', ' ', '#', 'f', '\n', '7', ' ', ')']
    let nested := ['(', '(', '\\', '(', ')', '7', ')', ')']
    let call := [Expr.call (.literal .falsity) [.literal (.int 7)]]
    let function := [Expr.call (.literal (.function [] [.literal (.int 7)])) []]
    ReadsAs plain call ∧ ReadsAs spaced call ∧ ReadsAs nested function ∧
      Expr.matchesAll call call = true ∧ Expr.matchesAll function function = false := by
  intro plain spaced nested call function
  have hplain : ReadsAs plain call := by
    refine ⟨1, ?_⟩
    rw [all, show Lexeme.scan 0 plain =
      [⟨0, .lparen⟩, ⟨1, .falseMark⟩, ⟨4, .digits ['7']⟩, ⟨5, .rparen⟩] by decide +kernel]
    rfl
  have hspaced : ReadsAs spaced call := by
    refine ⟨2, ?_⟩
    rw [all, show Lexeme.scan 0 spaced =
      [⟨0, .lparen⟩, ⟨2, .falseMark⟩, ⟨5, .digits ['7']⟩, ⟨7, .rparen⟩] by decide +kernel]
    rfl
  have hnested : ReadsAs nested function := by
    refine ⟨2, ?_⟩
    rw [all, show Lexeme.scan 0 nested =
      [⟨0, .lparen⟩, ⟨1, .lparen⟩, ⟨2, .backslash⟩, ⟨3, .lparen⟩, ⟨4, .rparen⟩,
        ⟨5, .digits ['7']⟩, ⟨6, .rparen⟩, ⟨7, .rparen⟩] by decide +kernel]
    rfl
  refine ⟨hplain, hspaced, hnested, ?_, ?_⟩
  · refine (matchesAll_iff_same_without_function hplain hspaced).1.mpr ⟨rfl, ?_⟩
    simp [call]
  · obtain ⟨-, -, -, hagain⟩ := matchesAll_iff_same_without_function hnested hplain
    rw [← Bool.not_eq_true, hagain function hnested]
    simp [function]

end Source

end SproutLang
