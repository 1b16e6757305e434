import Mathlib.Data.Finset.Card
import Mathlib.Data.List.DropRight
import SproutLang.Proofs.Tokens
import SproutLang.Spellings

/-!
Tables of spellings. A table is faithful when each of its entries is a name under the key of that
name; entering names keeps it so, whichever of them share a key.

A table is a bounded queue. Of all entries that were ever made it holds the last ones, in order and
as many as it has room for. Which names make an entry depends on the entries that have gone, and
which go depends on the entries made, so both are followed along the names together. A table that
has room for all keys in question loses none of them: it never holds a key twice, so it never gets
longer than there are keys.
-/

namespace SproutLang

namespace Spellings

def keys (T : Spellings) : List Key :=
  T.entries.map Prod.fst

/-- Each entry is a name, under the key of that name. -/
def Faithful [Text.Alphabet] (T : Spellings) : Prop :=
  ∀ entry ∈ T.entries, Key.ofName entry.2 = entry.1 ∧ (Token.name entry.2.toList).WellFormed

variable {T : Spellings} {name : String} {names : List String} {k : Key}

theorem mem_of_find? (h : T.find? k = some name) : (k, name) ∈ T.entries := by
  obtain ⟨before, after, hentries, -⟩ := List.lookup_eq_some_iff.mp h
  rw [hentries]
  simp

theorem isSome_find?_iff : (T.find? k).isSome = true ↔ k ∈ T.keys := by
  rw [find?, keys, List.lookup_isSome_iff]
  simp

/-! ### One name -/

theorem record_of_mem (h : Key.ofName name ∈ T.keys) : T.record name = T :=
  if_pos (isSome_find?_iff.mpr h)

theorem record_of_not_mem (h : Key.ofName name ∉ T.keys) :
    T.record name =
      { T with entries := (T.entries ++ [(Key.ofName name, name)]).rtake T.capacity } :=
  if_neg (mt isSome_find?_iff.mp h)

@[simp] theorem capacity_record (T : Spellings) (name : String) :
    (T.record name).capacity = T.capacity := by
  by_cases h : Key.ofName name ∈ T.keys
  · rw [record_of_mem h]
  · rw [record_of_not_mem h]

theorem mem_entries_record {entry : Key × String} (h : entry ∈ (T.record name).entries) :
    entry ∈ T.entries ∨ entry = (Key.ofName name, name) := by
  by_cases hkey : Key.ofName name ∈ T.keys
  · rw [record_of_mem hkey] at h
    exact .inl h
  · rw [record_of_not_mem hkey] at h
    simpa using List.mem_of_mem_drop h

theorem nodup_keys_record (h : T.keys.Nodup) : (T.record name).keys.Nodup := by
  by_cases hkey : Key.ofName name ∈ T.keys
  · rwa [record_of_mem hkey]
  · have hlonger : (T.keys ++ [Key.ofName name]).Nodup := by
      rw [List.nodup_append_comm, List.singleton_append, List.nodup_cons]
      exact ⟨hkey, h⟩
    rw [record_of_not_mem hkey, keys, List.rtake, List.map_drop, List.map_append]
    exact hlonger.sublist (List.drop_sublist _ _)

theorem faithful_empty [Text.Alphabet] (cap : Nat) : (empty cap).Faithful := by
  intro entry hentry
  simp [empty] at hentry

theorem Faithful.record [Text.Alphabet] (hT : T.Faithful)
    (hname : (Token.name name.toList).WellFormed) : (T.record name).Faithful := by
  intro entry hentry
  rcases mem_entries_record hentry with hold | rfl
  · exact hT entry hold
  · exact ⟨rfl, hname⟩

theorem Faithful.recordAll [Text.Alphabet] (hT : T.Faithful)
    (hnames : ∀ name ∈ names, (Token.name name.toList).WellFormed) :
    (T.recordAll names).Faithful := by
  induction names generalizing T with
  | nil => exact hT
  | cons name names ih =>
      have hfirst := hT.record (hnames name (by simp))
      exact ih hfirst fun other hother => hnames other (List.mem_cons_of_mem _ hother)

/-! ### Entries that were made -/

/-- The entries that are made when names are entered one after another, in order: one for each name
whose key has no entry at that moment. -/
def inserted (T : Spellings) : List String → List (Key × String)
  | [] => []
  | name :: names =>
      if Key.ofName name ∈ T.keys then (T.record name).inserted names
      else (Key.ofName name, name) :: (T.record name).inserted names

theorem inserted_append (T : Spellings) (ms ns : List String) :
    T.inserted (ms ++ ns) = T.inserted ms ++ (T.recordAll ms).inserted ns := by
  induction ms generalizing T with
  | nil => rfl
  | cons name ms ih =>
      have hrest : (T.record name).inserted (ms ++ ns) =
          (T.record name).inserted ms ++ (T.recordAll (name :: ms)).inserted ns := ih _
      rw [List.cons_append, inserted, inserted, hrest]
      split
      · rfl
      · rw [List.cons_append]

theorem inserted_concat_of_mem (h : Key.ofName name ∈ (T.recordAll names).keys) :
    T.inserted (names ++ [name]) = T.inserted names := by
  rw [inserted_append, inserted, if_pos h, inserted, List.append_nil]

theorem inserted_concat_of_not_mem (h : Key.ofName name ∉ (T.recordAll names).keys) :
    T.inserted (names ++ [name]) = T.inserted names ++ [(Key.ofName name, name)] := by
  rw [inserted_append, inserted, if_neg h, inserted]

theorem key_of_mem_inserted {entry : Key × String} (h : entry ∈ T.inserted names) :
    Key.ofName entry.2 = entry.1 := by
  induction names generalizing T with
  | nil => simp [inserted] at h
  | cons name names ih =>
      rw [inserted] at h
      split at h
      · exact ih h
      · rcases List.mem_cons.mp h with rfl | h
        · rfl
        · exact ih h

/-- To cut a row to its last `n` before more is added makes no difference to its last `n`. -/
theorem rtake_append_of_rtake {α : Type} (n : Nat) (l m : List α) :
    (l.rtake n ++ m).rtake n = (l ++ m).rtake n := by
  simp only [List.rtake_eq_reverse_take_reverse, List.reverse_append, List.reverse_reverse,
    List.take_append, List.take_take, List.length_reverse]
  rw [Nat.min_eq_left (Nat.sub_le n m.length)]

/-- A table that holds the last of the entries made so far holds the last of them after more names.
-/
theorem entries_recordAll {made : List (Key × String)} (h : T.entries = made.rtake T.capacity)
    (names : List String) :
    (T.recordAll names).entries = (made ++ T.inserted names).rtake T.capacity := by
  induction names generalizing T made with
  | nil =>
      rw [inserted, List.append_nil]
      exact h
  | cons name names ih =>
      by_cases hkey : Key.ofName name ∈ T.keys
      · rw [inserted, if_pos hkey, record_of_mem hkey, recordAll, List.foldl_cons,
          record_of_mem hkey]
        exact ih h
      · have hentries : (T.record name).entries =
            (made ++ [(Key.ofName name, name)]).rtake (T.record name).capacity := by
          rw [capacity_record, record_of_not_mem hkey, h, rtake_append_of_rtake]
        have hrest := ih hentries
        rw [capacity_record, List.append_assoc] at hrest
        rw [inserted, if_neg hkey]
        exact hrest

theorem entries_recordAll_empty (cap : Nat) (names : List String) :
    ((empty cap).recordAll names).entries = ((empty cap).inserted names).rtake cap := by
  have hnone : (empty cap).entries = [].rtake (empty cap).capacity := (List.rtake_nil _).symm
  exact entries_recordAll hnone names

theorem entries_suffix_inserted (cap : Nat) (names : List String) :
    ((empty cap).recordAll names).entries <:+ (empty cap).inserted names := by
  rw [entries_recordAll_empty]
  exact List.drop_suffix _ _

theorem size_recordAll_empty (cap : Nat) (names : List String) :
    ((empty cap).recordAll names).size = min cap ((empty cap).inserted names).length := by
  rw [size, entries_recordAll_empty, List.rtake, List.length_drop]
  omega

theorem nodup_keys_recordAll (h : T.keys.Nodup) (names : List String) :
    (T.recordAll names).keys.Nodup := by
  induction names generalizing T with
  | nil => exact h
  | cons name names ih => exact ih (nodup_keys_record h)

/-! ### Tables that are large enough -/

/-- The table holds each key of `S` at most once and no others. -/
def Within (T : Spellings) (S : Finset Key) : Prop :=
  T.keys.Nodup ∧ ∀ k ∈ T.keys, k ∈ S

section Within

variable {S : Finset Key}

theorem within_empty (cap : Nat) (S : Finset Key) : (empty cap).Within S := by
  constructor <;> simp [empty, keys]

theorem Within.record (hT : T.Within S) (hname : Key.ofName name ∈ S) :
    (T.record name).Within S := by
  refine ⟨nodup_keys_record hT.1, fun k hk => ?_⟩
  obtain ⟨entry, hentry, rfl⟩ := List.mem_map.mp hk
  rcases mem_entries_record hentry with hold | rfl
  · exact hT.2 _ (List.mem_map_of_mem hold)
  · exact hname

/-- As long as there is room for every key in question, no entry goes for a new one. -/
theorem Within.record_of_not_mem (hT : T.Within S) (hroom : S.card ≤ T.capacity)
    (hname : Key.ofName name ∈ S) (hnew : Key.ofName name ∉ T.keys) :
    T.record name = { T with entries := T.entries ++ [(Key.ofName name, name)] } := by
  -- Distinct keys from `S` are no more than `S` has, and the new key is one more of them.
  have hfewer : T.keys.toFinset.card < S.card := by
    refine Finset.card_lt_card ((Finset.ssubset_iff_of_subset fun k hk => ?_).mpr
      ⟨Key.ofName name, hname, fun h => hnew (List.mem_toFinset.mp h)⟩)
    exact hT.2 k (List.mem_toFinset.mp hk)
  rw [List.toFinset_card_of_nodup hT.1, keys, List.length_map] at hfewer
  have hnone : (T.entries ++ [(Key.ofName name, name)]).length - T.capacity = 0 := by
    simp only [List.length_append, List.length_singleton]
    omega
  rw [Spellings.record_of_not_mem hnew, List.rtake, hnone, List.drop_zero]

theorem Within.find?_record (hT : T.Within S) (hroom : S.card ≤ T.capacity)
    (hname : Key.ofName name ∈ S) (k : Key) :
    (T.record name).find? k = (T.find? k).or (if Key.ofName name = k then some name else none) := by
  by_cases hkey : Key.ofName name ∈ T.keys
  · rw [record_of_mem hkey]
    split
    · next hk =>
        obtain ⟨old, hold⟩ := Option.isSome_iff_exists.mp (isSome_find?_iff.mpr (hk ▸ hkey))
        rw [hold, Option.some_or]
    · rw [Option.or_none]
  · have hentries := congrArg entries (hT.record_of_not_mem hroom hname hkey)
    rw [find?, hentries, List.lookup_append, ← find?]
    by_cases hk : Key.ofName name = k
    · simp [hk]
    · have hother : (k == Key.ofName name) = false := beq_eq_false_iff_ne.mpr (Ne.symm hk)
      simp [List.lookup_cons, hk, hother]

/-- With room for every key in question, a table keeps what it holds and all that is entered. -/
theorem Within.entries_recordAll (hT : T.Within S) (hroom : S.card ≤ T.capacity)
    (hnames : ∀ name ∈ names, Key.ofName name ∈ S) :
    (T.recordAll names).entries = T.entries ++ T.inserted names := by
  induction names generalizing T with
  | nil => exact (List.append_nil _).symm
  | cons name names ih =>
      rw [List.forall_mem_cons] at hnames
      have hrest : ((T.record name).recordAll names).entries =
          (T.record name).entries ++ (T.record name).inserted names :=
        ih (hT.record hnames.1) (by rwa [capacity_record]) hnames.2
      rw [recordAll, List.foldl_cons, inserted]
      refine hrest.trans ?_
      split
      · next hkey => rw [record_of_mem hkey]
      · next hkey => simp [hT.record_of_not_mem hroom hnames.1 hkey]

/-- With room for every key in question, the first spelling entered for a key stays. -/
theorem Within.find?_recordAll (hT : T.Within S) (hroom : S.card ≤ T.capacity)
    (hnames : ∀ name ∈ names, Key.ofName name ∈ S) (k : Key) :
    (T.recordAll names).find? k = (T.find? k).or (names.find? fun name => Key.ofName name = k) := by
  induction names generalizing T with
  | nil => exact Option.or_none.symm
  | cons name names ih =>
      rw [List.forall_mem_cons] at hnames
      have hrest : ((T.record name).recordAll names).find? k = ((T.record name).find? k).or
          (names.find? fun name => Key.ofName name = k) :=
        ih (hT.record hnames.1) (by rwa [capacity_record]) hnames.2
      rw [recordAll, List.foldl_cons, List.find?_cons]
      refine hrest.trans ?_
      rw [hT.find?_record hroom hnames.1, Option.or_assoc]
      by_cases hk : Key.ofName name = k <;> simp [hk]

end Within

variable {cap : Nat}

/-- A table that was empty and has room for as many entries as there are different keys loses none.
-/
theorem entries_recordAll_of_room (hroom : (names.map Key.ofName).toFinset.card ≤ cap) :
    ((empty cap).recordAll names).entries = (empty cap).inserted names := by
  refine (within_empty cap _).entries_recordAll hroom fun name hname => ?_
  exact List.mem_toFinset.mpr (List.mem_map_of_mem hname)

/-- It shows each key as that was first spelled. -/
theorem find?_recordAll_empty (hroom : (names.map Key.ofName).toFinset.card ≤ cap) (k : Key) :
    ((empty cap).recordAll names).find? k = names.find? fun name => Key.ofName name = k := by
  refine (within_empty cap _).find?_recordAll hroom (fun name hname => ?_) k
  exact List.mem_toFinset.mpr (List.mem_map_of_mem hname)

/-- It remembers every name entered. -/
theorem isSome_find?_recordAll_empty (hroom : (names.map Key.ofName).toFinset.card ≤ cap)
    (hk : k ∈ names.map Key.ofName) :
    (((empty cap).recordAll names).find? k).isSome = true := by
  obtain ⟨name, hname, rfl⟩ := List.mem_map.mp hk
  rw [find?_recordAll_empty hroom, List.find?_isSome]
  exact ⟨name, hname, decide_eq_true rfl⟩

theorem spell_recordAll_empty {before after : List String}
    (hroom : ((before ++ name :: after).map Key.ofName).toFinset.card ≤ cap)
    (hfirst : Key.ofName name ∉ before.map Key.ofName) :
    ((empty cap).recordAll (before ++ name :: after)).spell (Key.ofName name) = name := by
  have hnone : (before.find? fun other => Key.ofName other = Key.ofName name) = none := by
    rw [List.find?_eq_none]
    intro other hother hsame
    apply hfirst
    rw [← of_decide_eq_true hsame]
    exact List.mem_map_of_mem hother
  rw [spell, find?_recordAll_empty hroom, List.find?_append, hnone]
  simp

/-- A table is a bounded queue of spellings. After any names it holds at most `cap` entries, no key
twice and each name under its key: the last of the entries made so far, in order, as many as fit. A
name whose key is there makes no entry and changes nothing; any other makes one, at the end, whether
it had one before or not. If all names have at most `cap` keys between them, no entry ever goes, and
a key is shown as it was first spelled, whatever else is spelled with that key. -/
theorem recordAll_first_in_first_out (cap : Nat) :
    (∀ names,
      ((empty cap).recordAll names).size ≤ cap ∧
      ((empty cap).recordAll names).keys.Nodup ∧
      (∀ entry ∈ ((empty cap).recordAll names).entries, Key.ofName entry.2 = entry.1) ∧
      ((empty cap).recordAll names).entries <:+ (empty cap).inserted names ∧
      ((empty cap).recordAll names).size = min cap ((empty cap).inserted names).length) ∧
    (empty cap).inserted [] = [] ∧
    (∀ names name, Key.ofName name ∈ ((empty cap).recordAll names).keys →
      (empty cap).inserted (names ++ [name]) = (empty cap).inserted names ∧
      (empty cap).recordAll (names ++ [name]) = (empty cap).recordAll names) ∧
    (∀ names name, Key.ofName name ∉ ((empty cap).recordAll names).keys →
      (empty cap).inserted (names ++ [name]) =
        (empty cap).inserted names ++ [(Key.ofName name, name)] ∧
      (0 < cap → ((empty cap).recordAll (names ++ [name])).entries.getLast? =
        some (Key.ofName name, name))) ∧
    (∀ names, (names.map Key.ofName).toFinset.card ≤ cap → ∀ sofar, sofar <+: names →
      ((empty cap).recordAll sofar).entries = (empty cap).inserted sofar ∧
      ((empty cap).recordAll sofar).entries <+: ((empty cap).recordAll names).entries ∧
      ∀ before name after, sofar = before ++ name :: after →
        Key.ofName name ∉ before.map Key.ofName →
          ((empty cap).recordAll sofar).spell (Key.ofName name) = name) := by
  refine ⟨fun names => ?_, rfl, fun names name hkey => ?_, fun names name hkey => ?_, ?_⟩
  · have hsize := size_recordAll_empty cap names
    have hsuffix := entries_suffix_inserted cap names
    refine ⟨hsize ▸ Nat.min_le_left _ _, nodup_keys_recordAll (within_empty cap ∅).1 names, ?_,
      hsuffix, hsize⟩
    exact fun entry hentry => key_of_mem_inserted (hsuffix.mem hentry)
  · refine ⟨inserted_concat_of_mem hkey, ?_⟩
    rw [recordAll_append]
    exact record_of_mem hkey
  · have hmade := inserted_concat_of_not_mem hkey
    refine ⟨hmade, fun hcap => ?_⟩
    obtain ⟨n, rfl⟩ := Nat.exists_eq_add_one.mpr hcap
    rw [entries_recordAll_empty, hmade, List.rtake_concat_succ, List.getLast?_concat]
  · rintro _ hroom sofar ⟨later, rfl⟩
    -- The names so far have no more keys than all have.
    have hroom' : (sofar.map Key.ofName).toFinset.card ≤ cap := by
      refine (Finset.card_le_card fun k hk => ?_).trans hroom
      rw [List.mem_toFinset] at hk ⊢
      rw [List.map_append]
      exact List.mem_append_left _ hk
    refine ⟨entries_recordAll_of_room hroom', ?_, ?_⟩
    · rw [entries_recordAll_of_room hroom', entries_recordAll_of_room hroom, inserted_append]
      exact List.prefix_append _ _
    · rintro before name after rfl hfirst
      exact spell_recordAll_empty hroom' hfirst

end Spellings

end SproutLang
