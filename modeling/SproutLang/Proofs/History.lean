import Mathlib.Data.List.Induction
import Mathlib.Data.List.Nodup
import SproutLang.Native
import SproutLang.Proofs.Scope

/-!
Scopes by their history. A host makes a scope without bindings, from a mapping or as a copy of
another, and then changes it: it binds keys one by one or a whole mapping at once, and spelled names
and natives by the keys that their names have. Whatever the changes, they come down to single
writes, and a scope is settled by the row of these: its keys are the written ones in the order of
their first write, and a key stands for what was written to it last.

`Tracks ws s` says this of the writes `ws` and the scope `s`. One write keeps it, and so everything
that is made of writes does.
-/

namespace SproutLang.Scope

/-! ### Writes -/

/-- What was written last to a key. -/
def lastWrite (ws : List (Key × Value)) (k : Key) : Option Value :=
  ws.reverse.lookup k

/-- The written keys in the order of their first write, each with what was written to it last. -/
def settled (ws : List (Key × Value)) : List (Key × Value) :=
  (ws.map Prod.fst).eraseDups.filterMap fun k => (lastWrite ws k).map (Prod.mk k)

theorem lastWrite_singleton (k l : Key) (v : Value) :
    lastWrite [(k, v)] l = if l = k then some v else none :=
  lookup_cons_eq_ite (k, v)

theorem lastWrite_append (ws xs : List (Key × Value)) (k : Key) :
    lastWrite (ws ++ xs) k = (lastWrite xs k).or (lastWrite ws k) := by
  rw [lastWrite, List.reverse_append, List.lookup_append]
  rfl

theorem eraseDups_concat (ks : List Key) (k : Key) :
    (ks ++ [k]).eraseDups = if k ∈ ks then ks.eraseDups else ks.eraseDups ++ [k] := by
  rw [List.eraseDups_append, List.removeAll, List.filter_cons, List.elem_eq_mem]
  by_cases hk : k ∈ ks
  · simp [hk]
  · simp [hk, List.eraseDups_cons]

/-- Repetitions may be left out of a row before it is put behind another. -/
theorem eraseDups_append_eraseDups (ks ls : List Key) :
    (ks ++ ls.eraseDups).eraseDups = (ks ++ ls).eraseDups := by
  induction ls using List.reverseRecOn with
  | nil => rfl
  | append_singleton ls l ih =>
      rw [← List.append_assoc, eraseDups_concat, eraseDups_concat]
      by_cases hl : l ∈ ls
      · rw [if_pos hl, if_pos (List.mem_append_right _ hl), ih]
      · rw [if_neg hl, ← List.append_assoc, eraseDups_concat, ih]
        simp

/-! ### Scopes that writes lead to -/

theorem keys_insertBinding (k : Key) (v : Value) (bs : List (Key × Value)) :
    (insertBinding k v bs).map Prod.fst =
      if k ∈ bs.map Prod.fst then bs.map Prod.fst else bs.map Prod.fst ++ [k] := by
  induction bs with
  | nil => rfl
  | cons b bs ih =>
      rw [insertBinding]
      split
      · rename_i hb
        subst hb
        simp
      · rename_i hb
        have hmem : k ∈ b.1 :: bs.map Prod.fst ↔ k ∈ bs.map Prod.fst := by
          rw [List.mem_cons, or_iff_right fun heq => hb heq.symm]
        simp only [List.map_cons, ih, hmem]
        split <;> rfl

/-- Bindings without a repeated key are given by the keys and by what is found under each. -/
theorem bindings_eq_filterMap {bs : List (Key × Value)} (h : (bs.map Prod.fst).Nodup) :
    bs = (bs.map Prod.fst).filterMap fun k => (bs.lookup k).map (Prod.mk k) := by
  induction bs with
  | nil => rfl
  | cons b bs ih =>
      rw [List.map_cons, List.nodup_cons] at h
      have hrest : ((bs.map Prod.fst).filterMap fun k => ((b :: bs).lookup k).map (Prod.mk k)) =
          (bs.map Prod.fst).filterMap fun k => (bs.lookup k).map (Prod.mk k) := by
        refine List.filterMap_congr fun k hk => ?_
        have hne : k ≠ b.1 := by
          rintro rfl
          exact h.1 hk
        rw [lookup_cons_eq_ite, if_neg hne]
      rw [List.map_cons, List.filterMap_cons, lookup_cons_eq_ite, if_pos rfl, hrest, ← ih h.2]
      rfl

/-- The scope is what the writes, one after another, lead to. -/
structure Tracks (ws : List (Key × Value)) (s : Scope) : Prop where
  nodup : s.keys.Nodup
  keys_eq : s.keys = (ws.map Prod.fst).eraseDups
  find?_eq : ∀ k, s.find? k = lastWrite ws k

namespace Tracks

variable {ws : List (Key × Value)} {s : Scope}

theorem empty : Tracks [] empty :=
  ⟨List.nodup_nil, rfl, fun _ => rfl⟩

theorem insert (h : Tracks ws s) (k : Key) (v : Value) :
    Tracks (ws ++ [(k, v)]) (s.insert k v) := by
  have hkeys : (s.insert k v).keys = if k ∈ s.keys then s.keys else s.keys ++ [k] :=
    keys_insertBinding k v s.bindings
  refine ⟨?_, ?_, fun l => ?_⟩
  · rw [hkeys]
    split
    · exact h.nodup
    · rename_i hk
      rw [← List.concat_eq_append]
      exact h.nodup.concat hk
  · rw [hkeys, h.keys_eq, List.map_append, List.map_singleton, eraseDups_concat]
    simp only [List.mem_eraseDups]
  · rw [find?_insert, h.find?_eq, lastWrite_append, lastWrite_singleton]
    split <;> rfl

theorem insertAll (h : Tracks ws s) (items : List (Key × Value)) :
    Tracks (ws ++ items) (s.insertAll items) := by
  induction items generalizing ws s with
  | nil => rwa [List.append_nil]
  | cons item items ih =>
      have hrest := ih (h.insert item.1 item.2)
      rw [List.append_assoc] at hrest
      exact hrest

theorem bindings_eq (h : Tracks ws s) : s.bindings = settled ws := by
  have hbindings := bindings_eq_filterMap h.nodup
  rw [show s.bindings.map Prod.fst = s.keys from rfl, h.keys_eq] at hbindings
  rw [hbindings, settled]
  exact List.filterMap_congr fun k _ => congrArg (Option.map (Prod.mk k)) (h.find?_eq k)

end Tracks

theorem tracks_ofList (items : List (Key × Value)) : Tracks items (ofList items) :=
  Tracks.empty.insertAll items

theorem keys_settled (ws : List (Key × Value)) :
    (settled ws).map Prod.fst = (ws.map Prod.fst).eraseDups := by
  rw [← (tracks_ofList ws).bindings_eq]
  exact (tracks_ofList ws).keys_eq

/-- With no key written twice it does not matter which end one starts from. -/
theorem lastWrite_settled (ws : List (Key × Value)) (k : Key) :
    lastWrite (settled ws) k = lastWrite ws k := by
  have htracks := tracks_ofList ws
  rw [← htracks.find?_eq, ← htracks.bindings_eq]
  exact find?_of_perm (t := ⟨(ofList ws).bindings.reverse⟩) htracks.nodup (List.reverse_perm _)

/-- What is behind others may be settled first. -/
theorem Tracks.of_settled {ws items : List (Key × Value)} {s : Scope}
    (h : Tracks (ws ++ items) s) : Tracks (ws ++ settled items) s where
  nodup := h.nodup
  keys_eq := by
    rw [h.keys_eq, List.map_append, List.map_append, keys_settled, eraseDups_append_eraseDups]
  find?_eq := by
    intro k
    rw [h.find?_eq, lastWrite_append, lastWrite_append, lastWrite_settled]

/-! ### Histories -/

inductive Change
  /-- binds a key -/
  | define (k : Key) (v : Value)
  /-- binds the keys of a mapping, given by its items; of two for one key the later gives the
  value -/
  | update (items : List (Key × Value))
  /-- binds a spelled name -/
  | bind (name : String) (v : Value)
  /-- binds a spelled name to a native, whose own name is `own` -/
  | bindNative (name : String) (op : NativeOp) (own : Option String)
  /-- binds the natives of the language -/
  | register

namespace Change

def apply (s : Scope) : Change → Scope
  | .define k v => s.insert k v
  | .update items => s.insertAll items
  | .bind name v => s.bindName name v
  | .bindNative name op own => s.bindName name (.native op (Native.nameFor (some name) own))
  | .register => s.bindNames Native.standard

def writes : Change → List (Key × Value)
  | .define k v => [(k, v)]
  | .update items => settled items
  | .bind name v => [(Key.ofName name, v)]
  | .bindNative name op own =>
      [(Key.ofName name, .native op (Native.nameFor (some name) own))]
  | .register => Native.standard.map fun item => (Key.ofName item.1, item.2)

end Change

inductive History
  /-- a scope without bindings -/
  | empty
  /-- a scope with the bindings of a mapping, given by its items -/
  | ofItems (items : List (Key × Value))
  /-- a scope with the bindings that another one has by now -/
  | copy (other : History)
  /-- a scope that has been changed -/
  | change (before : History) (c : Change)

namespace History

def scope : History → Scope
  | .empty => .empty
  | .ofItems items => .ofList items
  | .copy other => other.scope
  | .change before c => c.apply before.scope

/-- The writes of the history: first the bindings that the scope started with, in their order, then
those of the changes. -/
def writes : History → List (Key × Value)
  | .empty => []
  | .ofItems items => settled items
  | .copy other => other.scope.bindings
  | .change before c => before.writes ++ c.writes

end History

theorem bindNames_eq_insertAll (s : Scope) (items : List (String × Value)) :
    s.bindNames items = s.insertAll (items.map fun item => (Key.ofName item.1, item.2)) := by
  rw [insertAll, List.foldl_map]
  rfl

/-- One change keeps track. -/
theorem Tracks.change {ws : List (Key × Value)} {s : Scope} (h : Tracks ws s) (c : Change) :
    Tracks (ws ++ c.writes) (c.apply s) := by
  cases c with
  | define k v => exact h.insert k v
  | update items => exact (h.insertAll items).of_settled
  | bind name v => exact h.insert _ v
  | bindNative name op own => exact h.insert _ _
  | register =>
      rw [Change.apply, bindNames_eq_insertAll]
      exact h.insertAll _

namespace Tracks

variable {ws : List (Key × Value)} {s : Scope}

end Tracks

end SproutLang.Scope
