import SproutLang.Key

/-!
The table of spellings. It remembers how names were written, so that messages and printed code can
show them; nothing else reads it. It holds a bounded number of entries, oldest first. A name whose
key is present is not entered again, and does not move; when the table is too long the oldest
entries go.
-/

namespace SproutLang

/-- Spellings by key, oldest first, at most `capacity` of them. -/
structure Spellings where
  capacity : Nat
  entries : List (Key × String)
  deriving DecidableEq, Repr

namespace Spellings

def defaultCapacity : Nat := 65536

def empty (capacity : Nat) : Spellings :=
  ⟨capacity, []⟩

def find? (t : Spellings) (k : Key) : Option String :=
  t.entries.lookup k

def size (t : Spellings) : Nat :=
  t.entries.length

/-- Enters the spelling `name` under its key, unless there is an entry for that key. -/
def record (t : Spellings) (name : String) : Spellings :=
  let k := Key.ofName name
  if (t.find? k).isSome then t
  else
    let entries := t.entries ++ [(k, name)]
    { t with entries := entries.drop (entries.length - t.capacity) }

def recordAll (t : Spellings) (names : List String) : Spellings :=
  names.foldl record t

theorem recordAll_append (t : Spellings) (ms ns : List String) :
    t.recordAll (ms ++ ns) = (t.recordAll ms).recordAll ns :=
  List.foldl_append

def spell (t : Spellings) (k : Key) : String :=
  (t.find? k).getD k.anonymous

end Spellings

end SproutLang
