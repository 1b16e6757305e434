import SproutLang.Expr.Printer

/-!
Scopes: what the names stand for. A scope is a flat list of bindings in the order in which the keys
were first bound; binding a key again changes its value and leaves its place.
-/

namespace SproutLang

/-- Bindings of keys to values, in the order of their first binding. -/
structure Scope where
  bindings : List (Key × Value)

namespace Scope

def empty : Scope := ⟨[]⟩

def find? (s : Scope) (k : Key) : Option Value :=
  s.bindings.lookup k

def contains (s : Scope) (k : Key) : Bool :=
  (s.find? k).isSome

def keys (s : Scope) : List Key :=
  s.bindings.map Prod.fst

def size (s : Scope) : Nat :=
  s.bindings.length

/-- Binds `k` in a list of bindings: in its place if it has one, else at the end. -/
def insertBinding (k : Key) (v : Value) : List (Key × Value) → List (Key × Value)
  | [] => [(k, v)]
  | (l, w) :: rest => if l = k then (k, v) :: rest else (l, w) :: insertBinding k v rest

def insert (s : Scope) (k : Key) (v : Value) : Scope :=
  ⟨insertBinding k v s.bindings⟩

def insertAll (s : Scope) (items : List (Key × Value)) : Scope :=
  items.foldl (fun s item => s.insert item.1 item.2) s

/-- The scope with the given bindings; of two for one key the later gives the value. -/
def ofList (items : List (Key × Value)) : Scope :=
  empty.insertAll items

def bindName (s : Scope) (name : String) (v : Value) : Scope :=
  s.insert (Key.ofName name) v

def bindNames (s : Scope) (items : List (String × Value)) : Scope :=
  items.foldl (fun s item => s.bindName item.1 item.2) s

def render (spell : Key → String) (s : Scope) : String :=
  "\x7b" ++
    Text.joinWith ", " (s.bindings.map fun b => spell b.1 ++ ": " ++ b.2.render spell) ++ "\x7d"

def render? (depth : Nat) (spell : Key → String) (s : Scope) : Except PrintFault String :=
  match s.bindings.findSome? fun b => b.2.printFault? depth with
  | some fault => .error fault
  | none => .ok (s.render spell)

def describe (spell : Key → String) (s : Scope) : String :=
  "<Environment " ++ s.render spell ++ ">"

end Scope

end SproutLang
