import SproutLang.Digest.Blake2b
import SproutLang.Text.Basic

/-!
Keys of names. The language knows a name only by its key, the 64-bit digest of its spelling: two
spellings with one key are one name.
-/

namespace SproutLang

structure Key where
  number : Nat
  deriving DecidableEq, Repr

namespace Key

def ofName (name : String) : Key :=
  ⟨(Digest.Blake2b.digest64 name.toUTF8).toNat⟩

/-- What stands for a name whose spelling is not known: its key in base sixteen. -/
def anonymous (k : Key) : String :=
  "#" ++ String.ofList (Text.hexDigits 16 k.number)

end Key

end SproutLang
