/-!
The BLAKE2b digest without a key, cut to its first 64 bits. A message is read in blocks of 128
bytes, the last one filled up with zeros; each block is mixed into a chain of eight words by twelve
rounds over a work vector of sixteen words.
-/

namespace SproutLang.Digest.Blake2b

def initial : Vector UInt64 8 :=
  #v[0x6a09e667f3bcc908, 0xbb67ae8584caa73b, 0x3c6ef372fe94f82b, 0xa54ff53a5f1d36f1,
     0x510e527fade682d1, 0x9b05688c2b3e6c1f, 0x1f83d9abfb41bd6b, 0x5be0cd19137e2179]

/-- The parameters of an unkeyed digest of eight bytes, in sequential mode. -/
def parameters : UInt64 := 0x01010008

/-- The four words of the work vector that one mixing step touches: the columns, then the
diagonals. -/
def lanes : List (Fin 16 × Fin 16 × Fin 16 × Fin 16) :=
  [(0, 4, 8, 12), (1, 5, 9, 13), (2, 6, 10, 14), (3, 7, 11, 15),
   (0, 5, 10, 15), (1, 6, 11, 12), (2, 7, 8, 13), (3, 4, 9, 14)]

def schedule : List (List (Fin 16 × Fin 16)) :=
  [[(0, 1), (2, 3), (4, 5), (6, 7), (8, 9), (10, 11), (12, 13), (14, 15)],
   [(14, 10), (4, 8), (9, 15), (13, 6), (1, 12), (0, 2), (11, 7), (5, 3)],
   [(11, 8), (12, 0), (5, 2), (15, 13), (10, 14), (3, 6), (7, 1), (9, 4)],
   [(7, 9), (3, 1), (13, 12), (11, 14), (2, 6), (5, 10), (4, 0), (15, 8)],
   [(9, 0), (5, 7), (2, 4), (10, 15), (14, 1), (11, 12), (6, 8), (3, 13)],
   [(2, 12), (6, 10), (0, 11), (8, 3), (4, 13), (7, 5), (15, 14), (1, 9)],
   [(12, 5), (1, 15), (14, 13), (4, 10), (0, 7), (6, 3), (9, 2), (8, 11)],
   [(13, 11), (7, 14), (12, 1), (3, 9), (5, 0), (15, 4), (8, 6), (2, 10)],
   [(6, 15), (14, 9), (11, 3), (0, 8), (12, 2), (13, 7), (1, 4), (10, 5)],
   [(10, 2), (8, 4), (7, 6), (1, 5), (15, 11), (9, 14), (3, 12), (13, 0)],
   [(0, 1), (2, 3), (4, 5), (6, 7), (8, 9), (10, 11), (12, 13), (14, 15)],
   [(14, 10), (4, 8), (9, 15), (13, 6), (1, 12), (0, 2), (11, 7), (5, 3)]]

/-- Rotation of a word to the right by `n` bits, for `n` between 1 and 63. -/
def rotateRight (x n : UInt64) : UInt64 :=
  (x >>> n) ||| (x <<< (64 - n))

def mix (v : Vector UInt64 16) (lane : Fin 16 × Fin 16 × Fin 16 × Fin 16) (x y : UInt64) :
    Vector UInt64 16 :=
  let (a, b, c, d) := lane
  let a₁ := v.get a + v.get b + x
  let d₁ := rotateRight (v.get d ^^^ a₁) 32
  let c₁ := v.get c + d₁
  let b₁ := rotateRight (v.get b ^^^ c₁) 24
  let a₂ := a₁ + b₁ + y
  let d₂ := rotateRight (d₁ ^^^ a₂) 16
  let c₂ := c₁ + d₂
  let b₂ := rotateRight (b₁ ^^^ c₂) 63
  (((v.set a.val a₂ a.isLt).set b.val b₂ b.isLt).set c.val c₂ c.isLt).set d.val d₂ d.isLt

def round (m : Vector UInt64 16) (v : Vector UInt64 16) (row : List (Fin 16 × Fin 16)) :
    Vector UInt64 16 :=
  (lanes.zip row).foldl (fun v step => mix v step.1 (m.get step.2.1) (m.get step.2.2)) v

/-- Mixes the block `m` into the chain `h`. The counter `t` is the number of message bytes up to
the end of the block, and `last` marks the final block. -/
def compress (h : Vector UInt64 8) (m : Vector UInt64 16) (t : Nat) (last : Bool) :
    Vector UInt64 8 :=
  let v : Vector UInt64 16 := h ++ initial
  let v := v.set 12 (v.get 12 ^^^ UInt64.ofNat t)
  let v := v.set 13 (v.get 13 ^^^ UInt64.ofNat (t >>> 64))
  let v := if last then v.set 14 (v.get 14 ^^^ 0xFFFFFFFFFFFFFFFF) else v
  let w := schedule.foldl (round m) v
  Vector.ofFn fun i : Fin 8 => h.get i ^^^ w.get ⟨i, by omega⟩ ^^^ w.get ⟨i + 8, by omega⟩

/-- The byte at position `pos`; those past the end count as zero. -/
def byteAt (message : ByteArray) (pos : Nat) : UInt8 :=
  if h : pos < message.size then message[pos] else 0

def wordAt (message : ByteArray) (pos : Nat) : UInt64 :=
  (List.range 8).foldr (fun k w => (w <<< 8) ||| (byteAt message (pos + k)).toUInt64) 0

def blockAt (message : ByteArray) (pos : Nat) : Vector UInt64 16 :=
  Vector.ofFn fun i => wordAt message (pos + 8 * i)

/-- Mixes in the blocks from position `pos` on, the last one after `more` others. -/
def absorb (message : ByteArray) : Nat → Nat → Vector UInt64 8 → Vector UInt64 8
  | 0, pos, h => compress h (blockAt message pos) message.size true
  | more + 1, pos, h =>
      absorb message more (pos + 128) (compress h (blockAt message pos) (pos + 128) false)

def digest64 (message : ByteArray) : UInt64 :=
  let h := initial.set 0 (initial.get 0 ^^^ parameters)
  (absorb message ((message.size - 1) / 128) 0 h).get 0

end SproutLang.Digest.Blake2b
