/-!
The BLAKE2b digest of a byte text, without a key, for every digest length from one to
sixty-four bytes.
-/

namespace Wavetable.Digest.Blake2b

/-- The eight words that are carried from block to block. -/
abbrev Chain := Vector UInt64 8

/-- The sixteen words of a message block, and of the state inside one compression. -/
abbrev Words := Vector UInt64 16

/-- The initial chain before the parameters are mixed in. -/
def initialChain : Chain :=
  #v[0x6a09e667f3bcc908, 0xbb67ae8584caa73b, 0x3c6ef372fe94f82b, 0xa54ff53a5f1d36f1,
     0x510e527fade682d1, 0x9b05688c2b3e6c1f, 0x1f83d9abfb41bd6b, 0x5be0cd19137e2179]

/-- The order in which each round takes the words of the message block. -/
def schedule : List (Vector (Fin 16) 16) :=
  [#v[0, 1, 2, 3, 4, 5, 6, 7, 8, 9, 10, 11, 12, 13, 14, 15],
   #v[14, 10, 4, 8, 9, 15, 13, 6, 1, 12, 0, 2, 11, 7, 5, 3],
   #v[11, 8, 12, 0, 5, 2, 15, 13, 10, 14, 3, 6, 7, 1, 9, 4],
   #v[7, 9, 3, 1, 13, 12, 11, 14, 2, 6, 5, 10, 4, 0, 15, 8],
   #v[9, 0, 5, 7, 2, 4, 10, 15, 14, 1, 11, 12, 6, 8, 3, 13],
   #v[2, 12, 6, 10, 0, 11, 8, 3, 4, 13, 7, 5, 15, 14, 1, 9],
   #v[12, 5, 1, 15, 14, 13, 4, 10, 0, 7, 6, 3, 9, 2, 8, 11],
   #v[13, 11, 7, 14, 12, 1, 3, 9, 5, 0, 15, 4, 8, 6, 2, 10],
   #v[6, 15, 14, 9, 11, 3, 0, 8, 12, 2, 13, 7, 1, 4, 10, 5],
   #v[10, 2, 8, 4, 7, 6, 1, 5, 15, 11, 9, 14, 3, 12, 13, 0],
   #v[0, 1, 2, 3, 4, 5, 6, 7, 8, 9, 10, 11, 12, 13, 14, 15],
   #v[14, 10, 4, 8, 9, 15, 13, 6, 1, 12, 0, 2, 11, 7, 5, 3]]

/-- A word with its low bits moved to the top. -/
def rotateRight (word count : UInt64) : UInt64 :=
  (word >>> count) ||| (word <<< (64 - count))

/-- Two message words mixed into four words of the state. -/
def mix (state : Words) (a b c d : Fin 16) (x y : UInt64) : Words :=
  let va := state[a] + state[b] + x
  let vd := rotateRight (state[d] ^^^ va) 32
  let vc := state[c] + vd
  let vb := rotateRight (state[b] ^^^ vc) 24
  let va := va + vb + y
  let vd := rotateRight (vd ^^^ va) 16
  let vc := vc + vd
  let vb := rotateRight (vb ^^^ vc) 63
  (((state.set a va).set b vb).set c vc).set d vd

/-- One round: the columns of the state are mixed, then its diagonals. -/
def round (block state : Words) (order : Vector (Fin 16) 16) : Words :=
  let word := fun (i : Fin 16) => block[order[i]]
  let state := mix state 0 4 8 12 (word 0) (word 1)
  let state := mix state 1 5 9 13 (word 2) (word 3)
  let state := mix state 2 6 10 14 (word 4) (word 5)
  let state := mix state 3 7 11 15 (word 6) (word 7)
  let state := mix state 0 5 10 15 (word 8) (word 9)
  let state := mix state 1 6 11 12 (word 10) (word 11)
  let state := mix state 2 7 8 13 (word 12) (word 13)
  mix state 3 4 9 14 (word 14) (word 15)

/-- The state before the first round. The count of bytes so far is far below `2 ^ 64`, so its
high word stays zero.
-/
def startState (chain : Chain) (count : Nat) (last : Bool) : Words :=
  let state : Words := (chain ++ initialChain).cast rfl
  let state := state.set 12 (state[12] ^^^ UInt64.ofNat count)
  if last then state.set 14 (~~~ state[14]) else state

/-- The chain after a block. -/
def compress (chain : Chain) (block : Words) (count : Nat) (last : Bool) : Chain :=
  let state := schedule.foldl (round block) (startState chain count last)
  Vector.ofFn fun i => chain[i] ^^^ state[i.val] ^^^ state[i.val + 8]

/-- The word that up to eight bytes write, least significant first. -/
def wordOfBytes (bytes : List UInt8) : UInt64 :=
  bytes.foldr (fun byte word => (word <<< 8) ||| byte.toUInt64) 0

/-- The block that up to 128 bytes fill, with zeros for the missing ones. -/
def blockOfBytes (bytes : List UInt8) : Words :=
  Vector.ofFn fun i => wordOfBytes ((bytes.drop (8 * i.val)).take 8)

/-- The chain after the rest of a message; the fuel is a bound on its count of blocks. -/
def absorb (chain : Chain) (count : Nat) : Nat → List UInt8 → Chain
  | 0, _ => chain
  | fuel + 1, bytes =>
      if bytes.length ≤ 128 then
        compress chain (blockOfBytes bytes) (count + bytes.length) true
      else
        let chain := compress chain (blockOfBytes (bytes.take 128)) (count + 128) false
        absorb chain (count + 128) fuel (bytes.drop 128)

/-- The chain with the digest length mixed in. -/
def seededChain (length : Nat) : Chain :=
  initialChain.set 0 (initialChain[0] ^^^ 0x01010000 ^^^ UInt64.ofNat length)

/-- The bytes of a word, least significant first. -/
def bytesOfWord (word : UInt64) : List UInt8 :=
  (List.range 8).map fun i => (word >>> UInt64.ofNat (8 * i)).toUInt8

/-- The digest of a message, cut to the given length. -/
def digest (length : Nat) (message : List UInt8) : List UInt8 :=
  let chain := absorb (seededChain length) 0 (message.length / 128 + 1) message
  (chain.toList.flatMap bytesOfWord).take length

end Wavetable.Digest.Blake2b
