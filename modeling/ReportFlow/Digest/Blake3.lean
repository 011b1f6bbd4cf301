import ReportFlow.Numeric.Power

/-!
The BLAKE3 hash. A message is cut into chunks of 1024 bytes, a chunk into blocks of 64; chunks are
the leaves of a binary tree whose left subtrees are complete.
-/

namespace ReportFlow

attribute [local instance] corePower

namespace Blake3

abbrev Key := Vector UInt32 8

abbrev Words := Vector UInt32 16

def initialKey : Key :=
  #v[0x6A09E667, 0xBB67AE85, 0x3C6EF372, 0xA54FF53A, 0x510E527F, 0x9B05688C, 0x1F83D9AB, 0x5BE0CD19]

def rotateRight (w : UInt32) (n : UInt32) : UInt32 := (w >>> n) ||| (w <<< (32 - n))

/-- Mixes two words of a block into four words of the state. -/
def mix (s : Words) (a b c d : Fin 16) (x y : UInt32) : Words :=
  let wa := s[a] + s[b] + x
  let wd := rotateRight (s[d] ^^^ wa) 16
  let wc := s[c] + wd
  let wb := rotateRight (s[b] ^^^ wc) 12
  let wa := wa + wb + y
  let wd := rotateRight (wd ^^^ wa) 8
  let wc := wc + wd
  let wb := rotateRight (wb ^^^ wc) 7
  (((s.set a wa).set b wb).set c wc).set d wd

/-- One round: the columns of the state, then its diagonals. -/
def round (s m : Words) : Words :=
  let s := mix s 0 4 8 12 m[0] m[1]
  let s := mix s 1 5 9 13 m[2] m[3]
  let s := mix s 2 6 10 14 m[4] m[5]
  let s := mix s 3 7 11 15 m[6] m[7]
  let s := mix s 0 5 10 15 m[8] m[9]
  let s := mix s 1 6 11 12 m[10] m[11]
  let s := mix s 2 7 8 13 m[12] m[13]
  mix s 3 4 9 14 m[14] m[15]

def permute (m : Words) : Words :=
  #v[m[2], m[6], m[3], m[10], m[7], m[0], m[4], m[13], m[1], m[11], m[12], m[5], m[9], m[14], m[15],
    m[8]]

def rounds : Nat → Words → Words → Words
  | 0, s, _ => s
  | n + 1, s, m => rounds n (round s m) (permute m)

/-- The last block of a chunk, or the keys of two subtrees, before it is compressed. -/
structure Node where
  key : Key
  block : Words
  counter : Nat
  length : Nat
  flags : UInt32

namespace Node

def compress (n : Node) : Words :=
  let k := n.key
  let s : Words :=
    #v[k[0], k[1], k[2], k[3], k[4], k[5], k[6], k[7], initialKey[0], initialKey[1], initialKey[2],
      initialKey[3], UInt32.ofNat n.counter, UInt32.ofNat (n.counter / 2 ^ (32 : Nat)),
      UInt32.ofNat n.length, n.flags]
  let s := rounds 7 s n.block
  Vector.ofFn fun (⟨i, _⟩ : Fin 16) =>
    if h : i < 8 then s[i] ^^^ s[i + 8] else s[i] ^^^ k[i - 8]

def chainingKey (n : Node) : Key :=
  let w := n.compress
  #v[w[0], w[1], w[2], w[3], w[4], w[5], w[6], w[7]]

end Node

def chunkStart : UInt32 := 1
def chunkEnd : UInt32 := 2
def parentFlag : UInt32 := 4
def rootFlag : UInt32 := 8

/-- The word at a place of a block, low byte first; bytes past the end are zero. -/
def wordAt (bytes : List UInt8) (i : Nat) : UInt32 :=
  let byte (j : Nat) : UInt32 := (bytes.getD (4 * i + j) 0).toUInt32
  byte 0 ||| byte 1 <<< 8 ||| byte 2 <<< 16 ||| byte 3 <<< 24

def blockWords (bytes : List UInt8) : Words := Vector.ofFn fun i : Fin 16 => wordAt bytes i.val

/-- Blocks of a chunk, at most `fuel`; `start` flags the first of them. -/
def chunkNode (counter : Nat) : Nat → Key → UInt32 → List UInt8 → Node
  | 0, key, start, bytes => ⟨key, blockWords bytes, counter, bytes.length, start ||| chunkEnd⟩
  | fuel + 1, key, start, bytes =>
    if bytes.length ≤ 64 then
      ⟨key, blockWords bytes, counter, bytes.length, start ||| chunkEnd⟩
    else
      let node : Node := ⟨key, blockWords (bytes.take 64), counter, 64, start⟩
      chunkNode counter fuel node.chainingKey 0 (bytes.drop 64)

def parentNode (left right : Key) : Node where
  key := initialKey
  block := left ++ right
  counter := 0
  length := 64
  flags := parentFlag

/-- Bytes of the left subtree: the largest power of two of chunks that leaves something over. -/
def leftLength (length : Nat) : Nat := 1024 * 2 ^ Nat.log2 ((length - 1) / 1024)

/-- The root of the tree over some bytes, at most `fuel` levels high. -/
def tree : Nat → Nat → List UInt8 → Node
  | 0, counter, bytes => chunkNode counter 16 initialKey chunkStart bytes
  | fuel + 1, counter, bytes =>
    if bytes.length ≤ 1024 then chunkNode counter 16 initialKey chunkStart bytes
    else
      let left := leftLength bytes.length
      parentNode (tree fuel counter (bytes.take left)).chainingKey
        (tree fuel (counter + left / 1024) (bytes.drop left)).chainingKey

def hexByte (b : UInt8) : List Char := [Nat.digitChar (b.toNat / 16), Nat.digitChar (b.toNat % 16)]

def wordHex (w : UInt32) : List Char :=
  [w.toUInt8, (w >>> 8).toUInt8, (w >>> 16).toUInt8, (w >>> 24).toUInt8].flatMap hexByte

/-- The first sixteen hexadecimal digits of the hash. -/
def shortHex (bytes : List UInt8) : List Char :=
  let root := tree bytes.length 0 bytes
  let w := ({ root with flags := root.flags ||| rootFlag } : Node).compress
  wordHex w[0] ++ wordHex w[1]

end Blake3

end ReportFlow
