/-!
The BLAKE3 hash with its default 32-byte output. The input is cut into chunks of 1024
bytes, a chunk into blocks of 64, and the chunks are the leaves of a binary tree whose
left subtrees are full. All words are little-endian.
-/
namespace RowEngine.Blake3

def blockBytes : Nat := 64

def chunkBytes : Nat := 1024

def chunkStart : UInt32 := 1

def chunkEnd : UInt32 := 2

def parentFlag : UInt32 := 4

def rootFlag : UInt32 := 8

/-- The chaining value that every chunk begins with. -/
def initial : Vector UInt32 8 :=
  #v[0x6A09E667, 0xBB67AE85, 0x3C6EF372, 0xA54FF53A,
    0x510E527F, 0x9B05688C, 0x1F83D9AB, 0x5BE0CD19]

def rotateRight (x k : UInt32) : UInt32 := (x >>> k) ||| (x <<< (32 - k))

/-- Mixes two message words into four words of the state. -/
def mix (s : Vector UInt32 16) (a b c d : Fin 16) (x y : UInt32) : Vector UInt32 16 :=
  let a₁ := s[a] + s[b] + x
  let d₁ := rotateRight (s[d] ^^^ a₁) 16
  let c₁ := s[c] + d₁
  let b₁ := rotateRight (s[b] ^^^ c₁) 12
  let a₂ := a₁ + b₁ + y
  let d₂ := rotateRight (d₁ ^^^ a₂) 8
  let c₂ := c₁ + d₂
  let b₂ := rotateRight (b₁ ^^^ c₂) 7
  (((s.set a a₂).set b b₂).set c c₂).set d d₂

/-- Mixes the columns of the state and then its diagonals. -/
def round (s m : Vector UInt32 16) : Vector UInt32 16 :=
  let s := mix s 0 4 8 12 m[0] m[1]
  let s := mix s 1 5 9 13 m[2] m[3]
  let s := mix s 2 6 10 14 m[4] m[5]
  let s := mix s 3 7 11 15 m[6] m[7]
  let s := mix s 0 5 10 15 m[8] m[9]
  let s := mix s 1 6 11 12 m[10] m[11]
  let s := mix s 2 7 8 13 m[12] m[13]
  mix s 3 4 9 14 m[14] m[15]

/-- The order in which a round takes the message words of the round before. -/
def permute (m : Vector UInt32 16) : Vector UInt32 16 :=
  #v[m[2], m[6], m[3], m[10], m[7], m[0], m[4], m[13],
    m[1], m[11], m[12], m[5], m[9], m[14], m[15], m[8]]

/-- So many rounds, with the message permuted between them. -/
def rounds : Nat → Vector UInt32 16 → Vector UInt32 16 → Vector UInt32 16
  | 0, s, _ => s
  | n + 1, s, m => rounds n (round s m) (permute m)

/-- One block that waits to be compressed. -/
structure Node where
  chaining : Vector UInt32 8
  block : Vector UInt32 16
  counter : UInt64
  length : UInt32
  flags : UInt32

namespace Node

def compress (n : Node) : Vector UInt32 16 :=
  let h := n.chaining
  let s : Vector UInt32 16 :=
    #v[h[0], h[1], h[2], h[3], h[4], h[5], h[6], h[7],
      0x6A09E667, 0xBB67AE85, 0x3C6EF372, 0xA54FF53A,
      n.counter.toUInt32, (n.counter >>> 32).toUInt32, n.length, n.flags]
  rounds 7 s n.block

/-- The eight words that a node passes on to the next block or to its parent. -/
def chainingValue (n : Node) : Vector UInt32 8 :=
  let s := n.compress
  #v[s[0] ^^^ s[8], s[1] ^^^ s[9], s[2] ^^^ s[10], s[3] ^^^ s[11],
    s[4] ^^^ s[12], s[5] ^^^ s[13], s[6] ^^^ s[14], s[7] ^^^ s[15]]

/-- The node above two others. -/
def parent (left right : Node) : Node where
  chaining := initial
  block := left.chainingValue ++ right.chainingValue
  counter := 0
  length := 64
  flags := parentFlag

def rootWords (n : Node) : Vector UInt32 8 :=
  { n with flags := n.flags ||| rootFlag }.chainingValue

end Node

/-- A word from its four bytes, low byte first; missing bytes are zero. -/
def wordAt (bytes : List UInt8) (i : Nat) : UInt32 :=
  let b (k : Nat) : UInt32 := (bytes.getD (4 * i + k) 0).toUInt32
  b 0 ||| (b 1 <<< 8) ||| (b 2 <<< 16) ||| (b 3 <<< 24)

def blockWords (bytes : List UInt8) : Vector UInt32 16 :=
  Vector.ofFn fun i => wordAt bytes i.val

def wordBytes (w : UInt32) : List UInt8 :=
  [w.toUInt8, (w >>> 8).toUInt8, (w >>> 16).toUInt8, (w >>> 24).toUInt8]

/-- The last block of a chunk, once the blocks before it are compressed. -/
def chunk (counter : UInt64) (chaining : Vector UInt32 8) (flags : UInt32) (bytes : List UInt8) :
    Node :=
  if bytes.length ≤ blockBytes then
    ⟨chaining, blockWords bytes, counter, bytes.length.toUInt32, flags ||| chunkEnd⟩
  else
    let block : Node := ⟨chaining, blockWords (bytes.take blockBytes), counter, 64, flags⟩
    chunk counter block.chainingValue 0 (bytes.drop blockBytes)
termination_by bytes.length
decreasing_by simp only [List.length_drop, blockBytes] at *; omega

/-- The bytes in the left subtree of an input of `n` bytes: the most whole chunks that
number a power of two and leave something to the right. -/
def leftBytes (n : Nat) : Nat := chunkBytes * Nat.pow 2 ((n - 1) / chunkBytes).log2

theorem leftBytes_lt {n : Nat} (h : chunkBytes < n) : leftBytes n < n := by
  have hq : (n - 1) / chunkBytes ≠ 0 := by
    simp only [chunkBytes] at *
    omega
  have hp : Nat.pow 2 ((n - 1) / chunkBytes).log2 ≤ (n - 1) / chunkBytes := Nat.log2_self_le hq
  have hm := Nat.mul_le_mul_left chunkBytes hp
  have hd := Nat.mul_div_le (n - 1) chunkBytes
  simp only [leftBytes]
  omega

theorem leftBytes_pos (n : Nat) : 0 < leftBytes n :=
  Nat.mul_pos (by decide) (Nat.pow_pos (by decide))

/-- The root of the tree over some bytes, whose first chunk has the given number. -/
def tree (counter : Nat) (bytes : List UInt8) : Node :=
  if chunkBytes < bytes.length then
    let k := leftBytes bytes.length
    .parent (tree counter (bytes.take k)) (tree (counter + k / chunkBytes) (bytes.drop k))
  else chunk counter.toUInt64 initial chunkStart bytes
termination_by bytes.length
decreasing_by
  · have h := leftBytes_lt ‹_›
    simp only [List.length_take]
    omega
  · have h := leftBytes_pos bytes.length
    simp only [List.length_drop]
    omega

/-- The 32-byte hash. -/
def hash (bytes : List UInt8) : List UInt8 :=
  (tree 0 bytes).rootWords.toList.flatMap wordBytes

theorem length_flatMap_wordBytes (ws : List UInt32) :
    (ws.flatMap wordBytes).length = 4 * ws.length := by
  induction ws with
  | nil => rfl
  | cons w rest ih =>
    simp only [List.flatMap_cons, List.length_append, ih, List.length_cons]
    simp only [wordBytes, List.length_cons, List.length_nil]
    omega

theorem length_hash (bytes : List UInt8) : (hash bytes).length = 32 := by
  rw [hash, length_flatMap_wordBytes, Vector.length_toList]

end RowEngine.Blake3
