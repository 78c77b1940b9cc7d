/-!
# The hash function BLAKE3

The unkeyed hash of a byte string, 32 bytes long. Input is cut into chunks of 1024 bytes, a chunk
is compressed block by block, and the chaining values of the chunks meet in a binary tree whose
left subtrees are complete.
-/

namespace Repertory
namespace Blake3

abbrev Chain := Vector UInt32 8

abbrev Block := Vector UInt32 16

def initial : Chain :=
  #v[0x6A09E667, 0xBB67AE85, 0x3C6EF372, 0xA54FF53A, 0x510E527F, 0x9B05688C, 0x1F83D9AB,
    0x5BE0CD19]

def chunkStart : UInt32 := 1
def chunkEnd : UInt32 := 2
def parentNode : UInt32 := 4
def rootNode : UInt32 := 8

def rotateRight (x : UInt32) (n : UInt32) : UInt32 :=
  (x >>> n) ||| (x <<< (32 - n))

def quarter (s : Block) (a b c d : Fin 16) (x y : UInt32) : Block :=
  let va := s[a] + s[b] + x
  let vd := rotateRight (s[d] ^^^ va) 16
  let vc := s[c] + vd
  let vb := rotateRight (s[b] ^^^ vc) 12
  let va := va + vb + y
  let vd := rotateRight (vd ^^^ va) 8
  let vc := vc + vd
  let vb := rotateRight (vb ^^^ vc) 7
  (((s.set a va).set b vb).set c vc).set d vd

def round (s m : Block) : Block :=
  let s := quarter s 0 4 8 12 m[0] m[1]
  let s := quarter s 1 5 9 13 m[2] m[3]
  let s := quarter s 2 6 10 14 m[4] m[5]
  let s := quarter s 3 7 11 15 m[6] m[7]
  let s := quarter s 0 5 10 15 m[8] m[9]
  let s := quarter s 1 6 11 12 m[10] m[11]
  let s := quarter s 2 7 8 13 m[12] m[13]
  quarter s 3 4 9 14 m[14] m[15]

/-- The order in which a round takes the words of the round before. -/
def permute (m : Block) : Block :=
  #v[m[2], m[6], m[3], m[10], m[7], m[0], m[4], m[13], m[1], m[11], m[12], m[5], m[9], m[14],
    m[15], m[8]]

def rounds : Nat → Block → Block → Block
  | 0, s, _ => s
  | n + 1, s, m => rounds n (round s m) (permute m)

structure Node where
  chain : Chain
  block : Block
  counter : UInt64
  length : UInt32
  flags : UInt32

def Node.output (n : Node) : Chain :=
  let h := n.chain
  let s := rounds 7
    #v[h[0], h[1], h[2], h[3], h[4], h[5], h[6], h[7], initial[0], initial[1], initial[2],
      initial[3], n.counter.toUInt32, (n.counter >>> 32).toUInt32, n.length, n.flags]
    n.block
  #v[s[0] ^^^ s[8], s[1] ^^^ s[9], s[2] ^^^ s[10], s[3] ^^^ s[11], s[4] ^^^ s[12],
    s[5] ^^^ s[13], s[6] ^^^ s[14], s[7] ^^^ s[15]]

/-- The word whose bytes, lowest first, stand at the front; missing bytes are zero. -/
def wordOf (bytes : List UInt8) : UInt32 :=
  (bytes.take 4).foldr (fun b w => (w <<< 8) ||| b.toUInt32) 0

def blockOf (bytes : List UInt8) : Block :=
  Vector.ofFn fun i => wordOf (bytes.drop (4 * i))

/-- Runs the blocks of a chunk and leaves the last one as a node that is still to be compressed.
`first` tells whether the chunk begins here. -/
def chunkNode (counter : UInt64) (chain : Chain) (first : Bool) (bytes : List UInt8) : Node :=
  let flags := if first then chunkStart else 0
  if bytes.length ≤ 64 then
    { chain, block := blockOf bytes, counter, length := bytes.length.toUInt32,
      flags := flags ||| chunkEnd }
  else
    let node : Node := { chain, block := blockOf (bytes.take 64), counter, length := 64, flags }
    chunkNode counter node.output false (bytes.drop 64)
termination_by bytes.length
decreasing_by simp; omega

def parent (left right : Chain) : Node :=
  { chain := initial, block := left ++ right, counter := 0, length := 64, flags := parentNode }

/-- The number of bytes in the left subtree: the largest power of two of chunks that leaves at
least one byte to the right. -/
def leftSize (size : Nat) : Nat :=
  1024 * Nat.pow 2 (Nat.log2 ((size - 1) / 1024))

theorem leftSize_lt {size : Nat} (h : 1024 < size) : leftSize size < size := by
  have hpos : (size - 1) / 1024 ≠ 0 := by omega
  have : Nat.pow 2 (Nat.log2 ((size - 1) / 1024)) ≤ (size - 1) / 1024 := Nat.log2_self_le hpos
  unfold leftSize
  omega

theorem leftSize_pos (size : Nat) : 0 < leftSize size :=
  Nat.mul_pos (by decide) (Nat.two_pow_pos _)

/-- The node at the top of the tree over the bytes whose first chunk has the given number. -/
def treeNode (counter : UInt64) (bytes : List UInt8) : Node :=
  if 1024 < bytes.length then
    let n := leftSize bytes.length
    let left := treeNode counter (bytes.take n)
    let right := treeNode (counter + (n / 1024).toUInt64) (bytes.drop n)
    parent left.output right.output
  else chunkNode counter initial true bytes
termination_by bytes.length
decreasing_by
  · have : leftSize bytes.length < bytes.length := leftSize_lt (by assumption)
    simp; omega
  · have := leftSize_pos bytes.length
    simp; omega

def bytesOf (w : UInt32) : List UInt8 :=
  [w.toUInt8, (w >>> 8).toUInt8, (w >>> 16).toUInt8, (w >>> 24).toUInt8]

def hash (bytes : List UInt8) : List UInt8 :=
  let node := treeNode 0 bytes
  { node with flags := node.flags ||| rootNode }.output.toList.flatMap bytesOf

end Blake3
end Repertory
