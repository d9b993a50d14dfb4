import VoltageCapture.Bytes

/-!
# The hash behind seeds and sequences

BLAKE3 hashes a message of any length and gives as many bytes as are asked for.  The
message is cut into chunks of 1024 bytes, each chunk into blocks of 64; blocks are
chained through a compression function, and the chunks are the leaves of a binary
tree whose nodes are compressed the same way.  The root is compressed once for every
64 bytes of output with the index of the output block as a counter, so output can be
had from any position on.

There are three modes, told apart by the key and by flags: plain hashing, hashing
under a key, and deriving a key from a context and some material.
-/

namespace VoltageCapture.Blake3

/-! ### Compression -/

/-- Four words, the lanes of one row of the compression state. -/
structure Row where
  a : UInt32
  b : UInt32
  c : UInt32
  d : UInt32
deriving DecidableEq

namespace Row

/-- Applies an operation lane by lane. -/
@[inline] def zipWith (f : UInt32 → UInt32 → UInt32) (x y : Row) : Row :=
  ⟨f x.a y.a, f x.b y.b, f x.c y.c, f x.d y.d⟩

/-- The sum, lane by lane, modulo 2^32. -/
def add (x y : Row) : Row := zipWith (· + ·) x y

/-- The exclusive or, lane by lane. -/
def xor (x y : Row) : Row := zipWith (· ^^^ ·) x y

/-- One word rotated right by `n` bits, for `n` between 1 and 31. -/
@[inline] def rotateWord (n w : UInt32) : UInt32 :=
  (w >>> n) ||| (w <<< (32 - n))

/-- The exclusive or, each lane then rotated right by `n` bits. -/
def xorRotate (n : UInt32) (x y : Row) : Row :=
  zipWith (fun v w => rotateWord n (v ^^^ w)) x y

/-- The row whose first lane is the second of `x`, and so on around. -/
def turn (x : Row) : Row := ⟨x.b, x.c, x.d, x.a⟩

/-- The words of a row. -/
def words (x : Row) : List UInt32 := [x.a, x.b, x.c, x.d]

end Row

/-- Eight words: a key, or the link from one compression to the next. -/
structure Chain where
  low : Row
  high : Row
deriving DecidableEq

/-- The words of a chaining value. -/
def Chain.words (chain : Chain) : List UInt32 :=
  chain.low.words ++ chain.high.words

/-- The sixteen words of a block. -/
abbrev Message := Vector UInt32 16

/-- The compression state: four rows of four words. -/
structure State where
  r0 : Row
  r1 : Row
  r2 : Row
  r3 : Row

/-- The key of plain hashing. -/
def standardKey : Chain :=
  ⟨⟨0x6A09E667, 0xBB67AE85, 0x3C6EF372, 0xA54FF53A⟩,
    ⟨0x510E527F, 0x9B05688C, 0x1F83D9AB, 0x5BE0CD19⟩⟩

namespace State

/-- Mixes the columns of the state with two words each. -/
def mix (s : State) (x y : Row) : State :=
  let r0 := (s.r0.add s.r1).add x
  let r3 := s.r3.xorRotate 16 r0
  let r2 := s.r2.add r3
  let r1 := s.r1.xorRotate 12 r2
  let r0 := (r0.add r1).add y
  let r3 := r3.xorRotate 8 r0
  let r2 := r2.add r3
  let r1 := r1.xorRotate 7 r2
  ⟨r0, r1, r2, r3⟩

/-- Turns the rows so that the diagonals stand in columns. -/
def diagonals (s : State) : State :=
  ⟨s.r0, s.r1.turn, s.r2.turn.turn, s.r3.turn.turn.turn⟩

/-- Turns the rows back. -/
def undiagonals (s : State) : State :=
  ⟨s.r0, s.r1.turn.turn.turn, s.r2.turn.turn, s.r3.turn⟩

/-- One round: the columns are mixed, then the diagonals. -/
def round (s : State) (m : Message) : State :=
  let s := s.mix ⟨m[0], m[2], m[4], m[6]⟩ ⟨m[1], m[3], m[5], m[7]⟩
  (s.diagonals.mix ⟨m[8], m[10], m[12], m[14]⟩ ⟨m[9], m[11], m[13], m[15]⟩).undiagonals

end State

/-- The order in which the words of a block enter the next round. -/
def schedule : Vector (Fin 16) 16 :=
  #v[2, 6, 3, 10, 7, 0, 4, 13, 1, 11, 12, 5, 9, 14, 15, 8]

/-- The given number of rounds. -/
def rounds : Nat → State → Message → State
  | 0, s, _ => s
  | n + 1, s, m => rounds n (s.round m) (schedule.map (m[·]))

/-- What is compressed: a block of `length` bytes behind a chaining value, with a
counter and with flags for the role that the block plays. -/
structure Node where
  chain : Chain
  block : Message
  counter : Nat
  length : Nat
  flags : UInt32

namespace Node

/-- The state after all rounds. -/
def finalState (node : Node) : State :=
  let position : Row :=
    ⟨UInt32.ofNat node.counter, UInt32.ofNat (node.counter >>> 32), UInt32.ofNat node.length,
      node.flags⟩
  rounds 7 ⟨node.chain.low, node.chain.high, standardKey.low, position⟩ node.block

/-- The chaining value that a node hands on. -/
def link (node : Node) : Chain :=
  let s := node.finalState
  ⟨s.r0.xor s.r2, s.r1.xor s.r3⟩

/-- All sixteen words of a compressed node. -/
def words (node : Node) : List UInt32 :=
  let s := node.finalState
  (s.r0.xor s.r2).words ++ (s.r1.xor s.r3).words
    ++ (s.r2.xor node.chain.low).words ++ (s.r3.xor node.chain.high).words

end Node

/-! ### Flags -/

/-- The block is the first of its chunk. -/
def chunkStart : UInt32 := 1

/-- The block is the last of its chunk. -/
def chunkEnd : UInt32 := 2

/-- The block holds the chaining values of two subtrees. -/
def parent : UInt32 := 4

/-- The node is the root. -/
def root : UInt32 := 8

/-- The message is hashed under a key. -/
def keyedMode : UInt32 := 16

/-- The message is the context of a derived key. -/
def contextMode : UInt32 := 32

/-- The message is the material of a derived key. -/
def materialMode : UInt32 := 64

/-! ### Chunks and the tree -/

/-- The word in four bytes, least significant first. -/
def wordAt (bytes : Bytes) (index : Nat) : UInt32 :=
  UInt32.ofNat (Bytes.ofLittleEndian (bytes.slice (4 * index) 4))

/-- The words of at most 64 bytes, with zeros for those that are missing. -/
def messageOf (bytes : Bytes) : Message :=
  Vector.ofFn fun index => wordAt bytes index

/-- The block that holds two chaining values. -/
def messageOfChains (left right : Chain) : Message :=
  Vector.ofFn fun index => (left.words ++ right.words)[index]?.getD 0

/-- The last block of a chunk, behind the blocks ahead of it.  `bytes` is what the
chunk still holds; `start` is the flag of its first block, zero further on. -/
def chunkNode (mode start : UInt32) (counter : Nat) (chain : Chain) (bytes : Bytes) : Node :=
  if bytes.length ≤ 64 then
    ⟨chain, messageOf bytes, counter, bytes.length, mode ||| start ||| chunkEnd⟩
  else
    let first : Node := ⟨chain, messageOf (bytes.take 64), counter, 64, mode ||| start⟩
    chunkNode mode 0 counter first.link (bytes.drop 64)
termination_by bytes.length
decreasing_by simp only [List.length_drop]; omega

/-- The bytes in the left subtree of a message of more than 1024 bytes: the largest
power of two of whole chunks that leaves something for the right one. -/
def leftLength (length : Nat) : Nat :=
  1024 <<< ((length - 1) / 1024).log2

theorem leftLength_pos (length : Nat) : 0 < leftLength length := by
  rw [leftLength, Nat.shiftLeft_eq]
  exact Nat.mul_pos (by decide) (Nat.two_pow_pos _)

theorem leftLength_lt {length : Nat} (h : 1024 < length) : leftLength length < length := by
  have hchunks : (length - 1) / 1024 ≠ 0 := by omega
  have hpow := Nat.log2_self_le hchunks
  rw [leftLength, Nat.shiftLeft_eq]
  omega

/-- The topmost node of the tree over a message whose first chunk has the index
`counter`. -/
def treeNode (key : Chain) (mode : UInt32) (counter : Nat) (bytes : Bytes) : Node :=
  if _h : bytes.length ≤ 1024 then
    chunkNode mode chunkStart counter key bytes
  else
    let left := leftLength bytes.length
    let leftNode := treeNode key mode counter (bytes.take left)
    let rightNode := treeNode key mode (counter + left / 1024) (bytes.drop left)
    ⟨key, messageOfChains leftNode.link rightNode.link, 0, 64, mode ||| parent⟩
termination_by bytes.length
decreasing_by
  · have := leftLength_lt (Nat.lt_of_not_le _h)
    simp only [List.length_take]
    omega
  · have := leftLength_pos bytes.length
    simp only [List.length_drop]
    omega

/-! ### Output -/

namespace Node

/-- The output block of the given index: 64 bytes. -/
def outputBlock (node : Node) (index : Nat) : Bytes :=
  let rootNode : Node := { node with counter := index, flags := node.flags ||| root }
  rootNode.words.flatMap fun (word : UInt32) => Bytes.littleEndian 4 word.toNat

/-- The byte at a position of the output. -/
def outputByte (node : Node) (position : Nat) : UInt8 :=
  (node.outputBlock (position / 64))[position % 64]?.getD 0

/-- The `count` bytes of output from `position` on, made block by block. -/
def output (node : Node) (position count : Nat) : Bytes :=
  let first := position / 64
  let skipped := position % 64
  let blocks := (List.range' first ((skipped + count + 63) / 64)).flatMap node.outputBlock
  (blocks.drop skipped).take count

@[simp] theorem length_outputBlock (node : Node) (index : Nat) :
    (node.outputBlock index).length = 64 := by
  simp [outputBlock, words, Row.words]

@[simp] theorem length_output (node : Node) (position count : Nat) :
    (node.output position count).length = count := by
  have hblocks : ∀ indices : List Nat,
      (indices.flatMap node.outputBlock).length = 64 * indices.length := by
    intro indices
    induction indices with
    | nil => rfl
    | cons index indices ih => simp [ih]; omega
  simp only [output, List.length_take, List.length_drop, hblocks, List.length_range']
  omega

/-- The first eight words of the output, as a key. -/
def outputKey (node : Node) : Chain :=
  let bytes := node.output 0 32
  ⟨⟨wordAt bytes 0, wordAt bytes 1, wordAt bytes 2, wordAt bytes 3⟩,
    ⟨wordAt bytes 4, wordAt bytes 5, wordAt bytes 6, wordAt bytes 7⟩⟩

end Node

/-! ### Modes -/

/-- Hashes a message. -/
def hash (message : Bytes) : Node :=
  treeNode standardKey 0 0 message

/-- Hashes a message under a key. -/
def keyedHash (key : Chain) (message : Bytes) : Node :=
  treeNode key keyedMode 0 message

/-- Derives a key from some material; the context keeps keys for different purposes
apart. -/
def deriveKey (context material : Bytes) : Chain :=
  let contextKey := (treeNode standardKey contextMode 0 context).outputKey
  (treeNode contextKey materialMode 0 material).outputKey

end VoltageCapture.Blake3
