import SeededGarbling.Square

/-!
# BLAKE3

A message is cut into chunks of 1024 bytes, each chunk is folded block by block into a node, and
nodes are joined in a binary tree whose left side is full. Only the root is marked as such; it
yields output of any length, one compression per 64 bytes.
-/

namespace SeededGarbling.Blake3

/-- Marks the first block of a chunk. -/
def chunkStart : UInt32 := 1

/-- Marks the last block of a chunk. -/
def chunkEnd : UInt32 := 2

/-- Marks a node that joins two subtrees. -/
def parentNode : UInt32 := 4

/-- Marks the compressions that produce output. -/
def rootNode : UInt32 := 8

/-- Marks every compression of a keyed computation. -/
def keyedMode : UInt32 := 16

/-- Bytes in a block. -/
def blockLength : Nat := 64

/-- Bytes in a chunk. -/
def chunkLength : Nat := 1024

/-- The key of the unkeyed hash: fractional bits of the square roots of the first eight primes. -/
def initialKey : Vector UInt32 8 :=
  #v[0x6a09e667, 0xbb67ae85, 0x3c6ef372, 0xa54ff53a, 0x510e527f, 0x9b05688c, 0x1f83d9ab, 0x5be0cd19]

/-- The order in which message words enter the next round. -/
def messageOrder : Vector Nat 16 :=
  #v[2, 6, 3, 10, 7, 0, 4, 13, 1, 11, 12, 5, 9, 14, 15, 8]

/-- Mixes two message words into four words of the state. -/
def mix (x y : UInt32) (q : Quarter) : Quarter :=
  let a := q.a + q.b + x
  let d := rotateRight (q.d ^^^ a) 16
  let c := q.c + d
  let b := rotateRight (q.b ^^^ c) 12
  let a := a + b + y
  let d := rotateRight (d ^^^ a) 8
  let c := c + d
  let b := rotateRight (b ^^^ c) 7
  ⟨a, b, c, d⟩

/-- One round: mixes the columns, then the diagonals, each with two message words of its own. -/
def round (s m : Square) : Square :=
  s.sweep fun i => mix m[2 * i.val] m[2 * i.val + 1]

/-- `count` rounds, with the message words reordered between them. -/
def rounds : (count : Nat) → (s m : Square) → Square
  | 0, s, _ => s
  | count + 1, s, m => rounds count (round s m) (messageOrder.map fun i => m[i]?.getD 0)

/-- A compression that is still to be carried out, as a chaining value or as the root. -/
structure Node where
  /-- The chaining value, or the key, that the compression starts from. -/
  key : Vector UInt32 8
  /-- The message words. -/
  block : Square
  /-- Which chunk this is; zero for a node that joins two. -/
  counter : Nat
  /-- How many bytes of the block belong to the message. -/
  length : UInt32
  /-- The marks that tell the uses of the compression apart. -/
  flags : UInt32

/-- The compression with a given counter and given marks. -/
def Node.compress (node : Node) (counter : Nat) (flags : UInt32) : Square :=
  let k := node.key
  let low := UInt32.ofNat counter
  let high := UInt32.ofNat (counter / UInt32.size)
  let start : Square := k ++ initialKey.take 4 ++ #v[low, high, node.length, flags]
  let mixed := rounds 7 start node.block
  Vector.ofFn fun i : Fin 16 =>
    if h : i.val < 8 then mixed[i] ^^^ mixed[i.val + 8] else mixed[i] ^^^ k[i.val - 8]

/-- The chaining value of a node that is not the root. -/
def Node.chainingValue (node : Node) : Vector UInt32 8 :=
  (node.compress node.counter node.flags).take 8

/-- The 64 output bytes with number `i` of the root. -/
def Node.outputBlock (node : Node) (i : Nat) : Bytes :=
  (node.compress i (node.flags ||| rootNode)).toList.flatMap fun word =>
    Bytes.littleEndian 4 word.toNat

/-- The first `n` output bytes of the root. -/
def Node.output (node : Node) (n : Nat) : Bytes :=
  ((List.range ((n + 63) / 64)).flatMap node.outputBlock).take n

@[simp] theorem Node.length_outputBlock (node : Node) (i : Nat) :
    (node.outputBlock i).length = 64 := by
  simp [outputBlock, List.map_const']

/-- The root yields as many bytes as are asked for. -/
@[simp] theorem Node.length_output (node : Node) (n : Nat) : (node.output n).length = n := by
  have h : ((List.range ((n + 63) / 64)).flatMap node.outputBlock).length = (n + 63) / 64 * 64 := by
    simp only [List.length_flatMap, length_outputBlock, List.map_const', List.length_range,
      List.sum_replicate_nat]
  rw [output, List.length_take, h]
  omega

/-- The word at byte position `i`, least significant byte first; bytes past the end are zero. -/
def wordAt (bytes : Bytes) (i : Nat) : UInt32 :=
  match bytes.drop i with
  | [] => 0
  | [b₀] => wordOfBytes b₀ 0 0 0
  | [b₀, b₁] => wordOfBytes b₀ b₁ 0 0
  | [b₀, b₁, b₂] => wordOfBytes b₀ b₁ b₂ 0
  | b₀ :: b₁ :: b₂ :: b₃ :: _ => wordOfBytes b₀ b₁ b₂ b₃

/-- The words of a byte string, least significant byte first, filled up with zeros. -/
def words (n : Nat) (bytes : Bytes) : Vector UInt32 n :=
  Vector.ofFn fun i => wordAt bytes (4 * i)

/-- The node of a chunk from its blocks: all but the last are folded into the chaining value. -/
def chunkNode (mode : UInt32) (counter : Nat) (start : UInt32) (chain : Vector UInt32 8) :
    List Bytes → Node
  | [] => ⟨chain, words 16 [], counter, 0, mode ||| start ||| chunkEnd⟩
  | [block] =>
    ⟨chain, words 16 block, counter, UInt32.ofNat block.length, mode ||| start ||| chunkEnd⟩
  | block :: rest =>
    let node : Node := ⟨chain, words 16 block, counter, UInt32.ofNat block.length, mode ||| start⟩
    chunkNode mode counter 0 node.chainingValue rest

/-- The node that joins two subtrees. -/
def joinNode (key : Vector UInt32 8) (mode : UInt32) (left right : Node) : Node where
  key := key
  block := left.chainingValue ++ right.chainingValue
  counter := 0
  length := UInt32.ofNat blockLength
  flags := mode ||| parentNode

/-- Joins neighbours; a last node without a partner moves up unchanged. -/
def joinPairs (key : Vector UInt32 8) (mode : UInt32) : List Node → List Node
  | left :: right :: rest => joinNode key mode left right :: joinPairs key mode rest
  | nodes => nodes

/-- Joins neighbours on `height` levels. -/
def joinLevels (key : Vector UInt32 8) (mode : UInt32) : (height : Nat) → List Node → List Node
  | 0, nodes => nodes
  | height + 1, nodes => joinLevels key mode height (joinPairs key mode nodes)

/-- The root of a message: as many levels as it takes to join all chunks. -/
def root (key : Vector UInt32 8) (mode : UInt32) (message : Bytes) : Node :=
  let chunks := Bytes.blocks chunkLength ((message.length + 1023) / chunkLength) message
  let nodes := chunks.zipIdx.map fun (chunk, counter) =>
    chunkNode mode counter chunkStart key (Bytes.blocks blockLength ((chunk.length + 63) / 64) chunk)
  match joinLevels key mode (Nat.log2 nodes.length + 1) nodes with
  | node :: _ => node
  | [] => chunkNode mode 0 chunkStart key []

/-- The BLAKE3 digest of a message. -/
def hash (message : Bytes) : Bytes :=
  (root initialKey 0 message).output 32

/-- Keyed BLAKE3 with extended output: the first `n` output bytes under a 32-byte key. -/
def keyedOutput (key : Vector UInt32 8) (message : Bytes) (n : Nat) : Bytes :=
  (root key keyedMode message).output n

/-- Every digest has 32 bytes. -/
@[simp] theorem length_hash (message : Bytes) : (hash message).length = 32 := by
  simp [hash]

@[simp] theorem length_keyedOutput (key : Vector UInt32 8) (message : Bytes) (n : Nat) :
    (keyedOutput key message n).length = n := by
  simp [keyedOutput]

/-- The key words of 32 key bytes. -/
def keyWords (key : Bytes) : Vector UInt32 8 :=
  words 8 key

end SeededGarbling.Blake3
