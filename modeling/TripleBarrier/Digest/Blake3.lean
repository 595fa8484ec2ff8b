/-!
# The BLAKE3 digest

The digest of a byte sequence in BLAKE3's unkeyed mode.  The input is cut into chunks of 1024
bytes; each chunk is compressed block by block, and the chunks are joined pairwise into a tree
whose root gives the digest.

A `Node` of the tree keeps the arguments of its last compression unevaluated, because the same
node is compressed with other flags when it turns out to be the root.

## Main definitions

* `compress` — the compression function on eight chaining words and sixteen message words.
* `Node.ofChunk`, `Node.join` — the leaves and the inner nodes of the tree.
* `hash` — the digest as eight words, `hexText` — the digest as hexadecimal text.
-/

namespace TripleBarrier
namespace Blake3

/-- Sixteen words: a message block or the state of a compression. -/
abbrev Words := Vector UInt32 16

/-- Eight words carried from one compression to the next. -/
abbrev Chain := Vector UInt32 8

/-- The initial chaining words. -/
def initial : Chain :=
  #v[0x6A09E667, 0xBB67AE85, 0x3C6EF372, 0xA54FF53A, 0x510E527F, 0x9B05688C, 0x1F83D9AB, 0x5BE0CD19]

/-! ### Domain flags -/

/-- The first block of a chunk. -/
def chunkStart : UInt32 := 1

/-- The last block of a chunk. -/
def chunkEnd : UInt32 := 2

/-- A node that joins two others. -/
def parent : UInt32 := 4

/-- The last compression of all. -/
def root : UInt32 := 8

/-! ### Compression -/

/-- Rotates a word to the right. -/
def rotateRight (w n : UInt32) : UInt32 :=
  (w >>> n) ||| (w <<< (32 - n))

/-- Mixes two message words into four words of the state. -/
def mix (s : Words) (a b c d : Fin 16) (x y : UInt32) : Words :=
  let wa := s[a] + s[b] + x
  let wd := rotateRight (s[d] ^^^ wa) 16
  let wc := s[c] + wd
  let wb := rotateRight (s[b] ^^^ wc) 12
  let wa := wa + wb + y
  let wd := rotateRight (wd ^^^ wa) 8
  let wc := wc + wd
  let wb := rotateRight (wb ^^^ wc) 7
  (((s.set a wa).set b wb).set c wc).set d wd

/-- One round mixes the columns of the state and then its diagonals. -/
def round (s m : Words) : Words :=
  let s := mix s 0 4 8 12 m[0] m[1]
  let s := mix s 1 5 9 13 m[2] m[3]
  let s := mix s 2 6 10 14 m[4] m[5]
  let s := mix s 3 7 11 15 m[6] m[7]
  let s := mix s 0 5 10 15 m[8] m[9]
  let s := mix s 1 6 11 12 m[10] m[11]
  let s := mix s 2 7 8 13 m[12] m[13]
  mix s 3 4 9 14 m[14] m[15]

/-- The order in which the next round reads the message words. -/
def permute (m : Words) : Words :=
  #v[m[2], m[6], m[3], m[10], m[7], m[0], m[4], m[13],
    m[1], m[11], m[12], m[5], m[9], m[14], m[15], m[8]]

/-- The given number of rounds, with the message words permuted between them. -/
def rounds : Nat → Words → Words → Words
  | 0, s, _ => s
  | n + 1, s, m => rounds n (round s m) (permute m)

/-- The chaining words after one block: seven rounds, then the halves of the state are combined. -/
def compress (chain : Chain) (block : Words) (counter : UInt64) (length flags : UInt32) : Chain :=
  let s := rounds 7
    #v[chain[0], chain[1], chain[2], chain[3], chain[4], chain[5], chain[6], chain[7],
      initial[0], initial[1], initial[2], initial[3],
      counter.toUInt32, (counter >>> 32).toUInt32, length, flags] block
  #v[s[0] ^^^ s[8], s[1] ^^^ s[9], s[2] ^^^ s[10], s[3] ^^^ s[11],
    s[4] ^^^ s[12], s[5] ^^^ s[13], s[6] ^^^ s[14], s[7] ^^^ s[15]]

/-! ### The tree -/

/-- A node of the tree: the arguments of its last compression. -/
structure Node where
  chain : Chain
  block : Words
  counter : UInt64
  length : UInt32
  flags : UInt32

/-- The chaining words a node hands to the node above it. -/
def Node.output (n : Node) : Chain :=
  compress n.chain n.block n.counter n.length n.flags

/-- The digest words, if the node is the root. -/
def Node.rootOutput (n : Node) : Chain :=
  compress n.chain n.block 0 n.length (n.flags ||| root)

/-- The word with the given bytes, lowest first, absent bytes being zero. -/
def word (bytes : List UInt8) (i : Nat) : UInt32 :=
  let byte (k : Nat) : UInt32 := (bytes.getD (4 * i + k) 0).toUInt32
  byte 0 ||| (byte 1 <<< 8) ||| (byte 2 <<< 16) ||| (byte 3 <<< 24)

/-- The message words of a block of at most 64 bytes, padded with zeros. -/
def blockWords (bytes : List UInt8) : Words :=
  Vector.ofFn fun i => word bytes i

/-- Cuts a list into pieces of `size` elements and a shorter last one: an empty list gives one
empty piece, and the last piece is empty only then.  The first argument bounds the pieces. -/
def pieces (size : Nat) : Nat → List UInt8 → List (List UInt8)
  | 0, bytes => [bytes]
  | n + 1, bytes =>
    if bytes.length ≤ size then [bytes] else bytes.take size :: pieces size n (bytes.drop size)

/-- Compresses all blocks of a chunk but the last, which becomes the node. -/
def Node.ofBlocks (counter : UInt64) : Chain → UInt32 → List (List UInt8) → Node
  | chain, flags, [] => ⟨chain, blockWords [], counter, 0, flags ||| chunkEnd⟩
  | chain, flags, [last] =>
    ⟨chain, blockWords last, counter, UInt32.ofNat last.length, flags ||| chunkEnd⟩
  | chain, flags, block :: rest =>
    let chain := compress chain (blockWords block) counter (UInt32.ofNat block.length) flags
    ofBlocks counter chain 0 rest

/-- The leaf of the chunk with the given number. -/
def Node.ofChunk (bytes : List UInt8) (number : Nat) : Node :=
  ofBlocks (UInt64.ofNat number) initial chunkStart (pieces 64 16 bytes)

/-- The node above two others. -/
def Node.join (left right : Node) : Node :=
  ⟨initial, Vector.append left.output right.output, 0, 64, parent⟩

/-- Joins neighbours pairwise: a last node without a partner moves up as it is. -/
def joinPairs : List Node → List Node
  | left :: right :: rest => left.join right :: joinPairs rest
  | nodes => nodes

/-- Joins a row of nodes, level by level, up to a single one.  Pairing from the left puts the
greatest possible power of two of the leaves under the left child of every node. -/
def joinAll : Nat → Node → List Node → Node
  | 0, first, _ => first
  | _ + 1, first, [] => first
  | n + 1, first, second :: rest => joinAll n (first.join second) (joinPairs rest)

/-! ### The digest -/

/-- The digest as eight words. -/
def hash (bytes : List UInt8) : Chain :=
  let chunks := pieces 1024 bytes.length bytes
  match chunks.mapIdx fun i chunk => Node.ofChunk chunk i with
  | [] => (Node.ofChunk [] 0).rootOutput
  | first :: rest => (joinAll rest.length first rest).rootOutput

/-- The two lower-case hexadecimal digits of each byte of a word, lowest byte first. -/
def wordText (w : UInt32) : List Char :=
  [4, 0, 12, 8, 20, 16, 28, 24].map fun (shift : UInt32) =>
    Nat.digitChar ((w >>> shift) &&& 15).toNat

/-- The digest of the bytes as 64 lower-case hexadecimal digits. -/
def hexText (bytes : List UInt8) : String :=
  String.ofList ((hash bytes).toList.flatMap wordText)

end Blake3
end TripleBarrier
