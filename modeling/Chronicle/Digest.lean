import Chronicle.Bytes

/-!
# Digests

The BLAKE3 hash of a byte sequence, 32 bytes long. Input is cut into chunks of
1024 bytes and these into blocks of 64 bytes; the chunks are the leaves of a
binary tree whose left subtrees are complete, and the digest is the first half
of the compression of its root.
-/

namespace Chronicle

/-- The 32 bytes of a hash. -/
structure Digest where
  bytes : Bytes
  deriving DecidableEq, Inhabited

namespace Digest

/-- Four words that are worked on side by side. -/
structure Lanes where
  a : UInt32
  b : UInt32
  c : UInt32
  d : UInt32

namespace Lanes

/-- Applies an operation on words in each lane. -/
@[inline]
def zip (operation : UInt32 → UInt32 → UInt32) (first second : Lanes) : Lanes :=
  ⟨operation first.a second.a, operation first.b second.b, operation first.c second.c,
    operation first.d second.d⟩

/-- Rotates the word in each lane to the right. -/
@[inline]
def rotate (count : UInt32) (lanes : Lanes) : Lanes :=
  let turn := fun word : UInt32 => (word >>> count) ||| (word <<< (32 - count))
  ⟨turn lanes.a, turn lanes.b, turn lanes.c, turn lanes.d⟩

/-- Moves each word one lane to the left. -/
@[inline]
def shift (lanes : Lanes) : Lanes := ⟨lanes.b, lanes.c, lanes.d, lanes.a⟩

def toList (lanes : Lanes) : List UInt32 := [lanes.a, lanes.b, lanes.c, lanes.d]

end Lanes

/-- The eight words that are handed from one compression to the next. -/
structure Chain where
  low : Lanes
  high : Lanes

/-- The words that every chain starts from. -/
def start : Chain :=
  ⟨⟨0x6A09E667, 0xBB67AE85, 0x3C6EF372, 0xA54FF53A⟩,
    ⟨0x510E527F, 0x9B05688C, 0x1F83D9AB, 0x5BE0CD19⟩⟩

/-- The working state of a compression: four rows of four words. -/
structure Rows where
  first : Lanes
  second : Lanes
  third : Lanes
  fourth : Lanes

/-- Mixes eight message words into the columns. -/
def Rows.mix (rows : Rows) (even odd : Lanes) : Rows :=
  let first := (rows.first.zip (· + ·) rows.second).zip (· + ·) even
  let fourth := (rows.fourth.zip (· ^^^ ·) first).rotate 16
  let third := rows.third.zip (· + ·) fourth
  let second := (rows.second.zip (· ^^^ ·) third).rotate 12
  let first := (first.zip (· + ·) second).zip (· + ·) odd
  let fourth := (fourth.zip (· ^^^ ·) first).rotate 8
  let third := third.zip (· + ·) fourth
  let second := (second.zip (· ^^^ ·) third).rotate 7
  ⟨first, second, third, fourth⟩

/-- Message words at four positions. -/
def pick (message : List UInt32) (i j k l : Nat) : Lanes :=
  ⟨message.getD i 0, message.getD j 0, message.getD k 0, message.getD l 0⟩

/-- One round: first the columns, then the diagonals. -/
def Rows.round (rows : Rows) (message : List UInt32) : Rows :=
  let rows := rows.mix (pick message 0 2 4 6) (pick message 1 3 5 7)
  let rows : Rows := ⟨rows.first, rows.second.shift, rows.third.shift.shift,
    rows.fourth.shift.shift.shift⟩
  let rows := rows.mix (pick message 8 10 12 14) (pick message 9 11 13 15)
  ⟨rows.first, rows.second.shift.shift.shift, rows.third.shift.shift, rows.fourth.shift⟩

/-- From where each message word of the next round is taken. -/
def permutation : List Nat := [2, 6, 3, 10, 7, 0, 4, 13, 1, 11, 12, 5, 9, 14, 15, 8]

/-- Rounds with the message permuted in between. -/
def Rows.rounds : Nat → Rows → List UInt32 → Rows
  | 0, rows, _ => rows
  | count + 1, rows, message =>
      (rows.round message).rounds count (permutation.map fun index => message.getD index 0)

/-- A compression that has not been carried out, so that the root can be told apart. -/
structure Node where
  chain : Chain
  message : List UInt32
  counter : Nat
  length : Nat
  flags : UInt32

def chunkStart : UInt32 := 1
def chunkEnd : UInt32 := 2
def parent : UInt32 := 4
def root : UInt32 := 8

/-- Carries out a compression: seven rounds, and the two halves folded together. -/
def Node.compress (node : Node) (extra : UInt32) : Chain :=
  let rows : Rows :=
    ⟨node.chain.low, node.chain.high, start.low,
      ⟨UInt32.ofNat node.counter, UInt32.ofNat (node.counter / 2 ^ 32), UInt32.ofNat node.length,
        node.flags ||| extra⟩⟩
  let rows := rows.rounds 7 node.message
  ⟨rows.first.zip (· ^^^ ·) rows.third, rows.second.zip (· ^^^ ·) rows.fourth⟩

/-- The words of a byte sequence, least significant byte first, filled up with zeros. -/
def words : Bytes → List UInt32
  | a :: b :: c :: d :: rest =>
      UInt32.ofNat (a.toNat + 256 * b.toNat + 65536 * c.toNat + 16777216 * d.toNat) :: words rest
  | [a, b, c] => [UInt32.ofNat (a.toNat + 256 * b.toNat + 65536 * c.toNat)]
  | [a, b] => [UInt32.ofNat (a.toNat + 256 * b.toNat)]
  | [a] => [UInt32.ofNat a.toNat]
  | [] => []

/-- The last block of a chunk, with the blocks before it compressed. -/
def blocks (counter : Nat) : Nat → Chain → UInt32 → Bytes → Node
  | 0, chain, flags, bytes => ⟨chain, words bytes, counter, bytes.length, flags ||| chunkEnd⟩
  | count + 1, chain, flags, bytes =>
      if bytes.length ≤ 64 then ⟨chain, words bytes, counter, bytes.length, flags ||| chunkEnd⟩
      else
        blocks counter count
          (Node.compress ⟨chain, words (bytes.take 64), counter, 64, flags⟩ 0) 0 (bytes.drop 64)

/-- The leaf of a chunk of at most 1024 bytes. -/
def leaf (counter : Nat) (chunk : Bytes) : Node := blocks counter 16 start chunkStart chunk

/-- How many bytes go to the left: the largest power of two of chunks that
leaves something for the right. -/
def leftLength (length : Nat) : Nat := 1024 * 2 ^ Nat.log2 ((length - 1) / 1024)

/-- The top node over a byte sequence; the first argument bounds the depth. -/
def tree : Nat → Nat → Bytes → Node
  | 0, counter, bytes => leaf counter bytes
  | depth + 1, counter, bytes =>
      if bytes.length ≤ 1024 then leaf counter bytes
      else
        let cut := leftLength bytes.length
        let left := (tree depth counter (bytes.take cut)).compress 0
        let right := (tree depth (counter + cut / 1024) (bytes.drop cut)).compress 0
        ⟨start, left.low.toList ++ left.high.toList ++ right.low.toList ++ right.high.toList, 0, 64,
          parent⟩

/-- The four bytes of a word, least significant first. -/
def wordBytes (word : UInt32) : Bytes :=
  [UInt8.ofNat word.toNat, UInt8.ofNat (word.toNat / 256), UInt8.ofNat (word.toNat / 65536),
    UInt8.ofNat (word.toNat / 16777216)]

/-- The hash of a byte sequence. -/
def of (bytes : Bytes) : Digest :=
  let chain := (tree bytes.length 0 bytes).compress root
  ⟨(chain.low.toList ++ chain.high.toList).flatMap wordBytes⟩

def text (digest : Digest) : String := Hex.encode digest.bytes

/-- A short form for logs: the first two bytes. -/
def label (digest : Digest) : String :=
  "SnapshotDigest(" ++ Hex.encode (digest.bytes.take 2) ++ "...)"

end Digest

end Chronicle
