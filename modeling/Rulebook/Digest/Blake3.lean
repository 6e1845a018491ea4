import Rulebook.Digest.Bytes

/-!
# BLAKE3

The hash function BLAKE3, without a key, to 32 bytes. The input is cut into chunks of 1024 bytes
and these into blocks of 64; the blocks of a chunk are compressed one after another. The chunks are
the leaves of a binary tree in which every left subtree is full. Joining neighbours level by level,
with an odd last node moving up as it is, gives that tree.
-/
namespace Rulebook.Blake3

/-- The state that compression mixes. -/
abbrev State := Vector UInt32 16

/-- A value of 32 bytes that stands for the input so far. -/
abbrev ChainingValue := Vector UInt32 8

def initialValue : ChainingValue :=
  #v[0x6a09e667, 0xbb67ae85, 0x3c6ef372, 0xa54ff53a, 0x510e527f, 0x9b05688c, 0x1f83d9ab,
    0x5be0cd19]

def rotateRight (word bits : UInt32) : UInt32 :=
  word >>> bits ||| word <<< (32 - bits)

/-- Mixes two message words into four words of the state. -/
def mix (state : State) (a b c d : Fin 16) (first second : UInt32) : State :=
  let a₁ := state[a] + state[b] + first
  let d₁ := rotateRight (state[d] ^^^ a₁) 16
  let c₁ := state[c] + d₁
  let b₁ := rotateRight (state[b] ^^^ c₁) 12
  let a₂ := a₁ + b₁ + second
  let d₂ := rotateRight (d₁ ^^^ a₂) 8
  let c₂ := c₁ + d₂
  let b₂ := rotateRight (b₁ ^^^ c₂) 7
  (((state.set a a₂).set b b₂).set c c₂).set d d₂

/-- One round: the columns of the state, then its diagonals. -/
def mixAll (state : State) (words : State) : State :=
  let state := mix state 0 4 8 12 words[0] words[1]
  let state := mix state 1 5 9 13 words[2] words[3]
  let state := mix state 2 6 10 14 words[4] words[5]
  let state := mix state 3 7 11 15 words[6] words[7]
  let state := mix state 0 5 10 15 words[8] words[9]
  let state := mix state 1 6 11 12 words[10] words[11]
  let state := mix state 2 7 8 13 words[12] words[13]
  mix state 3 4 9 14 words[14] words[15]

/-- The order in which the next round takes the message words. -/
def permute (words : State) : State :=
  #v[words[2], words[6], words[3], words[10], words[7], words[0], words[4], words[13], words[1],
    words[11], words[12], words[5], words[9], words[14], words[15], words[8]]

/-- A number of rounds; the words are permuted between them. -/
def rounds : Nat → State → State → State
  | 0, state, _ => state
  | count + 1, state, words => rounds count (mixAll state words) (permute words)

/-- What is compressed last for a part of the input: the value so far, the words of a block with
the number of its bytes, the number of the chunk, and flags that tell the block's role. -/
structure Node where
  chaining : ChainingValue
  words : State
  counter : Nat
  length : UInt32
  flags : UInt32

def chunkStart : UInt32 := 1

def chunkEnd : UInt32 := 2

def parentFlag : UInt32 := 4

def rootFlag : UInt32 := 8

/-- Compresses a node to the value that stands for it. -/
def Node.compress (node : Node) : ChainingValue :=
  let value := node.chaining
  let start : State :=
    #v[value[0], value[1], value[2], value[3], value[4], value[5], value[6], value[7],
      initialValue[0], initialValue[1], initialValue[2], initialValue[3],
      UInt32.ofNat node.counter, UInt32.ofNat (node.counter / 0x1_00000000), node.length,
      node.flags]
  let mixed := rounds 7 start node.words
  Vector.ofFn fun i : Fin 8 => mixed[i.val] ^^^ mixed[i.val + 8]

/-- The words of a block, the low byte of each first; bytes that it lacks are zero. -/
def blockWords (block : Bytes) : State :=
  let bytes := block.toArray
  let byte (position : Nat) : UInt32 := (bytes.getD position 0).toUInt32
  Vector.ofFn fun i => byte (4 * i) ||| byte (4 * i + 1) <<< 8 ||| byte (4 * i + 2) <<< 16
    ||| byte (4 * i + 3) <<< 24

/-- Cuts bytes into pieces of a size; only the last may be shorter, and there is at least one. -/
def pieces (size : Nat) (bytes : Bytes) : List Bytes :=
  if size = 0 ∨ bytes.length ≤ size then [bytes]
  else bytes.take size :: pieces size (bytes.drop size)
termination_by bytes.length
decreasing_by
  simp only [List.length_drop]
  omega

/-- Compresses the blocks of a chunk but the last, which becomes the chunk's node. -/
def chunkBlocks (counter : Nat) (chaining : ChainingValue) (flags : UInt32) : List Bytes → Node
  | [] => ⟨chaining, blockWords [], counter, 0, flags ||| chunkEnd⟩
  | [block] =>
    ⟨chaining, blockWords block, counter, UInt32.ofNat block.length, flags ||| chunkEnd⟩
  | block :: blocks =>
    -- Only the first block of a chunk is flagged as its start.
    let node : Node := ⟨chaining, blockWords block, counter, UInt32.ofNat block.length, flags⟩
    chunkBlocks counter node.compress 0 blocks

def chunkNode (counter : Nat) (chunk : Bytes) : Node :=
  chunkBlocks counter initialValue chunkStart (pieces 64 chunk)

/-- The node above two others. -/
def parent (left right : Node) : Node :=
  ⟨initialValue, left.compress ++ right.compress, 0, 64, parentFlag⟩

/-- Joins neighbours; an odd last node stays. -/
def joinPairs : List Node → List Node
  | left :: right :: rest => parent left right :: joinPairs rest
  | nodes => nodes

theorem length_joinPairs_le (nodes : List Node) : (joinPairs nodes).length ≤ nodes.length := by
  fun_induction joinPairs nodes with
  | case1 left right rest ih =>
    simp only [List.length_cons]
    omega
  | case2 => exact Nat.le_refl _

/-- The top of the tree over a first node and the rest. -/
def top (first : Node) : List Node → Node
  | [] => first
  | second :: rest => top (parent first second) (joinPairs rest)
termination_by rest => rest.length
decreasing_by
  have := length_joinPairs_le rest
  simp only [List.length_cons]
  omega

/-- The hash of the input. -/
def digest (input : Bytes) : Bytes :=
  let root := match (pieces 1024 input).mapIdx chunkNode with
    | [] => chunkNode 0 []
    | first :: rest => top first rest
  let value := { root with flags := root.flags ||| rootFlag }.compress
  value.toList.flatMap fun word => Bytes.littleEndian 4 word.toNat

end Rulebook.Blake3
