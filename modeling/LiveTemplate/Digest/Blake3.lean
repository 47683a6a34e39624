namespace LiveTemplate.Blake3

abbrev Block := Vector UInt32 16

abbrev Chain := Vector UInt32 8

def initial : Chain :=
  #v[0x6A09E667, 0xBB67AE85, 0x3C6EF372, 0xA54FF53A, 0x510E527F, 0x9B05688C, 0x1F83D9AB, 0x5BE0CD19]

def chunkStart : UInt32 := 1
def chunkEnd : UInt32 := 2
def parentNode : UInt32 := 4
def root : UInt32 := 8

def blockSize : Nat := 64
def chunkSize : Nat := 1024

def rotateRight (w count : UInt32) : UInt32 :=
  (w >>> count) ||| (w <<< (32 - count))

structure Mixing where
  a : Fin 16
  b : Fin 16
  c : Fin 16
  d : Fin 16
  x : Fin 16
  y : Fin 16

def mixings : List Mixing :=
  [⟨0, 4, 8, 12, 0, 1⟩, ⟨1, 5, 9, 13, 2, 3⟩, ⟨2, 6, 10, 14, 4, 5⟩, ⟨3, 7, 11, 15, 6, 7⟩,
    ⟨0, 5, 10, 15, 8, 9⟩, ⟨1, 6, 11, 12, 10, 11⟩, ⟨2, 7, 8, 13, 12, 13⟩, ⟨3, 4, 9, 14, 14, 15⟩]

def mix (message state : Block) (m : Mixing) : Block :=
  let a := state[m.a] + state[m.b] + message[m.x]
  let d := rotateRight (state[m.d] ^^^ a) 16
  let c := state[m.c] + d
  let b := rotateRight (state[m.b] ^^^ c) 12
  let a := a + b + message[m.y]
  let d := rotateRight (d ^^^ a) 8
  let c := c + d
  let b := rotateRight (b ^^^ c) 7
  (((state.set m.a a).set m.b b).set m.c c).set m.d d

def round (message state : Block) : Block :=
  mixings.foldl (mix message) state

def permutation : Vector (Fin 16) 16 :=
  #v[2, 6, 3, 10, 7, 0, 4, 13, 1, 11, 12, 5, 9, 14, 15, 8]

def permute (message : Block) : Block :=
  permutation.map fun i => message[i]

def rounds : Nat → Block → Block → Block
  | 0, _, state => state
  | n + 1, message, state => rounds n (permute message) (round message state)

/-- One compression that is still to be run, so that it can be run as the root of the tree. -/
structure Node where
  chain : Chain
  message : Block
  counter : UInt64
  length : UInt32
  flags : UInt32

def Node.compress (n : Node) (extra : UInt32) : Chain :=
  let upper : Chain :=
    #v[initial[0], initial[1], initial[2], initial[3], n.counter.toUInt32,
      (n.counter >>> 32).toUInt32, n.length, n.flags ||| extra]
  let state := rounds 7 n.message (n.chain ++ upper)
  Vector.ofFn fun i : Fin 8 => state[i.val] ^^^ state[i.val + 8]

def wordAt (bytes : List UInt8) (i : Nat) : UInt32 :=
  ((bytes.drop (4 * i)).take 4).foldr (fun b w => b.toUInt32 ||| (w <<< 8)) 0

def blockOf (bytes : List UInt8) : Block :=
  Vector.ofFn fun i : Fin 16 => wordAt bytes i.val

def chunkNode (counter : UInt64) (chain : Chain) (start : UInt32) (bytes : List UInt8) : Node :=
  if bytes.length ≤ blockSize then
    ⟨chain, blockOf bytes, counter, bytes.length.toUInt32, start ||| chunkEnd⟩
  else
    let block : Node := ⟨chain, blockOf (bytes.take blockSize), counter, blockSize.toUInt32, start⟩
    chunkNode counter (block.compress 0) 0 (bytes.drop blockSize)
termination_by bytes.length
decreasing_by
  simp only [List.length_drop, blockSize] at *
  omega

/-- Bytes of the left subtree: as many whole chunks as the largest power of two that leaves some
bytes for the right one. -/
def leftSize (size : Nat) : Nat :=
  chunkSize * Nat.pow 2 ((size - 1) / chunkSize).log2

theorem leftSize_bounds {size : Nat} (h : chunkSize < size) :
    0 < leftSize size ∧ leftSize size < size := by
  have whole : (size - 1) / chunkSize ≠ 0 := by
    simp only [chunkSize] at h ⊢
    omega
  have power : Nat.pow 2 ((size - 1) / chunkSize).log2 ≤ (size - 1) / chunkSize :=
    Nat.log2_self_le whole
  have fits : chunkSize * ((size - 1) / chunkSize) ≤ size - 1 := Nat.mul_div_le _ _
  constructor
  · exact Nat.mul_pos (by decide) (Nat.two_pow_pos _)
  · have := Nat.mul_le_mul_left chunkSize power
    unfold leftSize
    omega

def treeNode (first : Nat) (bytes : List UInt8) : Node :=
  if bytes.length ≤ chunkSize then chunkNode first.toUInt64 initial chunkStart bytes
  else
    let size := leftSize bytes.length
    let left := treeNode first (bytes.take size)
    let right := treeNode (first + size / chunkSize) (bytes.drop size)
    ⟨initial, left.compress 0 ++ right.compress 0, 0, blockSize.toUInt32, parentNode⟩
termination_by bytes.length
decreasing_by
  all_goals
    have := leftSize_bounds (show chunkSize < bytes.length by omega)
    simp only [List.length_take, List.length_drop]
    omega

def bytesOfWord (w : UInt32) : List UInt8 :=
  [w.toUInt8, (w >>> 8).toUInt8, (w >>> 16).toUInt8, (w >>> 24).toUInt8]

def digest (bytes : List UInt8) : List UInt8 :=
  ((treeNode 0 bytes).compress root).toList.flatMap bytesOfWord

theorem length_digest (bytes : List UInt8) : (digest bytes).length = 32 := by
  simp [digest, bytesOfWord, List.length_flatMap, List.map_const']

end LiveTemplate.Blake3
