import ClassAtlas.Text.Basic

/-!
A digest of 32 bytes by BLAKE2b without a key. The bytes are mixed in blocks of 128, each as sixteen
little-endian words, into a state of eight words.
-/
namespace ClassAtlas.Digest.Blake2b

def initial : Array UInt64 := #[
  0x6a09e667f3bcc908, 0xbb67ae8584caa73b, 0x3c6ef372fe94f82b, 0xa54ff53a5f1d36f1,
  0x510e527fade682d1, 0x9b05688c2b3e6c1f, 0x1f83d9abfb41bd6b, 0x5be0cd19137e2179]

/-- The order in which each round takes the words of a block. -/
def schedule : List (List Nat) := [
  [0, 1, 2, 3, 4, 5, 6, 7, 8, 9, 10, 11, 12, 13, 14, 15],
  [14, 10, 4, 8, 9, 15, 13, 6, 1, 12, 0, 2, 11, 7, 5, 3],
  [11, 8, 12, 0, 5, 2, 15, 13, 10, 14, 3, 6, 7, 1, 9, 4],
  [7, 9, 3, 1, 13, 12, 11, 14, 2, 6, 5, 10, 4, 0, 15, 8],
  [9, 0, 5, 7, 2, 4, 10, 15, 14, 1, 11, 12, 6, 8, 3, 13],
  [2, 12, 6, 10, 0, 11, 8, 3, 4, 13, 7, 5, 15, 14, 1, 9],
  [12, 5, 1, 15, 14, 13, 4, 10, 0, 7, 6, 3, 9, 2, 8, 11],
  [13, 11, 7, 14, 12, 1, 3, 9, 5, 0, 15, 4, 8, 6, 2, 10],
  [6, 15, 14, 9, 11, 3, 0, 8, 12, 2, 13, 7, 1, 4, 10, 5],
  [10, 2, 8, 4, 7, 6, 1, 5, 15, 11, 9, 14, 3, 12, 13, 0],
  [0, 1, 2, 3, 4, 5, 6, 7, 8, 9, 10, 11, 12, 13, 14, 15],
  [14, 10, 4, 8, 9, 15, 13, 6, 1, 12, 0, 2, 11, 7, 5, 3]]

/-- The four words that each of the eight mixings of a round works on. -/
def lanes : List (Nat × Nat × Nat × Nat) := [
  (0, 4, 8, 12), (1, 5, 9, 13), (2, 6, 10, 14), (3, 7, 11, 15),
  (0, 5, 10, 15), (1, 6, 11, 12), (2, 7, 8, 13), (3, 4, 9, 14)]

def rotateRight (x : UInt64) (n : UInt64) : UInt64 := (x >>> n) ||| (x <<< (64 - n))

def mix (v : Array UInt64) (lane : Nat × Nat × Nat × Nat) (x y : UInt64) : Array UInt64 :=
  let (i, j, k, l) := lane
  let a := v.getD i 0 + v.getD j 0 + x
  let d := rotateRight (v.getD l 0 ^^^ a) 32
  let c := v.getD k 0 + d
  let b := rotateRight (v.getD j 0 ^^^ c) 24
  let a := a + b + y
  let d := rotateRight (d ^^^ a) 16
  let c := c + d
  let b := rotateRight (b ^^^ c) 63
  (((v.setIfInBounds i a).setIfInBounds j b).setIfInBounds k c).setIfInBounds l d

/-- One round: a pair of words for each lane. -/
def round (m v : Array UInt64) : List (Nat × Nat × Nat × Nat) → List Nat → Array UInt64
  | lane :: lanes, a :: b :: order => round m (mix v lane (m.getD a 0) (m.getD b 0)) lanes order
  | _, _ => v

/-- Little-endian words of eight bytes. -/
def wordOf (bytes : List UInt8) : UInt64 :=
  bytes.foldr (fun b w => w * 256 + b.toUInt64) 0

def words : Nat → List UInt8 → List UInt64
  | 0, _ => []
  | n + 1, bytes => wordOf (bytes.take 8) :: words n (bytes.drop 8)

/-- Mix a block into the state. `count` is how many bytes there were up to its end. -/
def compress (h : Array UInt64) (block : List UInt8) (count : Nat) (last : Bool) : Array UInt64 :=
  let m := (words 16 (block ++ List.replicate (128 - block.length) 0)).toArray
  let v := h ++ initial
  let v := v.setIfInBounds 12 (v.getD 12 0 ^^^ UInt64.ofNat count)
  let v := v.setIfInBounds 13 (v.getD 13 0 ^^^ UInt64.ofNat (count / Nat.pow 2 64))
  let v := if last then v.setIfInBounds 14 (~~~ (v.getD 14 0)) else v
  let v := schedule.foldl (fun v order => round m v lanes order) v
  h.mapIdx fun i x => x ^^^ v.getD i 0 ^^^ v.getD (i + 8) 0

/-- Mix in all bytes; the last block is the one that nothing follows. The first number bounds the
blocks, the second counts the bytes. -/
def absorb : Nat → Nat → Array UInt64 → List UInt8 → Array UInt64
  | 0, _, h, _ => h
  | fuel + 1, count, h, bytes =>
    let block := bytes.take 128
    let rest := bytes.drop 128
    let count := count + block.length
    if rest.isEmpty then compress h block count true
    else absorb fuel count (compress h block count false) rest

def bytesOf (w : UInt64) : List UInt8 :=
  (List.range 8).map fun i => UInt8.ofNat (w.toNat / Nat.pow 256 i)

/-- The digest of some bytes. -/
def digest (bytes : List UInt8) : List UInt8 :=
  let h := initial.setIfInBounds 0 (initial.getD 0 0 ^^^ 0x01010020)
  ((absorb (bytes.length + 1) 0 h bytes).toList.flatMap bytesOf).take 32

end Blake2b

/-- Bytes in lower-case hexadecimal. -/
def hexText (bytes : List UInt8) : String := String.join (bytes.map fun b => Text.hex 2 b.toNat)

end ClassAtlas.Digest
