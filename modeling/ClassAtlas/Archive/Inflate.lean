/-!
Compressed data made plain again. The data is a row of bits, read from the low end of each byte, in
blocks that hold bytes as they are or as codes; a code stands for a byte or for a run of bytes that
came before.
-/
namespace ClassAtlas.Archive.Inflate

inductive Fault where
  | truncated
  /-- The data makes no sense; so many bits were left when that was seen. -/
  | corrupt (left : Nat)
  deriving DecidableEq, Repr

/-- The bits of a byte, the lowest first. -/
def bitsOf (b : UInt8) : List Bool := (List.range 8).map fun i => b.toNat.testBit i

abbrev Bits := List Bool

/-- A number of so many bits, the lowest first. -/
def number : Nat → Bits → Except Fault (Nat × Bits)
  | 0, bits => .ok (0, bits)
  | _ + 1, [] => .error .truncated
  | n + 1, b :: bits => do
    let (high, bits) ← number n bits
    return (2 * high + b.toNat, bits)

/-- A prefix code: how many codes there are of each length, and their symbols in order of codes. -/
structure Code where
  counts : List Nat
  symbols : Array Nat

/-- The code in which symbol `i` has the `i`-th length; length zero means that it has none. -/
def Code.ofLengths (lengths : List Nat) : Code :=
  let indexed := lengths.zipIdx
  let ofLength (n : Nat) := (indexed.filter (·.1 == n)).map (·.2)
  let groups := (List.range 15).map fun i => ofLength (i + 1)
  ⟨groups.map List.length, groups.flatten.toArray⟩

/-- The symbol whose code comes next. `first` is the least code of the length reached, `index` the
number of its symbol. -/
def Code.walk (c : Code) : List Nat → Nat → Nat → Nat → Bits → Except Fault (Nat × Bits)
  | [], _, _, _, bits => .error (.corrupt bits.length)
  | _ :: _, _, _, _, [] => .error .truncated
  | count :: counts, code, first, index, b :: bits =>
    let code := code + b.toNat
    if code < first + count then
      match c.symbols[index + (code - first)]? with
      | some symbol => .ok (symbol, bits)
      | none => .error (.corrupt bits.length)
    else c.walk counts (2 * code) (2 * (first + count)) (index + count) bits

def Code.next (c : Code) (bits : Bits) : Except Fault (Nat × Bits) := c.walk c.counts 0 0 0 bits

/-- Least length and further bits of each length symbol, from 257 on. -/
def lengthTable : Array (Nat × Nat) := #[
  (3, 0), (4, 0), (5, 0), (6, 0), (7, 0), (8, 0), (9, 0), (10, 0), (11, 1), (13, 1), (15, 1),
  (17, 1), (19, 2), (23, 2), (27, 2), (31, 2), (35, 3), (43, 3), (51, 3), (59, 3), (67, 4),
  (83, 4), (99, 4), (115, 4), (131, 5), (163, 5), (195, 5), (227, 5), (258, 0)]

/-- Least distance and further bits of each distance symbol. -/
def distanceTable : Array (Nat × Nat) := #[
  (1, 0), (2, 0), (3, 0), (4, 0), (5, 1), (7, 1), (9, 2), (13, 2), (17, 3), (25, 3), (33, 4),
  (49, 4), (65, 5), (97, 5), (129, 6), (193, 6), (257, 7), (385, 7), (513, 8), (769, 8),
  (1025, 9), (1537, 9), (2049, 10), (3073, 10), (4097, 11), (6145, 11), (8193, 12), (12289, 12),
  (16385, 13), (24577, 13)]

/-- Repeat a run that ended so far back; it may run into itself. -/
def copyBack (distance : Nat) : Nat → Array UInt8 → Array UInt8
  | 0, out => out
  | n + 1, out => copyBack distance n (out.push (out.getD (out.size - distance) 0))

/-- A number from a table: its least value and as many bits more as the entry says. -/
def tableNumber (table : Array (Nat × Nat)) (index : Nat) (bits : Bits) :
    Except Fault (Nat × Bits) :=
  match table[index]? with
  | some (least, extra) => do
    let (more, bits) ← number extra bits
    return (least + more, bits)
  | none => .error (.corrupt bits.length)

/-- The symbols of a block up to its end mark. Each takes a bit at least. -/
def symbols (literals distances : Code) : Nat → Bits → Array UInt8 →
    Except Fault (Bits × Array UInt8)
  | 0, _, _ => .error .truncated
  | fuel + 1, bits, out => do
    let (symbol, bits) ← literals.next bits
    if symbol < 256 then symbols literals distances fuel bits (out.push (UInt8.ofNat symbol))
    else if symbol == 256 then return (bits, out)
    else
      let (length, bits) ← tableNumber lengthTable (symbol - 257) bits
      let (index, bits) ← distances.next bits
      let (distance, bits) ← tableNumber distanceTable index bits
      if distance > out.size then throw (.corrupt bits.length)
      else symbols literals distances fuel bits (copyBack distance length out)

def fixedLiterals : Code :=
  .ofLengths (List.replicate 144 8 ++ List.replicate 112 9 ++ List.replicate 24 7 ++
    List.replicate 8 8)

def fixedDistances : Code := .ofLengths (List.replicate 30 5)

/-- The order in which the lengths of the length codes are given. -/
def lengthOrder : List Nat := [16, 17, 18, 0, 8, 7, 9, 6, 10, 5, 11, 4, 12, 3, 13, 2, 14, 1, 15]

/-- So many numbers of three bits. -/
def threeBits : Nat → Bits → Except Fault (List Nat × Bits)
  | 0, bits => .ok ([], bits)
  | n + 1, bits => do
    let (a, bits) ← number 3 bits
    let (more, bits) ← threeBits n bits
    return (a :: more, bits)

/-- Code lengths, themselves coded, until there are so many. -/
def codeLengths (code : Code) (total : Nat) : Nat → Bits → List Nat →
    Except Fault (List Nat × Bits)
  | 0, _, _ => .error .truncated
  | fuel + 1, bits, soFar =>
    if soFar.length == total then .ok (soFar.reverse, bits)
    else do
      let (symbol, bits) ← code.next bits
      if symbol < 16 then codeLengths code total fuel bits (symbol :: soFar)
      else
        let (value, extra, least) : Option Nat × Nat × Nat :=
          if symbol == 16 then (soFar.head?, 2, 3)
          else if symbol == 17 then (some 0, 3, 3) else (some 0, 7, 11)
        match value with
        | none => throw (.corrupt bits.length)
        | some value =>
          let (more, bits) ← number extra bits
          let count := least + more
          if soFar.length + count > total then throw (.corrupt bits.length)
          else codeLengths code total fuel bits (List.replicate count value ++ soFar)

/-- The codes that a block brings along. -/
def dynamicCodes (bits : Bits) : Except Fault (Code × Code × Bits) := do
  let (literalCount, bits) ← number 5 bits
  let (distanceCount, bits) ← number 5 bits
  let (lengthCount, bits) ← number 4 bits
  let (given, bits) ← threeBits (lengthCount + 4) bits
  let pairs := lengthOrder.zip given
  let lengths := (List.range 19).map fun i => (pairs.lookup i).getD 0
  let literals := literalCount + 257
  let total := literals + distanceCount + 1
  let (all, bits) ← codeLengths (.ofLengths lengths) total (total + 1) bits []
  return (.ofLengths (all.take literals), .ofLengths (all.drop literals), bits)

/-- Bytes as they are, from the next whole byte on. -/
def storedBytes : Nat → Bits → Array UInt8 → Except Fault (Bits × Array UInt8)
  | 0, bits, out => .ok (bits, out)
  | n + 1, bits, out => do
    let (b, bits) ← number 8 bits
    storedBytes n bits (out.push (UInt8.ofNat b))

/-- The blocks up to the last one. -/
def blocks : Nat → Bits → Array UInt8 → Except Fault (Array UInt8)
  | 0, _, _ => .error .truncated
  | fuel + 1, bits, out => do
    let (last, bits) ← number 1 bits
    let (kind, bits) ← number 2 bits
    let (bits, out) ← match kind with
      | 0 => do
        let bits := bits.drop (bits.length % 8)
        let (size, bits) ← number 16 bits
        let (check, bits) ← number 16 bits
        if size + check != 65535 then throw (.corrupt bits.length)
        else storedBytes size bits out
      | 1 => symbols fixedLiterals fixedDistances (bits.length + 1) bits out
      | 2 => do
        let (literals, distances, bits) ← dynamicCodes bits
        symbols literals distances (bits.length + 1) bits out
      | _ => throw (.corrupt bits.length)
    if last == 1 then return out else blocks fuel bits out

/-- The plain bytes of compressed ones. -/
def run (bytes : List UInt8) : Except Fault (List UInt8) :=
  let bits := bytes.flatMap bitsOf
  (blocks (bits.length + 1) bits #[]).map Array.toList

end ClassAtlas.Archive.Inflate
