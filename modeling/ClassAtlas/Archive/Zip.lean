import ClassAtlas.Archive.Inflate
import ClassAtlas.Text.Utf8

/-!
Archives of files. The directory at the end of an archive lists its entries; the bytes of an entry
stand earlier, plain or compressed, and are held to the size and checksum that the directory gives.
The checksum is the remainder of the bytes, taken as a polynomial over two elements.
-/
namespace ClassAtlas.Archive

/-! The checksum -/

/-- Divide one bit away. -/
def crcBit (r : UInt32) : UInt32 :=
  if r &&& 1 == 1 then (r >>> 1) ^^^ 0xedb88320 else r >>> 1

def crcByte (r : UInt32) (b : UInt8) : UInt32 :=
  (List.range 8).foldl (fun r _ => crcBit r) (r ^^^ b.toUInt32)

def crc32 (bytes : List UInt8) : UInt32 := bytes.foldl crcByte 0xffffffff ^^^ 0xffffffff

/-! The entries -/

inductive Fault where
  | notArchive
  | unsupported
  | checksum
  | unexpectedEnd
  | noHeader
  | corrupt (offset : Nat)
  deriving DecidableEq, Repr

def Fault.message : Fault → String
  | .notArchive => "zip: not a valid zip file"
  | .unsupported => "zip: unsupported compression algorithm"
  | .checksum => "zip: checksum error"
  | .unexpectedEnd => "unexpected EOF"
  | .noHeader => "EOF"
  | .corrupt offset => s!"flate: corrupt input before offset {offset}"

/-- The number that some bytes spell, the last byte weighing most. -/
def littleEndian : List UInt8 → Nat
  | [] => 0
  | b :: more => b.toNat + 256 * littleEndian more

/-- The number of `width` bytes at a place; the bytes must be there for it to mean anything. -/
def field (bytes : List UInt8) (offset width : Nat) : Nat :=
  littleEndian ((bytes.drop offset).take width)

/-- What the directory says about an entry. -/
structure Entry where
  name : String
  method : Nat
  crc : UInt32
  compressedSize : Nat
  size : Nat
  headerOffset : Nat
  deriving DecidableEq, Repr

/-- The name of a directory ends in a slash. -/
def Entry.isDir (e : Entry) : Bool := Text.endsWith e.name "/"

def directoryEndSize : Nat := 22

/-- The last place where the end of the directory can stand: its mark is there, and the comment that
it announces fits behind it. -/
def directoryEnd? (bytes : List UInt8) : Option Nat :=
  let size := bytes.length
  let isEnd (i : Nat) : Bool := (bytes.drop i).take 4 == [0x50, 0x4b, 5, 6]
  match ((List.range (size + 1 - directoryEndSize)).reverse.find? isEnd) with
  | some i => if i + directoryEndSize + field bytes (i + 20) 2 ≤ size then some i else none
  | none => none

/-- One record of the directory, and how long it is. -/
def directoryRecord? (bytes : List UInt8) (offset : Nat) : Except Fault (Entry × Nat) :=
  let record := bytes.drop offset
  let nameSize := field record 28 2
  let size := 46 + nameSize + field record 30 2 + field record 32 2
  if record.length < 46 then .error .unexpectedEnd
  else if record.take 4 != [0x50, 0x4b, 1, 2] then .error .notArchive
  else if record.length < size then .error .unexpectedEnd
  else .ok (
    { name := Text.Utf8.decode ((record.drop 46).take nameSize)
      method := field record 10 2
      crc := UInt32.ofNat (field record 16 4)
      compressedSize := field record 20 4
      size := field record 24 4
      headerOffset := field record 42 4 }, size)

/-- The records from a place on, up to the first that is none, and why that one is none. -/
def directoryRecords (bytes : List UInt8) : Nat → Nat → List Entry × Fault
  | 0, _ => ([], .unexpectedEnd)
  | fuel + 1, offset =>
    match directoryRecord? bytes offset with
    | .ok (entry, size) =>
      let (more, fault) := directoryRecords bytes fuel (offset + size)
      (entry :: more, fault)
    | .error fault => ([], fault)

/-- The entries of an archive in the order of its directory. -/
def entries (bytes : List UInt8) : Except Fault (List Entry) :=
  match directoryEnd? bytes with
  | none => .error .notArchive
  | some endOffset =>
    let count := field bytes (endOffset + 10) 2
    let directorySize := field bytes (endOffset + 12) 4
    let directoryOffset := field bytes (endOffset + 16) 4
    let base : Int := (endOffset : Int) - directorySize - directoryOffset
    let start := base + directoryOffset
    if start < 0 || (bytes.length : Int) ≤ start then .error .notArchive
    else
      -- A directory found right where the archive says it is means that nothing stands before it.
      let base : Int :=
        if 0 < base && (directoryRecord? bytes directoryOffset).isOk then 0 else base
      let recordsFrom (base : Int) : List Entry × Fault :=
        directoryRecords bytes (bytes.length + 1) (base + directoryOffset).toNat
      -- Nor does anything stand before it if there is no record where it should be otherwise.
      let base : Int := if base != 0 && recordsFrom base == ([], .notArchive) then 0 else base
      let (found, fault) := recordsFrom base
      if found.length % 65536 != count then .error fault
      else .ok (found.map fun e => { e with headerOffset := (base + e.headerOffset).toNat })

/-- The plain bytes of an entry, which are neither more nor less than the directory says. A checksum of
zero is not compared. -/
def contents (bytes : List UInt8) (e : Entry) : Except Fault (List UInt8) := do
  let header := bytes.drop e.headerOffset
  if header.length < 30 then throw .noHeader
  if header.take 4 != [0x50, 0x4b, 3, 4] then throw .notArchive
  let start := 30 + field header 26 2 + field header 28 2
  let packed := (header.drop start).take e.compressedSize
  let plain ← match e.method with
    | 0 => pure packed
    | 8 => (Inflate.run packed).mapError fun
      | .truncated => .unexpectedEnd
      | .corrupt left => .corrupt (packed.length - left / 8)
    | _ => throw .unsupported
  if e.size < plain.length then throw .notArchive
  if plain.length < e.size then throw .unexpectedEnd
  if e.crc != 0 && crc32 plain != e.crc then throw .checksum
  return plain

end ClassAtlas.Archive
