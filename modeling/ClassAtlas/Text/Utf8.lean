import ClassAtlas.Text.Basic

/-!
Bytes of a text and texts of bytes. Reading never fails: a byte that starts no well-formed
character becomes the replacement character, one for each byte.
-/
namespace ClassAtlas.Text.Utf8

def encode (s : String) : List UInt8 := s.toList.flatMap String.utf8EncodeChar

/-- The number of bytes of a text. -/
def size (s : String) : Nat := (encode s).length

def isContinuation (b : UInt8) : Bool := 0x80 ≤ b && b < 0xc0

/-- The well-formed character at the start of some bytes, and how many bytes it takes. -/
def first? : List UInt8 → Option (Char × Nat)
  | [] => none
  | a :: rest =>
    if a < 0x80 then some (Char.ofNat a.toNat, 1)
    else match rest with
      | b :: more =>
        if 0xc2 ≤ a && a < 0xe0 && isContinuation b then
          some (Char.ofNat ((a.toNat - 0xc0) * 64 + (b.toNat - 0x80)), 2)
        else match more with
          | c :: last =>
            if 0xe0 ≤ a && a < 0xf0 && isContinuation b && isContinuation c &&
                (a != 0xe0 || 0xa0 ≤ b) && (a != 0xed || b < 0xa0) then
              some (Char.ofNat
                ((a.toNat - 0xe0) * 4096 + (b.toNat - 0x80) * 64 + (c.toNat - 0x80)), 3)
            else match last with
              | d :: _ =>
                if 0xf0 ≤ a && a < 0xf5 && isContinuation b && isContinuation c &&
                    isContinuation d && (a != 0xf0 || 0x90 ≤ b) && (a != 0xf4 || b < 0x90) then
                  some (Char.ofNat ((a.toNat - 0xf0) * 262144 + (b.toNat - 0x80) * 4096 +
                    (c.toNat - 0x80) * 64 + (d.toNat - 0x80)), 4)
                else none
              | [] => none
          | [] => none
      | [] => none

/-- The characters of some bytes; `none` stands for a byte that belongs to no character. The count
is how many bytes of the last character are still to be passed over. -/
def scan : Nat → List UInt8 → List (Option Char)
  | _, [] => []
  | k + 1, _ :: rest => scan k rest
  | 0, a :: rest =>
    match first? (a :: rest) with
    | some (c, width) => some c :: scan (width - 1) rest
    | none => none :: scan 0 rest

def replacement : Char := Char.ofNat 0xfffd

def decode (bytes : List UInt8) : String :=
  String.ofList ((scan 0 bytes).map (·.getD replacement))

/-- Whether every byte belongs to a well-formed character. -/
def isValid (bytes : List UInt8) : Bool := (scan 0 bytes).all Option.isSome

/-- The first bytes of a text, read again as a text. -/
def takeBytes (n : Nat) (s : String) : String := decode ((encode s).take n)

end ClassAtlas.Text.Utf8
