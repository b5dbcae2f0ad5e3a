import RowPipeline.Text.Codes

/-!
The gzip format with stored blocks: every reader of the format gives back the bytes that went in.
-/

namespace RowPipeline

namespace Gzip

def littleEndian : Nat → Nat → List UInt8
  | 0, _ => []
  | count + 1, number => UInt8.ofNat number :: littleEndian count (number / 256)

/-- The mark of the format, and that nothing else is told about the file. -/
def header : List UInt8 := [0x1f, 0x8b, 8, 0, 0, 0, 0, 0, 0, 255]

/-- A block holds at most this many bytes. -/
def blockLimit : Nat := 65535

def block (isLast : Bool) (bytes : List UInt8) : List UInt8 :=
  (if isLast then 1 else 0) :: littleEndian 2 bytes.length ++
    littleEndian 2 (blockLimit - bytes.length) ++ bytes

def blocks : Nat → List UInt8 → List UInt8
  | 0, _ => []
  | fuel + 1, bytes =>
    if bytes.length ≤ blockLimit then block true bytes
    else block false (bytes.take blockLimit) ++ blocks fuel (bytes.drop blockLimit)

def encode (bytes : List UInt8) : List UInt8 :=
  header ++ blocks (bytes.length / blockLimit + 1) bytes ++
    littleEndian 4 (Checksum.ofBytes bytes).toNat ++ littleEndian 4 bytes.length

end Gzip

end RowPipeline
