import RowPipeline.Json.Printer

/-!
Random-looking identifiers in the usual form of 32 hexadecimal digits. A source makes as many as are
asked for from one seed.
-/

namespace RowPipeline

structure IdSource where
  seed : UInt64
  /-- How many numbers were taken from the source. -/
  taken : Nat := 0
  deriving DecidableEq, Repr

namespace IdSource

/-- Scatters the bits of a number; different numbers stay different. -/
def scatter (number : UInt64) : UInt64 :=
  let first := (number ^^^ (number >>> 30)) * 0xbf58476d1ce4e5b9
  let second := (first ^^^ (first >>> 27)) * 0x94d049bb133111eb
  second ^^^ (second >>> 31)

def number (source : IdSource) (position : Nat) : UInt64 :=
  scatter (source.seed + UInt64.ofNat (position + 1) * 0x9e3779b97f4a7c15)

def digits (count : Nat) (number : Nat) : List Char :=
  (List.range count).map fun position =>
    Json.hexDigit ((number >>> (4 * (count - 1 - position))) % 16)

/-- The form of an identifier whose digits are random but for the marks of version and variant. -/
def text (high low : UInt64) : String :=
  let high := high.toNat
  let low := low.toNat
  String.ofList
    (digits 8 (high >>> 32) ++ '-' :: digits 4 (high >>> 16) ++ '-' :: '4' :: digits 3 high ++
      '-' :: Json.hexDigit (8 + (low >>> 60) % 4) :: digits 3 (low >>> 48) ++
      '-' :: digits 12 low)

def next (source : IdSource) : String × IdSource :=
  (text (source.number source.taken) (source.number (source.taken + 1)),
    { source with taken := source.taken + 2 })

end IdSource

end RowPipeline
