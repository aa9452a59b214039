import DocQuery.Text.Hex

set_option autoImplicit false

/-! # Generated primary keys

A document that is stored without a primary key is given one: 128 bits, all random but for the six
that say so, in five groups of hexadecimal digits. -/

namespace DocQuery

/-- A generated key, as two words of random bits. -/
structure DocumentId where
  high : UInt64
  low : UInt64

namespace DocumentId

/-- The high word with the version, 4, in its place. -/
def versioned (id : DocumentId) : UInt64 :=
  (id.high &&& 0xFFFFFFFFFFFF0FFF) ||| 0x4000

/-- The low word with the variant, binary 10, in its place. -/
def varianted (id : DocumentId) : UInt64 :=
  (id.low &&& 0x3FFFFFFFFFFFFFFF) ||| 0x8000000000000000

/-- The key as text. -/
def text (id : DocumentId) : String :=
  let digits := paddedHex 16 id.versioned.toNat ++ paddedHex 16 id.varianted.toNat
  let group (start length : Nat) : String := String.ofList ((digits.drop start).take length)
  "-".intercalate [group 0 8, group 8 4, group 12 4, group 16 4, group 20 12]

end DocumentId

end DocQuery
