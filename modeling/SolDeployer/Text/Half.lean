/-!
# Halves of surrogate pairs

A document can spell half of a surrogate pair on its own. It is no
character and has no bytes, but it is a part of a text like any other one.
Characters that no version of Unicode assigns stand for the halves:
`U+DD800` up to `U+DDFFF` for the units `D800` up to `DFFF`. With the halves
a text may have more kinds of parts than there are characters, so these
characters are given up: a text with one of them is taken for one with the
half.
-/

namespace SolDeployer.Text

/-- What stands for a unit that is half of a pair. -/
def half (unit : Nat) : Char := Char.ofNat (0xD0000 + unit)

/-- The character with a number, or what stands for a unit that is half of
a pair. -/
def ofCodePoint (n : Nat) : Char := if 0xD800 ≤ n ∧ n ≤ 0xDFFF then half n else Char.ofNat n

def isHalf (c : Char) : Bool := 0xDD800 ≤ c.toNat && c.toNat ≤ 0xDDFFF

/-- The number of a character, or of the unit that it stands for. -/
def codePoint (c : Char) : Nat := if isHalf c then c.toNat - 0xD0000 else c.toNat

/-- Have all parts of a text bytes? -/
def hasBytes (text : List Char) : Bool := !text.any isHalf

end SolDeployer.Text
