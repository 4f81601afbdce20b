import SolDeployer.Text.Ranges

/-!
# Blanks

The characters that separate words: white space of the Unicode standard,
and the four separators of ASCII.
-/

namespace SolDeployer.Text

def blankRanges : Ranges :=
  [(9, 0xd), (0x1c, 0x20), (0x85, 0x85), (0xa0, 0xa0), (0x1680, 0x1680), (0x2000, 0x200a),
   (0x2028, 0x2029), (0x202f, 0x202f), (0x205f, 0x205f), (0x3000, 0x3000)]

/-- Is the character white space of some script? -/
def isBlank (c : Char) : Bool := blankRanges.contains c.toNat

/-- Is the character white space of ASCII text: a space, a tab or an end
of line? -/
def isPlainBlank (c : Char) : Bool := c.toNat == 32 || (9 ≤ c.toNat && c.toNat ≤ 13)

end SolDeployer.Text
