/-!
# Blank characters

The characters that separate words: those with the Unicode property `White_Space`.
-/

namespace ChainScript.Text

/-- The character separates words.  These are the 25 characters with the Unicode property
`White_Space`; the zero-width characters are not among them. -/
def isBlank (c : Char) : Bool :=
  let n := c.val
  (0x09 ≤ n && n ≤ 0x0d) || n == 0x20 || n == 0x85 || n == 0xa0 || n == 0x1680 ||
    (0x2000 ≤ n && n ≤ 0x200a) || n == 0x2028 || n == 0x2029 || n == 0x202f ||
    n == 0x205f || n == 0x3000

end ChainScript.Text
