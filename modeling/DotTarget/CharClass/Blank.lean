import DotTarget.CharClass.Ranges

set_option autoImplicit false

/-! # White space

The code points with the Unicode property White_Space. Zero-width characters and the information
separators are not among them. -/

namespace DotTarget.CharClass

/-- The code points with the property White_Space. -/
def blankRanges : Ranges :=
  [(0x09, 0x0D), (0x20, 0x20), (0x85, 0x85), (0xA0, 0xA0), (0x1680, 0x1680), (0x2000, 0x200A),
   (0x2028, 0x2029), (0x202F, 0x202F), (0x205F, 0x205F), (0x3000, 0x3000)]

end DotTarget.CharClass
