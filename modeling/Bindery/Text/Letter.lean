/-!
# ASCII letters

Case of the ASCII letters.  Every other character passes unchanged.
-/

set_option autoImplicit false

namespace Bindery

namespace Chars

/-- The upper-case form of an ASCII letter. -/
def upper (c : Char) : Char :=
  if c.isLower then Char.ofNat (c.toNat - 32) else c

/-- The lower-case form of an ASCII letter. -/
def lower (c : Char) : Char :=
  if c.isUpper then Char.ofNat (c.toNat + 32) else c

end Chars

end Bindery
