import Stencil.Text.Digit
import Stencil.Text.PrintableTable

/-!
# Printable characters

The characters that stand for themselves when a text is shown between quotes.
-/

namespace Stencil.Text

/-- Whether a character can be shown as it is. -/
def isPrintable (c : Char) : Bool :=
  if c.toNat < 0x7F then 0x20 ≤ c.toNat else withinBounds printableBounds c.toNat

end Stencil.Text
