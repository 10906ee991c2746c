/-!
FabricFootprint.Text.Blank — white space in the Unicode sense, and trimming.

* `isBlank c` — `c` has the Unicode property White_Space (25 characters,
  listed by code point).
* `trim s` — `s` without the longest blank runs at its two ends; inner blanks stay.
-/

namespace FabricFootprint.Text

/-- The characters with the Unicode property White_Space. -/
def isBlank (c : Char) : Bool :=
  (0x09 ≤ c.toNat && c.toNat ≤ 0x0D) || c.toNat == 0x20 || c.toNat == 0x85 ||
    c.toNat == 0xA0 || c.toNat == 0x1680 || (0x2000 ≤ c.toNat && c.toNat ≤ 0x200A) ||
    c.toNat == 0x2028 || c.toNat == 0x2029 || c.toNat == 0x202F || c.toNat == 0x205F ||
    c.toNat == 0x3000

/-- A character list without its leading and trailing blanks. -/
def trimChars (cs : List Char) : List Char :=
  ((cs.dropWhile isBlank).reverse.dropWhile isBlank).reverse

def trim (s : String) : String := String.ofList (trimChars s.toList)

end FabricFootprint.Text
