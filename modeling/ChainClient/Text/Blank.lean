/-!
# `ChainClient.Text.Blank` — white space and the trimming of texts

## Contents
- **Property.** `isBlank` is the Unicode property White_Space.
- **Trimming.** `trim` drops the blanks at both ends, and so makes no text longer.
-/

namespace ChainClient.Text

/-- Whether a character has the property White_Space. -/
def isBlank (c : Char) : Bool :=
  let n := c.toNat
  (0x09 ≤ n && n ≤ 0x0D) || n == 0x20 || n == 0x85 || n == 0xA0 || n == 0x1680 ||
    (0x2000 ≤ n && n ≤ 0x200A) || n == 0x2028 || n == 0x2029 || n == 0x202F || n == 0x205F ||
    n == 0x3000

/-- A text without the blanks at its ends. -/
def trim (cs : List Char) : List Char :=
  ((cs.dropWhile isBlank).reverse.dropWhile isBlank).reverse

theorem length_trim_le (cs : List Char) : (trim cs).length ≤ cs.length := by
  have h1 := (List.dropWhile_sublist (l := cs) isBlank).length_le
  have h2 := (List.dropWhile_sublist (l := (cs.dropWhile isBlank).reverse) isBlank).length_le
  simp only [trim, List.length_reverse] at *
  omega

end ChainClient.Text
