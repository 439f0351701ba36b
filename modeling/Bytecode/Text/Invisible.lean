/-
Characters that are not seen by themselves.

* `controls`: controls, format characters, private characters and all
  separators but the space;
* `blankLetters`: letters without a look of their own;
* `isInvisible`: whether a character is of one of these kinds, is drawn
  onto the character before it, or is not assigned at all.
-/
import Bytecode.Text.Extender
import Bytecode.Text.Unassigned

namespace Bytecode.Text

/-- Controls, format characters, private characters and separators, as ranges
of code points with both ends included. -/
def controls : List (Nat × Nat) :=
  [(0x0, 0x1f), (0x7f, 0xa0), (0xad, 0xad), (0x600, 0x605), (0x61c, 0x61c), (0x6dd, 0x6dd),
    (0x70f, 0x70f), (0x890, 0x891), (0x8e2, 0x8e2), (0x1680, 0x1680), (0x180e, 0x180e),
    (0x2000, 0x200f), (0x2028, 0x202f), (0x205f, 0x2064), (0x2066, 0x206f), (0x3000, 0x3000),
    (0xe000, 0xf8ff), (0xfeff, 0xfeff), (0xfff9, 0xfffb), (0x110bd, 0x110bd),
    (0x110cd, 0x110cd), (0x13430, 0x1343f), (0x1bca0, 0x1bca3), (0x1d173, 0x1d17a),
    (0xe0001, 0xe0001), (0xe0020, 0xe007f), (0xf0000, 0xffffd), (0x100000, 0x10fffd)]

/-- Fillers that stand for a letter that is not there. -/
def blankLetters : List (Nat × Nat) :=
  [(0x115f, 0x1160), (0x3164, 0x3164), (0xffa0, 0xffa0)]

/-- Whether a code point lies in one of the ranges. -/
def inRanges (n : Nat) (ranges : List (Nat × Nat)) : Bool :=
  ranges.any fun (first, last) => first ≤ n && n ≤ last

/-- Whether a character is not seen by itself. -/
def isInvisible (c : Char) : Bool :=
  inRanges c.toNat controls || inRanges c.toNat blankLetters ||
    inRanges c.toNat extenders || inRanges c.toNat unassigned

end Bytecode.Text
