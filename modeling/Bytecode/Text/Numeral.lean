/-
Numbers in text: the digits of a natural number in a base, padded with
zeros to a least width, and signed decimal numbers.

* `digits base width n`: the digits of `n`, at least `width` of them;
* `decimal`, `paddedDecimal`, `hex`: the texts in base ten and sixteen,
  the latter with small letters;
* `integer`: a signed number, with `-` in front when it is negative.
-/

namespace Bytecode.Text

/-- The digits of `n` in a base of at most sixteen, most significant
first, with zeros in front up to `width` digits. -/
def digits (base width n : Nat) : List Char :=
  (Nat.toDigits base n).leftpad width '0'

/-- The shortest decimal text of a natural number. -/
def decimal (n : Nat) : String :=
  String.ofList (digits 10 1 n)

/-- Decimal text of at least `width` digits. -/
def paddedDecimal (width n : Nat) : String :=
  String.ofList (digits 10 width n)

/-- Text in base sixteen of at least `width` digits. -/
def hex (width n : Nat) : String :=
  String.ofList (digits 16 width n)

/-- The decimal text of an integer. -/
def integer : Int → String
  | .ofNat n => decimal n
  | .negSucc n => "-" ++ decimal (n + 1)

/-- A text with spaces behind it up to `width` characters. -/
def padRight (width : Nat) (text : String) : String :=
  String.ofList (text.toList.rightpad width ' ')

end Bytecode.Text
