import Logbook.Text.Width.Char

/-!
# Ligatures

Letters that are shown together with the letters in front of them, and so take fewer columns than
they do alone.  Some form a ligature wherever they meet, others only when a joiner stands between
them.

* `Width.lams`, `Width.alefs`: the Arabic letters of the ligature of lam and alef.
* `Width.Ligature`: what stands at the end of the other ligatures.
* `Width.Ligature.ofNat?`: the ligature that a character may end.
-/

namespace Logbook.Text.Width

/-! ## Lam and alef -/

/-- Forms of the letter lam. -/
def lams : List (Nat × Nat) :=
  [(0x0644, 0x0644), (0x06B5, 0x06B8), (0x076A, 0x076A), (0x08A6, 0x08A6), (0x08C7, 0x08C7)]

/-- Forms of the letter alef. -/
def alefs : List (Nat × Nat) :=
  [(0x0622, 0x0623), (0x0625, 0x0625), (0x0627, 0x0627), (0x0671, 0x0673), (0x0675, 0x0675),
   (0x0773, 0x0774), (0x0870, 0x0882)]

/-- Characters without a width that keep the letters around them apart. -/
def parting : List (Nat × Nat) :=
  [(0x0605, 0x0605), (0x0890, 0x0891), (0x08E2, 0x08E2), (0x09BE, 0x09BE), (0x09D7, 0x09D7),
   (0x0B3E, 0x0B3E), (0x0B57, 0x0B57), (0x0BBE, 0x0BBE), (0x0BD7, 0x0BD7), (0x0CC0, 0x0CC0),
   (0x0CC2, 0x0CC2), (0x0CC7, 0x0CC8), (0x0CCA, 0x0CCB), (0x0CD5, 0x0CD6), (0x0D3E, 0x0D3E),
   (0x0D4E, 0x0D4E), (0x0D57, 0x0D57), (0x0DCF, 0x0DCF), (0x0DDF, 0x0DDF), (0x1160, 0x11FF),
   (0x180E, 0x180E), (0x1B35, 0x1B35), (0x1B3B, 0x1B3B), (0x1B3D, 0x1B3D), (0x1B43, 0x1B43),
   (0x200C, 0x200D), (0x2065, 0x2069), (0x302E, 0x302F), (0x3164, 0x3164), (0xA8FA, 0xA8FA),
   (0xD7B0, 0xD7C6), (0xD7CB, 0xD7FB), (0xFF9E, 0xFFA0), (0xFFF0, 0xFFF8), (0x111C2, 0x111C3),
   (0x1133E, 0x1133E), (0x11357, 0x11357), (0x114B0, 0x114B0), (0x114BD, 0x114BD),
   (0x115AF, 0x115AF), (0x11930, 0x11930), (0x1193F, 0x1193F), (0x11941, 0x11941),
   (0x11A3A, 0x11A3A), (0x11A84, 0x11A89), (0x11D46, 0x11D46), (0x11F02, 0x11F02),
   (0x1D165, 0x1D165), (0x1D16E, 0x1D172), (0xE0000, 0xE0000), (0xE0002, 0xE001F),
   (0xE0080, 0xE00FF), (0xE01F0, 0xE0FFF)]

/-- Holds of the marks that may stand between lam and alef. -/
def isMark (n : Nat) : Bool := within zeroWidth n && !within parting n

/-! ## Other ligatures -/

/-- The Khmer letters that have a form below the line, which the sign coeng asks for. -/
def coengLetters : List (Nat × Nat) :=
  [(0x1780, 0x1782), (0x1784, 0x1787), (0x1789, 0x178C), (0x178E, 0x1793), (0x1795, 0x1798),
   (0x179B, 0x179D), (0x17A0, 0x17A0), (0x17A2, 0x17A2), (0x17A7, 0x17A7), (0x17AB, 0x17AC),
   (0x17AF, 0x17AF)]

/-- Holds of the Tifinagh letters. -/
def isTifinagh (n : Nat) : Bool := 0x2D31 ≤ n && n ≤ 0x2D65 || n = 0x2D6F

/-- What stands at the end of a ligature. -/
inductive Ligature where
  | lamed
  | coengLetter
  | ya
  /-- The Buginese vowel sign i in front of the letter ya. -/
  | vowelAndYa
  | tifinagh
  /-- The sign that joins Tifinagh consonants, in front of a letter. -/
  | consonantJoiner
  | lisuTone
  | orkhonI
deriving DecidableEq, Repr

/-- The ligature that a character may end. -/
def Ligature.ofNat? (n : Nat) : Option Ligature :=
  if n = 0x05DC then some lamed
  else if within coengLetters n then some coengLetter
  else if n = 0x1A10 then some ya
  else if isTifinagh n then some tifinagh
  else if n = 0xA4FC || n = 0xA4FD then some lisuTone
  else if n = 0x10C03 then some orkhonI
  else none

/-- The columns that a character adds in front of a ligature, and what is still missing of the
ligature then.  `joined` says whether a joiner stands between the two. -/
def Ligature.grow? (last : Ligature) (joined : Bool) (n : Nat) : Option (Int × Option Ligature) :=
  match last with
  | lamed => if joined && n = 0x05D0 then some (0, none) else none
  | coengLetter => if n = 0x17D2 then some (-1, none) else none
  | ya => if joined && n = 0x1A17 then some (0, some vowelAndYa) else none
  | vowelAndYa => if n = 0x1A15 then some (0, none) else none
  | tifinagh =>
    if n = 0x2D7F then some (1, some consonantJoiner)
    else if joined && isTifinagh n then some (0, none)
    else none
  | consonantJoiner => if isTifinagh n then some (-1, none) else none
  | lisuTone => if 0xA4F8 ≤ n && n ≤ 0xA4FB then some (0, none) else none
  | orkhonI => if joined && n = 0x10C32 then some (0, none) else none

/-- Holds of the characters that do not part the letters of a ligature: variation selectors and
fillers that are not shown. -/
def isTransparent (n : Nat) : Bool :=
  within [(0x034F, 0x034F), (0x17B4, 0x17B5), (0x180B, 0x180D), (0x180F, 0x180F), (0xFE00, 0xFE0F),
    (0xE0100, 0xE01EF)] n

end Logbook.Text.Width
