import Catalog.Text.WidthTable

/-!
Letters that a script writes as one. A line is read from its end, so that a ligature is met at its
last letter; the part met so far decides what the next letter to the left adds.
-/
namespace Catalog.Text

def inRange (c : Char) (low high : Nat) : Bool :=
  low ≤ c.toNat && c.toNat ≤ high

/-- The joiner asks that the characters on either side become one. -/
def joiner : Char := '\u200D'

/-- The last part of a ligature. -/
inductive Ligature where
  /-- Arabic alef, which goes under a lam. -/
  | alef
  /-- Hebrew lamed, which goes under an alef across a joiner. -/
  | lamed
  /-- Buginese ya, which follows the vowel sign i across a joiner. -/
  | ya
  /-- Buginese ya and the vowel sign i, which go under an a. -/
  | signAndYa
  /-- A Tifinagh consonant. -/
  | consonant
  /-- A Tifinagh consonant and the sign that joins it to another. -/
  | signAndConsonant
  /-- The second letter of a Lisu tone. -/
  | tone
  /-- Old Turkic i, which goes under an ec across a joiner. -/
  | orkhonI
  /-- A Khmer letter that can be written below another. -/
  | below
  /-- The Kirat Rai vowel sign e. -/
  | vowelE
  /-- The Kirat Rai vowel sign ai, also written as two e. -/
  | vowelAi
  deriving DecidableEq

namespace Ligature

def isAlef (c : Char) : Bool :=
  c.toNat = 0x622 || c.toNat = 0x623 || c.toNat = 0x625 || c.toNat = 0x627
    || inRange c 0x671 0x673 || c.toNat = 0x675 || inRange c 0x773 0x774
    || inRange c 0x870 0x882

def isLam (c : Char) : Bool :=
  c.toNat = 0x644 || inRange c 0x6B5 0x6B8 || c.toNat = 0x76A || c.toNat = 0x8A6
    || c.toNat = 0x8C7

def isTifinagh (c : Char) : Bool :=
  inRange c 0x2D31 0x2D65 || c.toNat = 0x2D6F

/-- Khmer letters that the sign coeng puts below another letter. -/
def isKhmer (c : Char) : Bool :=
  Ranges.contains #[(0x1780, 0x1782), (0x1784, 0x1787), (0x1789, 0x178C), (0x178E, 0x1793),
    (0x1795, 0x1798), (0x179B, 0x179D), (0x17A0, 0x17A0), (0x17A2, 0x17A2), (0x17A7, 0x17A7),
    (0x17AB, 0x17AC), (0x17AF, 0x17AF)] c

/-- The ligature that a character can be the last part of. -/
def ofLast? (c : Char) : Option Ligature :=
  if isAlef c then some .alef
  else if c.toNat = 0x5DC then some .lamed
  else if c.toNat = 0x1A10 then some .ya
  else if isTifinagh c then some .consonant
  else if inRange c 0xA4FC 0xA4FD then some .tone
  else if c.toNat = 0x10C03 then some .orkhonI
  else if isKhmer c then some .below
  else if c.toNat = 0x16D67 then some .vowelE
  else if c.toNat = 0x16D68 then some .vowelAi
  else none

/-- Marks that show nothing do not part the letters of a ligature. -/
def isInvisibleMark (c : Char) : Bool :=
  Ranges.contains #[(0x34F, 0x34F), (0x17B4, 0x17B5), (0x180B, 0x180D), (0x180F, 0x180F),
    (0x200D, 0x200D), (0xFE00, 0xFE0F), (0xE0100, 0xE01EF)] c

/-- Whether selectors may stand within the ligature. The vowels of Kirat Rai join only where
nothing stands between them. -/
def spansSelectors : Ligature → Bool
  | .vowelE | .vowelAi => false
  | _ => true

/-- Whether the ligature goes on across a character. Arabic letters join across every mark that
takes no column, the joiner apart. -/
def passes (l : Ligature) (c : Char) : Bool :=
  match l with
  | .alef => zeroWidth.contains c && !joiningBarriers.contains c
  | .vowelE | .vowelAi => false
  | _ => isInvisibleMark c

/-- The columns that a character before the last part adds, and what can join further left. The
characters of a ligature take one column in all; a Khmer letter below another takes none. -/
def join? (l : Ligature) (joined : Bool) (c : Char) : Option (Int × Option Ligature) :=
  match l with
  | .alef => if isLam c then some (0, none) else none
  | .lamed => if joined && c.toNat = 0x5D0 then some (0, none) else none
  | .ya => if joined && c.toNat = 0x1A17 then some (0, some .signAndYa) else none
  | .signAndYa => if c.toNat = 0x1A15 then some (0, none) else none
  | .consonant =>
    if c.toNat = 0x2D7F then some (1, some .signAndConsonant)
    else if joined && isTifinagh c then some (0, none)
    else none
  | .signAndConsonant => if isTifinagh c then some (-1, none) else none
  | .tone => if inRange c 0xA4F8 0xA4FB then some (0, none) else none
  | .orkhonI => if joined && c.toNat = 0x10C32 then some (0, none) else none
  | .below => if c.toNat = 0x17D2 then some (-1, none) else none
  | .vowelE =>
    if c.toNat = 0x16D63 || c.toNat = 0x16D69 then some (0, none)
    else if c.toNat = 0x16D67 then some (0, some .vowelAi)
    else if c.toNat = 0x16D68 then some (1, some .vowelE)
    else none
  | .vowelAi => if c.toNat = 0x16D63 then some (0, none) else none

end Ligature

end Catalog.Text
