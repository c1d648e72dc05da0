import Catalog.Text.EmojiTable
import Catalog.Text.Ligature

/-!
Emoji made of several characters: a skin tone after its base, emoji joined with one another, flags
of two indicators, flags spelled with tags. They are read from their end and take the two columns
of one emoji.
-/
namespace Catalog.Text

/-- Two indicators make a flag. -/
def isIndicator (c : Char) : Bool :=
  inRange c 0x1F1E6 0x1F1FF

def isTone (c : Char) : Bool :=
  inRange c 0x1F3FB 0x1F3FF

/-- The last part of an emoji. -/
inductive EmojiPart where
  | tone
  | whole
  /-- A joiner and the emoji after it; a keycap may stand before them. -/
  | joined (keycap : Bool)
  /-- Indicators, and whether a joiner and an emoji follow the last. -/
  | indicators (attached : Bool) (count : Nat)
  /-- Tags that spell the name of a flag, the end tag, a joiner and an emoji. The name has letters
  at its end and digits before them. -/
  | tags (letters digits : Nat)

namespace EmojiPart

/-- The emoji that a character can be the last part of. -/
def ofLast? (c : Char) : Option EmojiPart :=
  if isTone c then some .tone
  else if isIndicator c then some (.indicators false 1)
  else if emojiDefaults.contains c then some .whole
  else none

/-- Indicators pair up from the first. When an emoji is joined to the last, it takes the columns of
a pair with it; an indicator before such a pair leaves the last one alone. -/
def indicatorColumns (attached : Bool) (count : Nat) : Int :=
  if !attached || count = 0 then 1 else if count % 2 = 1 then -1 else 3

/-- The name of a flag: three to six letters, or three digits with up to four letters. -/
def flagNamed (letters digits : Nat) : Bool :=
  digits = 3 || digits = 0 && 3 ≤ letters && letters ≤ 6

def joinTag? (letters digits : Nat) (c : Char) : Option (Int × EmojiPart) :=
  if inRange c 0xE0061 0xE007A then
    if digits = 0 && letters < 6 then some (0, .tags (letters + 1) 0) else none
  else if inRange c 0xE0030 0xE0039 then
    if digits = 0 && letters ≤ 4 || digits = 1 || digits = 2 then
      some (0, .tags letters (digits + 1))
    else none
  else if c.toNat = 0x1F3F4 && flagNamed letters digits then some (0, .whole)
  else none

def joinJoined? (keycap : Bool) (c : Char) : Option (Int × EmojiPart) :=
  if keycap then none
  else if c.toNat = 0x20E3 then some (0, .joined true)
  else if isIndicator c then some (indicatorColumns true 0, .indicators true 1)
  else if isTone c then some (0, .tone)
  else if c.toNat = 0xE007F then some (0, .tags 0 0)
  else if emojiDefaults.contains c then some (0, .whole)
  else none

/-- The columns that a character before the last part adds, and what can join further left. -/
def join? (e : EmojiPart) (c : Char) : Option (Int × EmojiPart) :=
  match e with
  | .tone =>
    if c = joiner then some (0, .joined false)
    else if toneBases.contains c then some (0, .whole)
    else none
  | .whole => if c = joiner then some (0, .joined false) else none
  | .joined keycap => joinJoined? keycap c
  | .indicators attached count =>
    if isIndicator c then some (indicatorColumns attached count, .indicators attached (count + 1))
    else if c = joiner && 2 ≤ count then some (0, .joined false)
    else none
  | .tags letters digits => joinTag? letters digits c

end EmojiPart

end Catalog.Text
