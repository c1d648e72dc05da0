import Catalog.Text.Emoji
import Catalog.Text.WidthTable

/-!
How many columns a line takes on a terminal. East Asian wide characters and emoji take two, marks
that combine with the character before them none, most others one; ligatures, emoji of several
characters and selectors change the sum. A line is read from its end, so that what follows a
character is known when it is met.
-/
namespace Catalog.Text

/-- The columns of a character by itself. The Khmer sign beyyal is drawn as three letters. -/
def charWidth (c : Char) : Nat :=
  if 32 ≤ c.toNat ∧ c.toNat < 127 then 1
  else if zeroWidth.contains c then 0
  else if doubleWidth.contains c then 2
  else if c.toNat = 0x17D8 then 3
  else 1

/-- A selector asks for a form of the character before it. -/
inductive Selector where
  | emoji
  | text
  | fullwidth
  deriving DecidableEq

def Selector.ofChar? (c : Char) : Option Selector :=
  if c.toNat = 0xFE0F then some .emoji
  else if c.toNat = 0xFE0E then some .text
  else if c.toNat = 0xFE01 then some .fullwidth
  else none

/-- What the characters to the right can join to. -/
inductive Onset where
  | plain
  /-- A ligature, and whether a joiner stands before it. -/
  | ligature (last : Ligature) (joined : Bool)
  | emoji (last : EmojiPart)

namespace Onset

def ofLigature? : Option Ligature → Onset
  | none => .plain
  | some l => .ligature l false

/-- What a character leaves for the characters to its left. -/
def ofLast (c : Char) : Onset :=
  match Ligature.ofLast? c, EmojiPart.ofLast? c with
  | some l, _ => .ligature l false
  | none, some e => .emoji e
  | none, none => .plain

def isJoined : Onset → Bool
  | .emoji (.joined _) => true
  | _ => false

/-- What selectors leave in reach: a ligature that they may stand in. -/
def acrossSelectors : Onset → Onset
  | .ligature l joined => if l.spansSelectors then .ligature l joined else .plain
  | _ => .plain

/-- A character as part of a ligature or an emoji that goes on to the right. -/
def join? (onset : Onset) (c : Char) : Option (Int × Onset) :=
  match onset with
  | .plain => none
  | .ligature l joined =>
    if l.passes c then some (0, .ligature l (joined || c = joiner))
    else (l.join? joined c).map fun (n, l) => (n, .ofLigature? l)
  | .emoji e => (e.join? c).map fun (n, e) => (n, .emoji e)

end Onset

def isQuotationMark (c : Char) : Bool :=
  c = '\u2018' || c = '\u2019' || c = '\u201C' || c = '\u201D'

/-- Emoji that become narrow as text. Enclosed ideographs stay wide. -/
def narrowsAsText (c : Char) : Bool :=
  emojiOrText.contains c && emojiDefaults.contains c && !inRange c 0x1F200 0x1F2FF

/-- What is known of a line to the right of a character: the selectors up to the next character
of another kind, the nearest first, and what is to be joined there. -/
structure Ahead where
  selectors : List Selector := []
  onset : Onset := .plain

namespace Ahead

/-- A character in a form that the selectors ask for. The emoji form is for the selector at its
side, the others also for one further off. -/
def form? (a : Ahead) (c : Char) : Option (Int × Ahead) :=
  if a.selectors.head? = some .emoji && emojiOrText.contains c then
    some (if a.onset.isJoined then 0 else 2, { onset := .emoji .whole })
  else if a.selectors.contains .text && narrowsAsText c then some (1, {})
  else if a.selectors.contains .fullwidth && isQuotationMark c then some (2, {})
  else none

/-- What a character that takes no form can join to. -/
def reach (a : Ahead) : Onset :=
  if a.selectors.isEmpty then a.onset else a.onset.acrossSelectors

/-- One more selector. Before a ligature all of them count, elsewhere only this one; the one for
emoji can give a form to what an emoji is joined to. -/
def select (a : Ahead) (s : Selector) : Ahead :=
  match a.reach.acrossSelectors with
  | .ligature l joined => { selectors := s :: a.selectors, onset := .ligature l joined }
  | _ => { selectors := [s], onset := if s = .emoji && a.reach.isJoined then a.reach else .plain }

/-- The columns that a character adds, and what it leaves for the characters to its left. -/
def add (a : Ahead) (c : Char) : Int × Ahead :=
  match a.form? c with
  | some r => r
  | none =>
    if c.toNat ≤ 0xA0 then (1, {})
    else
      match Selector.ofChar? c with
      | some s => (0, a.select s)
      | none =>
        match a.reach.join? c with
        | some (n, onset) => (n, { onset := onset })
        | none => (charWidth c, { onset := .ofLast c })

end Ahead

/-- The columns of the characters, and what can join to their left. -/
def measure (s : List Char) : Int × Ahead :=
  s.foldr (fun c (n, a) => ((a.add c).1 + n, (a.add c).2)) (0, {})

def width (s : List Char) : Nat :=
  (measure s).1.toNat

end Catalog.Text
