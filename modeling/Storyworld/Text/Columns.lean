import Storyworld.Text.Emoji
import Storyworld.Text.Width

/-!
# Columns of a text

How many columns of a terminal a text takes.  This is the sum over its
characters but for three things: a mark behind a character can ask for a picture
or for text, joiners and skin tones make one picture of several, and some
scripts write certain characters next to each other as one.

So the width of a character depends on what follows it, and a text is read from
its end.  A `Followed` is all that has to be known of the characters already
read, and `step` reads one character more.  A step can take columns back: the
second half of a joined pair is counted before it is known to be one.

The tables here are of a later Unicode than those of single characters in reports.
They are given as what has changed.
-/

namespace Storyworld

/-! ## Characters by themselves -/

/-- The characters that take no column in the later tables and did before. -/
def zeroWidthSince : CharSet where
  ranges :=
  [(0x5C8, 0x5C9), (0x897, 0x897), (0xB53, 0xB54), (0x1715, 0x1715), (0x1734, 0x1734),
   (0x1ACF, 0x1AF0), (0x1B44, 0x1B44), (0x1BAA, 0x1BAA), (0x1BF2, 0x1BF3), (0xA953, 0xA953),
   (0xA9C0, 0xA9C0), (0x10D69, 0x10D6D), (0x10ECB, 0x10ECF), (0x10EF0, 0x10EFC),
   (0x111C0, 0x111C0), (0x11235, 0x11235), (0x1134D, 0x1134D), (0x113B8, 0x113B8),
   (0x113BB, 0x113C0), (0x113C2, 0x113C2), (0x113C5, 0x113C5), (0x113C7, 0x113C9),
   (0x113CE, 0x113D2), (0x113E1, 0x113E2), (0x116B6, 0x116B6), (0x1193D, 0x1193D),
   (0x11B60, 0x11B60), (0x11B62, 0x11B64), (0x11B66, 0x11B66), (0x11DF0, 0x11DF0),
   (0x11F41, 0x11F41), (0x11F5A, 0x11F5A), (0x1611E, 0x16129), (0x1612D, 0x1612F),
   (0x16FF0, 0x16FF1), (0x1D127, 0x1D128), (0x1D166, 0x1D166), (0x1D16D, 0x1D16D),
   (0x1D250, 0x1D252), (0x1D25B, 0x1D25C), (0x1D25F, 0x1D25F), (0x1D280, 0x1D281),
   (0x1E5EE, 0x1E5EF), (0x1E6E3, 0x1E6E3), (0x1E6E6, 0x1E6E6), (0x1E6EE, 0x1E6EF),
   (0x1E6F5, 0x1E6F5)]

/-- The characters that take one column in the later tables and took none before. -/
def singleWidthSince : CharSet where
  ranges :=
  [(0xFF9E, 0xFF9F), (0x1171E, 0x1171E), (0x11A3A, 0x11A3A)]

/-- The characters that take two columns in the later tables and took fewer before. -/
def doubleWidthSince : CharSet where
  ranges :=
  [(0x2630, 0x2637), (0x268A, 0x268F), (0x31E4, 0x31E5), (0x4DC0, 0x4DFF), (0x16FF2, 0x16FF6),
   (0x187F8, 0x187FF), (0x18CD6, 0x18CDA), (0x18CFF, 0x18CFF), (0x18D09, 0x18D20),
   (0x18D80, 0x18DF2), (0x18E00, 0x19191), (0x191A0, 0x191D2), (0x1B123, 0x1B128),
   (0x1B168, 0x1B168), (0x1D300, 0x1D356), (0x1D360, 0x1D376), (0x1F1AE, 0x1F1AE),
   (0x1F6D8, 0x1F6D9), (0x1F7DA, 0x1F7DA), (0x1FA89, 0x1FA8F), (0x1FABE, 0x1FABE),
   (0x1FAC6, 0x1FAC6), (0x1FAC8, 0x1FAC8), (0x1FACC, 0x1FACD), (0x1FADC, 0x1FADD),
   (0x1FADF, 0x1FADF), (0x1FAE9, 0x1FAEB), (0x1FAEF, 0x1FAEF), (0x1FAF9, 0x1FAFA)]

/-- The number of columns of a character that nothing follows. -/
def charColumns (c : Char) : Nat :=
  if zeroWidthSince.contains c then 0
  else if singleWidthSince.contains c then 1
  else if doubleWidthSince.contains c then 2
  else charWidth c

/-! ## Scripts that join characters -/

/-- Whether a character is an Arabic alef. -/
def isAlef (c : Char) : Bool :=
  (CharSet.mk [(0x622, 0x623), (0x625, 0x625), (0x627, 0x627), (0x671, 0x673), (0x675, 0x675),
    (0x773, 0x774), (0x870, 0x882)]).contains c

/-- Whether a character is an Arabic lam, which forms one sign with an alef behind it. -/
def isLam (c : Char) : Bool :=
  (CharSet.mk [(0x644, 0x644), (0x6B5, 0x6B8), (0x76A, 0x76A), (0x8A6, 0x8A6),
    (0x8C7, 0x8C7)]).contains c

/-- The characters without a column that keep Arabic letters on their two sides apart. -/
def parting : CharSet where
  ranges :=
  [(0x605, 0x605), (0x890, 0x891), (0x8E2, 0x8E2), (0x9BE, 0x9BE), (0x9D7, 0x9D7), (0xB3E, 0xB3E),
   (0xB57, 0xB57), (0xBBE, 0xBBE), (0xBD7, 0xBD7), (0xCC0, 0xCC0), (0xCC2, 0xCC2), (0xCC7, 0xCC8),
   (0xCCA, 0xCCB), (0xCD5, 0xCD6), (0xD3E, 0xD3E), (0xD4E, 0xD4E), (0xD57, 0xD57), (0xDCF, 0xDCF),
   (0xDDF, 0xDDF), (0x1160, 0x11FF), (0x1715, 0x1715), (0x1734, 0x1734), (0x180E, 0x180E),
   (0x1B35, 0x1B35), (0x1B3B, 0x1B3B), (0x1B3D, 0x1B3D), (0x1B43, 0x1B44), (0x1BAA, 0x1BAA),
   (0x1BF2, 0x1BF3), (0x200C, 0x200D), (0x2065, 0x2069), (0x302E, 0x302F), (0x3164, 0x3164),
   (0xA8FA, 0xA8FA), (0xA953, 0xA953), (0xA9C0, 0xA9C0), (0xD7B0, 0xD7C6), (0xD7CB, 0xD7FB),
   (0xFFA0, 0xFFA0), (0xFFF0, 0xFFF8), (0x111C0, 0x111C0), (0x111C2, 0x111C3), (0x11235, 0x11235),
   (0x1133E, 0x1133E), (0x1134D, 0x1134D), (0x11357, 0x11357), (0x113B8, 0x113B8),
   (0x113C2, 0x113C2), (0x113C5, 0x113C5), (0x113C7, 0x113C9), (0x113CF, 0x113CF),
   (0x113D1, 0x113D1), (0x114B0, 0x114B0), (0x114BD, 0x114BD), (0x115AF, 0x115AF),
   (0x116B6, 0x116B6), (0x11930, 0x11930), (0x1193D, 0x1193D), (0x1193F, 0x1193F),
   (0x11941, 0x11941), (0x11A84, 0x11A89), (0x11D46, 0x11D46), (0x11F02, 0x11F02),
   (0x11F41, 0x11F41), (0x16FF0, 0x16FF1), (0x1D165, 0x1D166), (0x1D16D, 0x1D172),
   (0x1D250, 0x1D252), (0x1D25F, 0x1D25F), (0x1D280, 0x1D281), (0xE0000, 0xE0000),
   (0xE0002, 0xE001F), (0xE0080, 0xE00FF), (0xE01F0, 0xE0FFF)]

/-- Whether a character can stand between an Arabic lam and an alef that form one sign. -/
def isPassedByArabic (c : Char) : Bool := charColumns c == 0 && !parting.contains c

/-- Whether a character is a Tifinagh consonant. -/
def isTifinagh (c : Char) : Bool := (CharSet.mk [(0x2D31, 0x2D65), (0x2D6F, 0x2D6F)]).contains c

/-- The mark that joins two Tifinagh consonants. -/
def tifinaghJoiner : Char := '\u2d7f'

/-- Whether a character is a Khmer letter that has a form below another letter. -/
def isKhmerSubscript (c : Char) : Bool :=
  (CharSet.mk [(0x1780, 0x1782), (0x1784, 0x1787), (0x1789, 0x178C), (0x178E, 0x1793),
    (0x1795, 0x1798), (0x179B, 0x179D), (0x17A0, 0x17A0), (0x17A2, 0x17A2), (0x17A7, 0x17A7),
    (0x17AB, 0x17AC), (0x17AF, 0x17AF)]).contains c

/-- Whether a character is a Lisu tone that can be the first of two. -/
def isFirstTone (c : Char) : Bool := (CharSet.mk [(0xA4F8, 0xA4FB)]).contains c

/-- Whether a character is a Lisu tone that can be the second of two. -/
def isSecondTone (c : Char) : Bool := (CharSet.mk [(0xA4FC, 0xA4FD)]).contains c

/-- The mark that asks for the wide form of a quotation mark. -/
def wideMark : Char := '\ufe01'

/-- Whether a character is a quotation mark that has a wide form. -/
def isQuotationMark (c : Char) : Bool :=
  (CharSet.mk [(0x2018, 0x2019), (0x201C, 0x201D)]).contains c

/-- Whether a character is a mark without a sign of its own, which may stand within what a
script joins. -/
def isSilentMark (c : Char) : Bool :=
  (CharSet.mk [(0x34F, 0x34F), (0x17B4, 0x17B5), (0x180B, 0x180D), (0x180F, 0x180F),
    (0xFE00, 0xFE0F), (0xE0100, 0xE01EF)]).contains c

/-- The end of what a script can join, by how much of it has been read. -/
inductive Ending where
  /-- A Hebrew lamed, and whether a joiner is before it. -/
  | lamed (joined : Bool)
  /-- A Buginese ya, and whether a joiner is before it. -/
  | ya (joined : Bool)
  /-- A Buginese vowel sign, a joiner and a ya. -/
  | signYa
  /-- A Tifinagh consonant, and whether a joiner is before it. -/
  | tifinagh (joined : Bool)
  /-- A Tifinagh consonant with the mark that joins it to one before. -/
  | marked
  /-- A Lisu tone. -/
  | tone
  /-- An Old Turkic letter, and whether a joiner is before it. -/
  | orkhon (joined : Bool)
  /-- A Khmer letter. -/
  | khmer
deriving DecidableEq, Repr

/-- The ending with a joiner before it. -/
def Ending.join : Ending → Ending
  | .lamed _ => .lamed true
  | .ya _ => .ya true
  | .tifinagh _ => .tifinagh true
  | .orkhon _ => .orkhon true
  | e => e

/-! ## Followers -/

/-- What is known of the characters behind a place, as far as it matters for the one at
it. -/
inductive Follower where
  /-- Nothing that matters. -/
  | plain
  /-- A picture. -/
  | picture
  /-- A skin tone. -/
  | skinTone
  /-- A letter of a flag, the last one. -/
  | flagLetter
  /-- Several letters of flags. -/
  | flagLetters
  /-- A joiner before a picture. -/
  | joined
  /-- The frame of a key, joined to a picture. -/
  | joinedKey
  /-- One letter of a flag, joined to a picture. -/
  | joinedLetter
  /-- Letters of whole flags, joined to a picture. -/
  | joinedFlags
  /-- Letters of flags, one of them alone, joined to a picture. -/
  | joinedOdd
  /-- The end of a flag's tags and so many letters before it, joined to a picture. -/
  | tagLetters (count : Nat)
  /-- The end of a flag's tags with so many digits as the first of them, joined to a picture. -/
  | tagDigits (count : Nat)
  /-- A Kirat Rai vowel sign, of one part or of two. -/
  | vowelSign (parts : Nat)
  /-- An Arabic alef, perhaps with marks before it. -/
  | alef
  /-- The end of what a script can join. -/
  | ending (e : Ending)
deriving DecidableEq, Repr

/-- What is known of the rest of a text to the character before it. -/
structure Followed where
  /-- Whether a mark at the start of the rest asks for a picture. -/
  picture : Bool
  /-- Whether a mark there asks for text. -/
  text : Bool
  /-- Whether a mark there asks for the wide form. -/
  wide : Bool
  /-- What is behind the marks. -/
  follower : Follower
deriving DecidableEq, Repr

namespace Follower

/-- Whether a follower stays what it is behind a mark.  What a script joins does. -/
def outlastsMark : Follower → Bool
  | .alef | .ending _ => true
  | _ => false

/-- A follower behind no mark. -/
def unmarked (f : Follower) : Followed := ⟨false, false, false, f⟩

end Follower

namespace Followed

/-- Nothing that matters. -/
def plain : Followed := Follower.unmarked .plain

/-- The rest before a character that has no form as a picture. -/
def dropPicture (r : Followed) : Followed :=
  if !r.picture then r
  else if r.follower.outlastsMark then { r with picture := false }
  else plain

/-- The rest with a mark before it that asks for a picture.  It may stand within joined
pictures. -/
def addPicture (r : Followed) : Followed :=
  if r.follower.outlastsMark then { r with picture := true }
  else if r.follower = .joined ∨ r.follower = .joinedKey then { r with picture := true }
  else { plain with picture := true }

/-- The rest with a mark before it that asks for text. -/
def addText (r : Followed) : Followed :=
  if r.follower.outlastsMark then { r with text := true } else { plain with text := true }

/-- The rest with a mark before it that asks for the wide form. -/
def addWide (r : Followed) : Followed :=
  if r.follower.outlastsMark then { r with wide := true } else { plain with wide := true }

end Followed

namespace Follower

/-- What a character is to the one before it, if it is joined to nothing behind it. -/
def first (c : Char) : Follower :=
  if isAlef c then .alef
  else if c = '\u05dc' then .ending (.lamed false)
  else if isKhmerSubscript c then .ending .khmer
  else if c = '\u1a10' then .ending (.ya false)
  else if isTifinagh c then .ending (.tifinagh false)
  else if isSecondTone c then .ending .tone
  else if c = Char.ofNat 0x10C03 then .ending (.orkhon false)
  else if c = Char.ofNat 0x16D67 then .vowelSign 1
  else if c = Char.ofNat 0x16D68 then .vowelSign 2
  else if Emoji.isFlagLetter c then .flagLetter
  else if Emoji.isSkinTone c then .skinTone
  else if Emoji.pictures.contains c then .picture
  else .plain

end Follower

/-- The width of a character before an ending that it is joined to, and what both are. -/
def Ending.joined? (c : Char) : Ending → Option (Int × Follower)
  | .lamed true => if c = '\u05d0' then some (0, .plain) else none
  | .ya true => if c = '\u1a17' then some (0, .ending .signYa) else none
  | .signYa => if c = '\u1a15' then some (0, .plain) else none
  | .tifinagh joined =>
      if c = tifinaghJoiner then some (1, .ending .marked)
      else if joined && isTifinagh c then some (0, .plain)
      else none
  | .marked => if isTifinagh c then some (-1, .plain) else none
  | .tone => if isFirstTone c then some (0, .plain) else none
  | .orkhon true => if c = Char.ofNat 0x10C32 then some (0, .plain) else none
  | .khmer => if c = '\u17d2' then some (-1, .plain) else none
  | _ => none

namespace Follower

/-- The width of a character before a joiner and a picture, if it is part of the picture. -/
def beforeJoined? (c : Char) : Option (Int × Follower) :=
  if c = Emoji.keycap then some (0, .joinedKey)
  else if Emoji.isFlagLetter c then some (1, .joinedLetter)
  else if Emoji.isSkinTone c then some (0, .skinTone)
  else if c = Emoji.tagEnd then some (0, .tagLetters 0)
  else if Emoji.pictures.contains c then some (0, .picture)
  else none

/-- The width of a character before the tags of a flag, if it is a tag or the flag.  The
tags are three to six letters, or three digits with at most four letters behind them. -/
def beforeTags? (c : Char) : Follower → Option (Int × Follower)
  | .tagLetters count =>
      if Emoji.isTagLetter c && decide (count < 6) then some (0, .tagLetters (count + 1))
      else if Emoji.isTagDigit c && decide (count < 5) then some (0, .tagDigits 1)
      else if c = Emoji.blackFlag && decide (3 ≤ count) then some (0, .picture)
      else none
  | .tagDigits count =>
      if Emoji.isTagDigit c && decide (count < 3) then some (0, .tagDigits (count + 1))
      else if c = Emoji.blackFlag && decide (count = 3) then some (0, .picture)
      else none
  | _ => none

/-- The width of a Kirat Rai vowel sign before another, if they are written as one. -/
def beforeVowelSign? (c : Char) (parts : Nat) : Option (Int × Follower) :=
  if c = Char.ofNat 0x16D63 then some (0, .plain)
  else if parts = 1 then
    if c = Char.ofNat 0x16D67 then some (0, .vowelSign 2)
    else if c = Char.ofNat 0x16D68 then some (1, .vowelSign 1)
    else if c = Char.ofNat 0x16D69 then some (0, .plain)
    else none
  else none

/-- The width of a character that is joined to what follows it, and what both are. -/
def joined? (c : Char) (f : Follower) : Option (Int × Follower) :=
  match f with
  | .plain => none
  | .alef =>
      if isLam c then some (0, .plain)
      else if isPassedByArabic c then some (0, .alef)
      else none
  | .ending e =>
      if c = Emoji.joiner then some (0, .ending e.join)
      else if isSilentMark c then some (0, f)
      else e.joined? c
  | .vowelSign parts => beforeVowelSign? c parts
  | .skinTone =>
      if Emoji.skinned.contains c then some (0, .picture)
      else if c = Emoji.joiner then some (0, .joined)
      else none
  | .flagLetter => if Emoji.isFlagLetter c then some (1, .flagLetters) else none
  | .flagLetters =>
      if Emoji.isFlagLetter c then some (1, .flagLetters)
      else if c = Emoji.joiner then some (0, .joined)
      else none
  | .picture => if c = Emoji.joiner then some (0, .joined) else none
  | .joined => beforeJoined? c
  | .joinedKey => none
  | .joinedLetter => if Emoji.isFlagLetter c then some (-1, .joinedFlags) else none
  | .joinedFlags =>
      if Emoji.isFlagLetter c then some (3, .joinedOdd)
      else if c = Emoji.joiner then some (0, .joined)
      else none
  | .joinedOdd =>
      if Emoji.isFlagLetter c then some (-1, .joinedFlags)
      else if c = Emoji.joiner then some (0, .joined)
      else none
  | .tagLetters _ | .tagDigits _ => beforeTags? c f

end Follower

/-! ## Texts -/

/-- Whether a character is an ASCII one, a control behind those, or the space behind these.
Nothing changes their width but a mark for a picture. -/
def isBasic (c : Char) : Bool := decide (c.toNat ≤ 0xA0)

/-- The width of a character before a follower behind no mark. -/
def stepUnmarked (c : Char) (f : Follower) : Int × Followed :=
  match f.joined? c with
  | some (width, f') => (width, f'.unmarked)
  | none => (charColumns c, (Follower.first c).unmarked)

/-- The width of a character that is no basic one, before a rest that no mark asks to show
it as a picture. -/
def stepMarked (c : Char) (r : Followed) : Int × Followed :=
  if c = Emoji.pictureMark then (0, r.addPicture)
  else if c = Emoji.textMark then (0, r.addText)
  else if c = wideMark then (0, r.addWide)
  else if r.text && Emoji.narrowsAsText c then (1, .plain)
  else if r.wide && isQuotationMark c then (2, .plain)
  else stepUnmarked c r.follower

/-- The width of a character before the rest of a text, and the rest with it. -/
def step (c : Char) (r : Followed) : Int × Followed :=
  if r.picture && Emoji.styled.contains c then
    (if r.follower = .joined ∨ r.follower = .joinedKey then 0 else 2,
      Follower.unmarked .picture)
  else if isBasic c then (1, .plain)
  else stepMarked c r.dropPicture

/-- The width of a text, and what is known of it to a character before it. -/
def measure : List Char → Int × Followed
  | [] => (0, .plain)
  | c :: cs =>
      let (width, rest) := measure cs
      let (added, rest') := step c rest
      (width + added, rest')

/-- The number of columns of a text. -/
def columns (cs : List Char) : Nat := (measure cs).1.toNat

/-! ## Tests -/

example : zeroWidthSince.isOrdered = true ∧ singleWidthSince.isOrdered = true ∧
    doubleWidthSince.isOrdered = true ∧ parting.isOrdered = true := by decide +kernel
example : columns ['漢', '字', ' ', 'é'] = 6 := by decide +kernel
/-- A combining accent adds nothing. -/
example : columns ['e', '\u0301'] = 1 := by decide +kernel
/-- A heart is a picture if a mark asks for one. -/
example : (columns ['❤'], columns ['❤', '\ufe0f']) = (1, 2) := by decide +kernel
/-- A watch is text if a mark asks for it. -/
example : (columns ['⌚'], columns ['⌚', '\ufe0e']) = (2, 1) := by decide +kernel
/-- Two joined pictures are one. -/
example : columns ['👩', '\u200d', '🔬', '!'] = 3 := by decide +kernel
example : columns ['👍', '🏽'] = 2 := by decide +kernel
/-- Two letters are one flag. -/
example : columns ['🇪', '🇺'] = 2 := by decide +kernel
/-- A lam and an alef are one sign, also with marks between. -/
example : (columns ['\u0644', '\u0627'], columns ['\u0644', '\u064b', '\u0627']) = (1, 1) := by
  decide +kernel
/-- A quotation mark is wide if a mark asks for it. -/
example : [['“'], ['“', '\ufe01'], ['“', '\ufe01', '\u0627']].map columns = [1, 2, 3] := by
  decide +kernel
example : columns ['\u2d31', '\u2d7f', '\u2d32'] = 1 := by decide +kernel

end Storyworld
