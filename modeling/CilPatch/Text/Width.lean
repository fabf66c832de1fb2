import CilPatch.Text.WidthTables

/-!
# Width of text

How many columns a text takes where every column holds one letter. Most characters have a width
of their own. Some change it in company: emoji that are joined are one picture, a selector behind
a character asks for a picture or for text, and some letters are drawn as one with those that
follow. So a text is read from its end, and each character meets what stands behind it.
-/

namespace CilPatch.Width

/-- Asks for text. -/
def textSelector : Char := '\uFE0E'

/-- Asks for a picture. -/
def pictureSelector : Char := '\uFE0F'

/-- Asks for a wide form. -/
def wideSelector : Char := '\uFE01'

/-- Joins two characters. -/
def joiner : Char := '\u200D'

/-- Quotation marks, which have a wide form. -/
def quotes : Ranges := [(0x2018, 0x2019), (0x201C, 0x201D)]

/-- Characters that do not set letters of a ligature apart. -/
def unseparating : Ranges :=
  [(0x034F, 0x034F), (0x17B4, 0x17B5), (0x180B, 0x180D), (0x180F, 0x180F), (0xFE00, 0xFE0F),
    (0xE0100, 0xE01EF)]

/-- Letters of Tifinagh that can be joined. -/
def tifinagh : Ranges := [(0x2D31, 0x2D65), (0x2D6F, 0x2D6F)]

/-- The letters of Khmer that can be written below another. -/
def khmerSubscripts : Ranges :=
  [(0x1780, 0x1782), (0x1784, 0x1787), (0x1789, 0x178C), (0x178E, 0x1793), (0x1795, 0x1798),
    (0x179B, 0x179D), (0x17A0, 0x17A0), (0x17A2, 0x17A2), (0x17A7, 0x17A7), (0x17AB, 0x17AC),
    (0x17AF, 0x17AF)]

/-- Tone letters of Lisu that start a combination. -/
def firstTones : Ranges := [(0xA4F8, 0xA4FB)]

/-- Tone letters of Lisu that end a combination. -/
def lastTones : Ranges := [(0xA4FC, 0xA4FD)]

/-- The letters of Arabic that are drawn as one with an alef behind them. -/
def lams : Ranges :=
  [(0x0644, 0x0644), (0x06B5, 0x06B8), (0x076A, 0x076A), (0x08A6, 0x08A6), (0x08C7, 0x08C7)]

/-- The forms of the letter alef. -/
def alefs : Ranges :=
  [(0x0622, 0x0623), (0x0625, 0x0625), (0x0627, 0x0627), (0x0671, 0x0673), (0x0675, 0x0675),
    (0x0773, 0x0774), (0x0870, 0x0882)]

/-- Letters that form flags in pairs. -/
def flagLetters : Ranges := [(0x1F1E6, 0x1F1FF)]

/-- Skin tones. -/
def skinTones : Ranges := [(0x1F3FB, 0x1F3FF)]

/-- Letters of the names of regions behind a black flag. -/
def tagLetters : Ranges := [(0xE0061, 0xE007A)]

/-- Digits of the names of regions behind a black flag. -/
def tagDigits : Ranges := [(0xE0030, 0xE0039)]

/-- What stands behind a character, as far as it matters to its width. -/
inductive Sequel where
  /-- Nothing that matters. -/
  | plain
  /-- A line feed. -/
  | lineFeed
  /-- A letter alef of Arabic. -/
  | alef
  /-- A Hebrew letter lamed, or one with a joiner in front of it. -/
  | lamed (isJoined : Bool)
  /-- A Buginese letter ya, or one with a joiner in front of it. -/
  | ya (isJoined : Bool)
  /-- A joined Buginese letter ya with a vowel in front of it. -/
  | yaWithVowel
  /-- A consonant of Tifinagh, or one with a joiner in front of it. -/
  | consonant (isJoined : Bool)
  /-- The joining sign of Tifinagh in front of a consonant. -/
  | joinedConsonant
  /-- A tone letter of Lisu that ends a combination. -/
  | tone
  /-- A letter of Khmer that can be written below another. -/
  | subscript
  /-- An Old Turkic letter i, or one with a joiner in front of it. -/
  | orkhon (isJoined : Bool)
  /-- The vowel sign e of Kirat Rai. -/
  | vowel
  /-- The vowel sign ai of Kirat Rai. -/
  | doubleVowel
  /-- A picture. -/
  | picture
  /-- A picture with a joiner in front of it. -/
  | joinedPicture
  /-- The frame of a key in front of a joined picture. -/
  | joinedKey
  /-- A skin tone. -/
  | skinTone
  /-- A letter of a flag. -/
  | flagLetter
  /-- Several letters of flags. -/
  | flags
  /-- The only letter of a flag in front of a joined picture. -/
  | joinedLetter
  /-- An even number of such letters. -/
  | joinedEven
  /-- An odd number of such letters that is above one. -/
  | joinedOdd
  /-- Letters of the name of a region, up to its end, in front of a joined picture. -/
  | tagLetters (count : Nat)
  /-- Digits of the name of a region in front of such letters. -/
  | tagDigits (count : Nat)
  deriving DecidableEq

namespace Sequel

/-- Whether a character is the last one of a ligature. -/
def isLigature : Sequel → Bool
  | alef | lamed _ | ya _ | yaWithVowel | consonant _ | joinedConsonant | tone | subscript
  | orkhon _ => true
  | _ => false

/-- Whether what stands behind a character is joined to it as one picture. -/
def isJoinedPicture : Sequel → Bool
  | joinedPicture | joinedKey => true
  | _ => false

/-- What a joiner and the last character of a ligature are together. -/
def joined : Sequel → Sequel
  | lamed _ => lamed true
  | ya _ => ya true
  | consonant _ => consonant true
  | orkhon _ => orkhon true
  | sequel => sequel

/-- What a character is to the one in front of it. -/
def ofChar (c : Char) : Sequel :=
  match c.toNat with
  | 0x05DC => lamed false
  | 0x1A10 => ya false
  | 0x10C03 => orkhon false
  | 0x16D67 => vowel
  | 0x16D68 => doubleVowel
  | _ =>
      if alefs.has c then alef
      else if khmerSubscripts.has c then subscript
      else if tifinagh.has c then consonant false
      else if lastTones.has c then tone
      else if Width.flagLetters.has c then flagLetter
      else if skinTones.has c then Sequel.skinTone
      else if emoji.has c then picture
      else plain

/-- What a character in front of a joined picture adds to it. -/
def meetPicture (c : Char) : Option (Int × Sequel) :=
  if c.toNat = 0x20E3 then some (0, joinedKey)
  else if c.toNat = 0xE007F then some (0, tagLetters 0)
  else if Width.flagLetters.has c then some (1, joinedLetter)
  else if skinTones.has c then some (0, skinTone)
  else if emoji.has c then some (0, picture)
  else none

/-- How many columns a character adds to those of what stands behind it, if the two belong
together, and what they are to the character in front of them. -/
def meet (sequel : Sequel) (c : Char) : Option (Int × Sequel) :=
  let onlyIf (condition : Bool) (columns : Int) (sequel : Sequel) : Option (Int × Sequel) :=
    if condition then some (columns, sequel) else none
  match sequel with
  | alef =>
      if lams.has c then some (0, plain)
      else onlyIf (zeroWidth.has c && !separating.has c) 0 alef
  | lamed true => onlyIf (c.toNat == 0x05D0) 0 plain
  | subscript => onlyIf (c.toNat == 0x17D2) (-1) plain
  | ya true => onlyIf (c.toNat == 0x1A17) 0 yaWithVowel
  | yaWithVowel => onlyIf (c.toNat == 0x1A15) 0 plain
  | consonant isJoined =>
      if c.toNat = 0x2D7F then some (1, joinedConsonant)
      else onlyIf (isJoined && tifinagh.has c) 0 plain
  | joinedConsonant => onlyIf (tifinagh.has c) (-1) plain
  | tone => onlyIf (firstTones.has c) 0 plain
  | orkhon true => onlyIf (c.toNat == 0x10C32) 0 plain
  | vowel =>
      match c.toNat with
      | 0x16D63 | 0x16D69 => some (0, plain)
      | 0x16D67 => some (0, doubleVowel)
      | 0x16D68 => some (1, vowel)
      | _ => none
  | doubleVowel => onlyIf (c.toNat == 0x16D63) 0 plain
  | skinTone =>
      if modifierBases.has c then some (0, picture) else onlyIf (c == joiner) 0 joinedPicture
  | picture => onlyIf (c == joiner) 0 joinedPicture
  | flagLetter => onlyIf (Width.flagLetters.has c) 1 flags
  | flags =>
      if Width.flagLetters.has c then some (1, flags) else onlyIf (c == joiner) 0 joinedPicture
  | joinedPicture => meetPicture c
  | joinedLetter => onlyIf (Width.flagLetters.has c) (-1) joinedEven
  | joinedEven =>
      if Width.flagLetters.has c then some (3, joinedOdd) else onlyIf (c == joiner) 0 joinedPicture
  | joinedOdd =>
      if Width.flagLetters.has c then some (-1, joinedEven)
      else onlyIf (c == joiner) 0 joinedPicture
  | tagLetters count =>
      if Width.tagLetters.has c then onlyIf (count < 6) 0 (tagLetters (count + 1))
      else if Width.tagDigits.has c then onlyIf (count < 5) 0 (tagDigits 1)
      else onlyIf (3 ≤ count && c.toNat == 0x1F3F4) 0 picture
  | tagDigits count =>
      if Width.tagDigits.has c then onlyIf (count < 3) 0 (tagDigits (count + 1))
      else onlyIf (count == 3 && c.toNat == 0x1F3F4) 0 picture
  | _ => none

end Sequel

/-- What stands behind a character, with the selectors in between. -/
structure Behind where
  /-- The characters behind the selectors. -/
  sequel : Sequel := .plain
  /-- The selectors. -/
  selectors : List Char := []

namespace Behind

/-- Adds a selector. What stands behind it matters only if it belongs to a ligature or a joined
picture that the selector does not disturb. -/
def select (behind : Behind) (selector : Char) : Behind :=
  if behind.sequel.isLigature || (behind.sequel.isJoinedPicture && selector == pictureSelector) then
    { behind with selectors := selector :: behind.selectors }
  else { selectors := [selector] }

/-- What is left when a selector has found nothing to select. -/
def without (behind : Behind) (selector : Char) : Behind :=
  if !behind.selectors.contains selector then behind
  else if behind.sequel.isLigature then
    { behind with selectors := behind.selectors.filter (· != selector) }
  else {}

end Behind

/-- The width of a character on its own. -/
def ofChar (c : Char) : Nat :=
  if c.toNat ≤ 0xA0 then 1
  else if c.toNat = 0x17D8 then 3
  else if zeroWidth.has c then 0
  else if doubleWidth.has c then 2
  else 1

/-- How many columns a character adds to those of what stands behind it where no selector is in
between, and what stands behind the next one. -/
def meet (behind : Behind) (c : Char) : Int × Behind :=
  if behind.sequel.isLigature && behind.sequel != .alef && c == joiner then
    (0, { behind with sequel := behind.sequel.joined })
  else if behind.sequel.isLigature && behind.sequel != .alef && unseparating.has c then (0, behind)
  else
    match behind.sequel.meet c with
    | some (columns, sequel) => (columns, { sequel })
    | none => (ofChar c, { sequel := .ofChar c })

/-- How many columns a character adds to those of what stands behind it, and what stands behind
the next one. -/
def step (behind : Behind) (c : Char) : Int × Behind :=
  if behind.selectors.contains pictureSelector && pictures.has c then
    (if behind.sequel.isJoinedPicture then 0 else 2, { sequel := .picture })
  else
    let behind := behind.without pictureSelector
    if c = '\n' then (1, { sequel := .lineFeed })
    else if c = '\r' ∧ behind.sequel = .lineFeed then (0, {})
    else if c.toNat ≤ 0xA0 then (1, {})
    else if [pictureSelector, textSelector, wideSelector].contains c then (0, behind.select c)
    else if behind.selectors.contains textSelector && texts.has c then (1, {})
    else
      let behind := behind.without textSelector
      if behind.selectors.contains wideSelector && quotes.has c then (2, {})
      else meet (behind.without wideSelector) c

/-- The width of characters, and what they are to the character in front of them. -/
def ofChars : List Char → Int × Behind
  | [] => (0, {})
  | c :: rest =>
      let (columns, behind) := ofChars rest
      let (added, behind) := step behind c
      (columns + added, behind)

/-- The width of a text. -/
def ofText (text : String) : Nat := (ofChars text.toList).1.toNat

end CilPatch.Width
