import WireModel.Text.Rune
import WireModel.Text.WordRange

/-!
# Title case

A text in title case has the first cased letter of every word in its title form; everything else
stays as it is. A word goes on over letters, digits and marks, and over a single joining mark such
as an apostrophe; any other character ends it. Two joining marks in a row end a word too.
-/

namespace WireModel.Text

/-- Whether a rune joins the letters around it. -/
def isJoiner : Rune → Bool
  | .code c => isJoinerRune c
  | .stray _ => false

/-- The runes in title case. The flags say whether a word is open in which a cased letter was seen,
and whether the rune before was a joining mark. -/
def titleRunes : (inWord afterJoiner : Bool) → List Rune → Text
  | _, _, [] => []
  | inWord, afterJoiner, r :: rs =>
    let inWord := inWord && !(afterJoiner && isJoiner r)
    match r with
    | .stray b => b :: titleRunes false false rs
    | .code c =>
      if isCased c then
        (if inWord then ofRune c else (titleRune c).flatMap ofRune) ++
          titleRunes true (isJoiner r) rs
      else ofRune c ++ titleRunes (inWord && isWordRune c) (isJoiner r) rs

/-- The text in title case. -/
def toTitle (t : Text) : Text := titleRunes false false t.runes

end WireModel.Text
