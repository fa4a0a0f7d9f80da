import DebugBridge.Text.Ranges

/-!
Characters that make up words.  A word character is a letter, a mark, a decimal digit, connecting
punctuation or a joiner; an alphanumeric character is alphabetic or numeric.
-/

namespace DebugBridge
namespace Text

/-- Whether a character may stand in a word. -/
def isWord (c : Char) : Bool :=
  if c.toNat < 128 then c.isAlphanum || c == '_' else inRanges wordRanges c.toNat

/-- Whether a character is alphabetic or numeric. -/
def isAlphanumeric (c : Char) : Bool :=
  if c.toNat < 128 then c.isAlphanum else inRanges alphanumericRanges c.toNat

end Text
end DebugBridge
