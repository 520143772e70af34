/-!
# Searching

Whether one text occurs in another.
-/

namespace ChainScript.Text

/-- The characters occur one after another somewhere in the list. -/
def occurs (needle : List Char) : List Char → Bool
  | [] => needle.isEmpty
  | c :: cs => needle.isPrefixOf (c :: cs) || occurs needle cs

/-- The text occurs in another. -/
def contains (s needle : String) : Bool := occurs needle.toList s.toList

end ChainScript.Text
