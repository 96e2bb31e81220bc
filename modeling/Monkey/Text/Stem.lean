/-
This file says when one word begins with another. Commands, keywords and names
are looked up by the letters typed so far, their stem.
-/

namespace Monkey.Text

/-- Whether a word begins with a stem. Every word begins with the empty one. -/
def hasStem (stem word : String) : Bool :=
  stem.toList.isPrefixOf word.toList

end Monkey.Text
