/-!
# Listings

Texts of sequences: items joined by a separator, and bracketed lists such as `[2, 3]`.
-/

namespace OpCalculus.Text

/-- Texts with a separator between neighbours. -/
def joined (separator : String) : List String → String
  | [] => ""
  | [item] => item
  | item :: rest => item ++ separator ++ joined separator rest

/-- A list in square brackets, items separated by a comma and a space. -/
def listing (items : List String) : String := "[" ++ joined ", " items ++ "]"

end OpCalculus.Text
