import OpCalculus.Text.GraphemeExtend
import OpCalculus.Text.Ignorable
import OpCalculus.Text.Unprintable

/-!
# Quoted text

A text between double quotes. Quotes, backslashes, line breaks, tabs and the zero character have
short escapes; a character that would not show by itself is written by its code point.
-/

namespace OpCalculus.Text

/-- A code point in hexadecimal digits between braces. -/
def codePointEscape (c : Char) : List Char :=
  "\\u\x7b".toList ++ Nat.toDigits 16 c.toNat ++ "\x7d".toList

/-- Whether a character shows by itself: it has a shape of its own and is not drawn on another. -/
def showsAlone (c : Char) : Bool := !(isCombining c || isIgnorable c || isUnprintable c)

/-- One character of a quoted text. -/
def quotedChar (c : Char) : List Char :=
  if c = '\x00' then "\\0".toList
  else if c = '\t' then "\\t".toList
  else if c = '\r' then "\\r".toList
  else if c = '\n' then "\\n".toList
  else if c = '\\' then "\\\\".toList
  else if c = '"' then "\\\"".toList
  else if showsAlone c then [c]
  else codePointEscape c

/-- A text in double quotes. -/
def quoted (s : String) : String := String.ofList ('"' :: s.toList.flatMap quotedChar ++ ['"'])

end OpCalculus.Text
