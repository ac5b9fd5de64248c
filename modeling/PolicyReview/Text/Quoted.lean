import PolicyReview.Text.Hex
import PolicyReview.Text.Printable

/-!
# Quoted text in diagnostics

A diagnostic shows a text between double quotes.  Quotes and backslashes are escaped, the usual
controls have short escapes, and every other character that does not show on its own is written
by its code point.
-/

namespace PolicyReview
namespace Text

/-- One character of a quoted text. -/
def quotedChar (c : Char) : List Char :=
  if c = '\x00' then ['\\', '0']
  else if c = '\t' then ['\\', 't']
  else if c = '\r' then ['\\', 'r']
  else if c = '\n' then ['\\', 'n']
  else if c = '"' then ['\\', '"']
  else if c = '\\' then ['\\', '\\']
  else if isPrintable c then [c]
  else ['\\', 'u', '\x7b'] ++ hexText c.toNat ++ ['\x7d']

/-- The text between double quotes, with every character that does not show escaped. -/
def quoted (text : String) : String :=
  String.ofList ('"' :: text.toList.flatMap quotedChar ++ ['"'])

end Text
end PolicyReview
