import Conform.Unicode.WhiteSpace

/-!
# Blanks around a text
-/

set_option autoImplicit false

namespace Conform.Text

def trimLeft (text : List Char) : List Char := text.dropWhile Unicode.isWhiteSpace

def trimChars (text : List Char) : List Char := (trimLeft (trimLeft text).reverse).reverse

/-- The text without the white space around it. -/
def trim (text : String) : String := String.ofList (trimChars text.toList)

end Conform.Text
