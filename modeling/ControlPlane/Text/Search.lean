import ControlPlane.Text.Digit

/-!
# Texts inside of texts
-/
namespace ControlPlane.Text

def occursInChars (part : List Char) : List Char → Bool
  | [] => part.isEmpty
  | c :: rest => part.isPrefixOf (c :: rest) || occursInChars part rest

def occursIn (part whole : String) : Bool := occursInChars part.toList whole.toList

def startsWith (start whole : String) : Bool := start.toList.isPrefixOf whole.toList

end ControlPlane.Text
