import Interop.Form.Basic
import Interop.Decimal.Layout

/-! The text of a form. -/

namespace Interop

def Datum.text : Datum → String
  | .nil => "nil"
  | .bool value => if value then "true" else "false"
  | .int value => toString value
  | .float value => FloatLayout.listing.text value
  | .char value => "\\" ++ String.singleton value
  | .string text => quotedText text
  | .keyword name => ":" ++ toString name
  | .symbol name => toString name
  | .embedded type => "#<" ++ type.term ++ ">"

namespace Form

mutual

def text : Form → String
  | .leaf datum _ => datum.text
  | .group delimiter items _ => delimiter.opening ++ textList items ++ delimiter.closing

/-- The texts of the items with one space between two of them. -/
def textList : List Form → String
  | [] => ""
  | form :: forms => form.text ++ textRest forms

def textRest : List Form → String
  | [] => ""
  | form :: forms => " " ++ form.text ++ textRest forms

end

instance : ToString Form where
  toString := text

end Form

end Interop
