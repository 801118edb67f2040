import HtmlTemplate.Value

/-!
# Kind — what messages call a value
-/

namespace HtmlTemplate
namespace Value

/-- The kind of a value, as messages call it. -/
def kind : Value → String
  | none => "NoneType"
  | bool _ => "bool"
  | int _ => "int"
  | float _ => "float"
  | str _ => "str"
  | markup _ => "Unsafe"
  | bytes _ => "bytes"
  | list _ => "list"
  | tuple _ => "tuple"
  | range _ _ _ => "range"
  | dict _ => "dict"
  | iterator _ _ => "list_iterator"
  | function _ => "Fn"
  | object _ _ _ => "Obj"

end Value
end HtmlTemplate
