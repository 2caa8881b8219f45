/-!
Texts put together with a separator.
-/

namespace SettingCatalog.Text

def joinTexts (separator : String) : List String → String
  | [] => ""
  | [s] => s
  | s :: rest => s ++ separator ++ joinTexts separator rest

end SettingCatalog.Text
