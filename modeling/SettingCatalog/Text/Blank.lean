import SettingCatalog.Text.Ranges

/-!
White space of all scripts, and texts without the white space around them.
-/

namespace SettingCatalog.Text

/-- The code points of white space, as closed ranges in increasing order. -/
def blankRanges : List (Nat × Nat) :=
  [(0x9, 0xd), (0x20, 0x20), (0x85, 0x85), (0xa0, 0xa0), (0x1680, 0x1680), (0x2000, 0x200a),
    (0x2028, 0x2029), (0x202f, 0x202f), (0x205f, 0x205f), (0x3000, 0x3000)]

def isBlank (c : Char) : Bool := inRanges blankRanges c

def trimEnd (cs : List Char) : List Char := (cs.reverse.dropWhile isBlank).reverse

def trim (s : String) : String := String.ofList (trimEnd (s.toList.dropWhile isBlank))

def isBlankText (s : String) : Bool := s.toList.all isBlank

end SettingCatalog.Text
