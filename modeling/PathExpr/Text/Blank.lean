import PathExpr.Text

-- Two nested sets of blank characters. A padding blank of the notation itself
-- is U+0020 alone and needs no table.
namespace PathExpr.Text

def isWhiteSpace (c : Char) : Bool :=
  (0x09 ≤ c.toNat && c.toNat ≤ 0x0D) || c.toNat = 0x20 || c.toNat = 0x85 || c.toNat = 0xA0 ||
    c.toNat = 0x1680 || (0x2000 ≤ c.toNat && c.toNat ≤ 0x200A) || c.toNat = 0x2028 ||
    c.toNat = 0x2029 || c.toNat = 0x202F || c.toNat = 0x205F || c.toNat = 0x3000

-- White space together with the four information separators, which bound
-- fields and records and are blank by that role.
def isBlank (c : Char) : Bool :=
  isWhiteSpace c || (0x1C ≤ c.toNat && c.toNat ≤ 0x1F)

def strip (text : Text) : Text := trim isBlank text

theorem isBlank_space : isBlank ' ' = true := by decide

end PathExpr.Text
