import PathExpr.Text

namespace PathExpr

structure Fragment where
  text : Text
  bracketed : Bool
deriving DecidableEq

namespace Fragment

def root : Fragment := ⟨['$'],false⟩

def descent : Fragment := ⟨['.','.'],false⟩

end Fragment
end PathExpr
