import ClassTree.Decimal.Binary64
import ClassTree.TypePath
/-!
Expressions as they stand in declarations, and the places in source text where they stand.
-/

namespace ClassTree

structure Location where
  file : String
  line : UInt32
  column : UInt32
deriving DecidableEq, Repr

namespace Location

/-- The place of what no source text declares. -/
def internal : Location := ⟨"<internal>", 0, 0⟩

instance : Inhabited Location := ⟨internal⟩

def text (l : Location) : String := s!"{l.file}:{l.line.toNat}:{l.column.toNat}"

end Location

inductive Expr where
  | null
  | num (x : Binary64)
  | text (s : String)
  /-- A file that the program refers to. -/
  | resource (s : String)
  | path (p : TypePath)
  | list (items : List Expr)
  | globalVar (name : String)
  | call (name : String) (args : List Expr)
  | new (path : TypePath) (args : List Expr)
  /-- Sets a field of the object under construction. -/
  | assignField (name : String) (value : Expr)
deriving Repr, Inhabited

structure PendingExpr where
  location : Location
  expr : Expr
deriving Repr, Inhabited

end ClassTree
