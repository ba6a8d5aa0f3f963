import ClassTree.Expr.Basic
import ClassTree.Json.Basic
/-!
Literals: the expressions whose value is known without running the program, in the form in which a
loader reads them.
-/

namespace ClassTree

/-- The greatest magnitude up to which all whole numbers are doubles: 2⁵³. -/
def maxExactInt : Nat := 9007199254740992

/-- Whole numbers that are exact are written as integers, all other finite ones as doubles. -/
def Binary64.toLiteral? (x : Binary64) : Option Json :=
  match x.toInt? with
  | some n => some (if n.natAbs ≤ maxExactInt then .int n else .double x)
  | none => if x.isFinite then some (.double x) else none

namespace Expr

def resourceLiteral (s : String) : Json :=
  .obj [("resourcePath", .text s), ("type", .text "resource")]

def pathLiteral (p : TypePath) : Json :=
  .obj [("type", .text "path"), ("value", .text p.text)]

def listLiteral (values : List Json) : Json :=
  .obj [("type", .text "list"), ("values", .arr values)]

mutual

def toLiteral? : Expr → Option Json
  | .null => some .null
  | .num x => x.toLiteral?
  | .text s => some (.text s)
  | .resource s => some (resourceLiteral s)
  | .path p => some (pathLiteral p)
  | .list items => (toLiterals? items).map listLiteral
  | _ => none
termination_by structural e => e

def toLiterals? : List Expr → Option (List Json)
  | [] => some []
  | e :: rest => do return (← e.toLiteral?) :: (← toLiterals? rest)
termination_by structural l => l

end

def isLiteral (e : Expr) : Bool := e.toLiteral?.isSome

end Expr

end ClassTree
