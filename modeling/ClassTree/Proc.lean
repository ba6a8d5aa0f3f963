import ClassTree.Expr.Codec
import ClassTree.Identity
import ClassTree.ValueType
/-!
Procs, and the registry that numbers the procs of the whole program.
-/

namespace ClassTree

structure ProcFlags where
  isOverride : Bool
  isVerb : Bool
  hidden : Bool
deriving DecidableEq, Repr

namespace ProcFlags

def none : ProcFlags := ⟨false, false, false⟩

instance : Inhabited ProcFlags := ⟨none⟩

def fields (f : ProcFlags) : List (String × Json) :=
  [("is_override", .bool f.isOverride), ("is_verb", .bool f.isVerb), ("hidden", .bool f.hidden)]

def keys : List String := ["is_override", "is_verb", "hidden"]

def toJson (f : ProcFlags) : Json := .obj f.fields

/-- Flags that are absent are off. -/
def ofFields (fields : List (String × Json)) : Decoded ProcFlags := do
  let isOverride ← Json.orElse fields "is_override" Json.asBool false
  let isVerb ← Json.orElse fields "is_verb" Json.asBool false
  let hidden ← Json.orElse fields "hidden" Json.asBool false
  return ⟨isOverride, isVerb, hidden⟩

def ofJson (j : Json) : Decoded ProcFlags := do ofFields (← j.recordFields keys)

end ProcFlags

/-- What a code generator lowers to instructions. -/
inductive ProcStep where
  /-- The same proc of the nearest ancestor that has it. -/
  | callSuper (argCount : UInt32)
  /-- Where the steps that follow stand in source text. -/
  | debugSource (location : Location)
  | eval (e : Expr)
deriving Repr, Inhabited

def ProcStep.toJson : ProcStep → Json
  | callSuper n => .obj [("call_super", .obj [("arg_count", .ofNat n.toNat)])]
  | debugSource l => .obj [("debug_source", l.toJson)]
  | eval e => .obj [("eval", e.toJson)]

/-- Initializers have no name. -/
structure Proc where
  id : ProcId
  owner : ClassId
  name : Option String
  flags : ProcFlags
  returnType : Option ValueConstraint
  body : List ProcStep
deriving Repr, Inhabited

def Proc.toJson (p : Proc) : Json :=
  .obj [("id", .ofNat p.id), ("owner", .ofNat p.owner), ("name", .ofOption .text p.name),
    ("attributes", p.flags.toJson), ("return_type", .ofOption ValueConstraint.toJson p.returnType),
    ("body", .arr (p.body.map ProcStep.toJson))]

/-- All procs, and those among them that belong to no class in particular, by name. -/
structure ProcRegistry where
  procs : Array Proc
  globals : OrderedMap String ProcId
deriving Repr, Inhabited

namespace ProcRegistry

def empty : ProcRegistry := ⟨#[], .empty⟩

def size (r : ProcRegistry) : Nat := r.procs.size

def get? (r : ProcRegistry) (id : ProcId) : Option Proc := r.procs[id]?

/-- The new proc gets the id `r.size`. -/
def register (r : ProcRegistry) (owner : ClassId) (name : Option String) (flags : ProcFlags)
    (returnType : Option ValueConstraint) (body : List ProcStep) : ProcRegistry :=
  { r with procs := r.procs.push ⟨r.size, owner, name, flags, returnType, body⟩ }

/-- Also makes the new proc, which the root owns, the global one of its name. -/
def registerGlobal (r : ProcRegistry) (name : String) (returnType : Option ValueConstraint) :
    ProcRegistry :=
  { r.register rootId (some name) .none returnType [] with globals := r.globals.insert name r.size }

def global? (r : ProcRegistry) (name : String) : Option Proc := (r.globals.get? name).bind r.get?

end ProcRegistry

end ClassTree
