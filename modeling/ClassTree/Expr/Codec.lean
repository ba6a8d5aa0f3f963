import ClassTree.Expr.Basic
import ClassTree.Json.Decode
/-!
Expressions in JSON: the name of the alternative alone, or an object that maps it to what it holds.
-/

namespace ClassTree

def Location.toJson (l : Location) : Json :=
  .obj [("file", .text l.file), ("line", .ofNat l.line.toNat), ("column", .ofNat l.column.toNat)]

def Location.ofJson (j : Json) : Decoded Location := do
  let fields ← j.recordFields ["file", "line", "column"]
  let file ← Json.required fields "file" Json.asText
  let line ← Json.required fields "line" Json.asUInt32
  let column ← Json.required fields "column" Json.asUInt32
  return ⟨file, line, column⟩

namespace Expr

mutual

def toJson : Expr → Json
  | .null => .text "null"
  | .num x => .obj [("num", .ofDouble x)]
  | .text s => .obj [("text", .text s)]
  | .resource s => .obj [("resource", .text s)]
  | .path p => .obj [("path", .ofPath p)]
  | .list items => .obj [("list", .arr (toJsons items))]
  | .globalVar name => .obj [("global", .text name)]
  | .call name args => .obj [("call", .obj [("name", .text name), ("args", .arr (toJsons args))])]
  | .new p args => .obj [("new", .obj [("path", .ofPath p), ("args", .arr (toJsons args))])]
  | .assignField name value =>
    .obj [("assign_field", .obj [("name", .text name), ("value", value.toJson)])]
termination_by structural e => e

def toJsons : List Expr → List Json
  | [] => []
  | e :: rest => e.toJson :: toJsons rest
termination_by structural l => l

end

/-- Reads an expression in which expressions enclose each other at most `n` times. -/
def ofJsonWithin : Nat → Json → Decoded Expr
  | 0, _ => .error .shape
  | n + 1, j => do
    match ← j.asVariant with
    | ("null", none) => return .null
    | (_, none) => .error .shape
    | (name, some j) =>
      match name with
      | "null" => do
        j.asNull
        return .null
      | "num" => .num <$> j.asDouble
      | "text" => .text <$> j.asText
      | "resource" => .resource <$> j.asText
      | "path" => .path <$> j.asPath
      | "list" => .list <$> j.asList (ofJsonWithin n)
      | "global" => .globalVar <$> j.asText
      | "call" => do
        let fields ← j.recordFields ["name", "args"]
        let name ← Json.required fields "name" Json.asText
        let args ← Json.required fields "args" (Json.asList (ofJsonWithin n))
        return .call name args
      | "new" => do
        let fields ← j.recordFields ["path", "args"]
        let p ← Json.required fields "path" Json.asPath
        let args ← Json.required fields "args" (Json.asList (ofJsonWithin n))
        return .new p args
      | "assign_field" => do
        let fields ← j.recordFields ["name", "value"]
        let name ← Json.required fields "name" Json.asText
        let value ← Json.required fields "value" (ofJsonWithin n)
        return .assignField name value
      | _ => .error .shape

/-- An enclosed expression lies deeper in the JSON value than the one around it. -/
def ofJson (j : Json) : Decoded Expr := ofJsonWithin (j.depth + 1) j

end Expr

def PendingExpr.toJson (e : PendingExpr) : Json :=
  .obj [("location", e.location.toJson), ("expr", e.expr.toJson)]

def PendingExpr.ofJson (j : Json) : Decoded PendingExpr := do
  let fields ← j.recordFields ["location", "expr"]
  let location ← Json.orElse fields "location" Location.ofJson .internal
  let expr ← Json.required fields "expr" Expr.ofJson
  return ⟨location, expr⟩

end ClassTree
