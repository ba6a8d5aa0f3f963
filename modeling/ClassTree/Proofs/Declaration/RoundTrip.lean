import ClassTree.Declaration
import ClassTree.Proofs.Artifact.Record
/-!
Declaration files in JSON: what is written of one is read back, as long as its numbers are finite.
-/

namespace ClassTree

open Json (present)

variable {n : Nat}

/-! ### Expressions -/

namespace Expr

variable {e : Expr} {items : List Expr}

/-- All numbers in the expression are finite, however deep they stand. -/
inductive FiniteNumbers : Expr → Prop
  | null : FiniteNumbers .null
  | num {x : Binary64} (h : x.isFinite = true) : FiniteNumbers (.num x)
  | text (s : String) : FiniteNumbers (.text s)
  | resource (s : String) : FiniteNumbers (.resource s)
  | path (p : TypePath) : FiniteNumbers (.path p)
  | list {items : List Expr} (h : ∀ e ∈ items, FiniteNumbers e) : FiniteNumbers (.list items)
  | globalVar (name : String) : FiniteNumbers (.globalVar name)
  | call (name : String) {args : List Expr} (h : ∀ e ∈ args, FiniteNumbers e) :
    FiniteNumbers (.call name args)
  | new (p : TypePath) {args : List Expr} (h : ∀ e ∈ args, FiniteNumbers e) :
    FiniteNumbers (.new p args)
  | assignField (name : String) {value : Expr} (h : FiniteNumbers value) :
    FiniteNumbers (.assignField name value)

lemma toJson_ne_null (e : Expr) : e.toJson ≠ .null := by
  cases e <;> nofun

lemma toJsons_eq_map (items : List Expr) : toJsons items = items.map toJson := by
  induction items with
  | nil => rfl
  | cons e rest ih => rw [toJsons, ih, List.map_cons]

/-- The elements of an array lie deeper than the array. -/
lemma asList_toJsons
    (h : ∀ e ∈ items, ∀ {n}, e.toJson.depth ≤ n → ofJsonWithin (n + 1) e.toJson = .ok e)
    (hn : (Json.arr (toJsons items)).depth ≤ n) :
    Json.asList (ofJsonWithin n) (.arr (toJsons items)) = .ok items := by
  rw [Json.depth] at hn
  obtain ⟨k, rfl⟩ := Nat.exists_eq_add_of_le' (Nat.le_of_add_left_le hn)
  rw [toJsons_eq_map] at hn ⊢
  refine Json.asList_map fun e he => h e he ?_
  exact (Json.depth_le_depthItems (List.mem_map_of_mem he)).trans (Nat.le_of_succ_le_succ hn)

lemma ofJsonWithin_toJson (h : e.FiniteNumbers) (hn : e.toJson.depth ≤ n) :
    ofJsonWithin (n + 1) e.toJson = .ok e := by
  induction h generalizing n with
  | @num x hx =>
    rw [toJson, Json.ofDouble, if_pos hx]
    rfl
  | path p =>
    change Expr.path <$> (Json.ofPath p).asPath = _
    rw [Json.asPath_ofPath]
    rfl
  | @list items h ih =>
    simp only [toJson, Json.depth, Json.depthFields] at hn
    change Expr.list <$> Json.asList (ofJsonWithin n) (.arr (toJsons items)) = _
    rw [asList_toJsons ih (by rw [Json.depth]; omega)]
    rfl
  | @call name args h ih =>
    simp only [toJson, Json.depth, Json.depthFields] at hn
    change Expr.call name <$> Json.asList (ofJsonWithin n) (.arr (toJsons args)) = _
    rw [asList_toJsons ih (by rw [Json.depth]; omega)]
    rfl
  | @new p args h ih =>
    simp only [toJson, Json.depth, Json.depthFields] at hn
    change (do
      let p ← (Json.ofPath p).asPath
      Expr.new p <$> Json.asList (ofJsonWithin n) (.arr (toJsons args))) = _
    rw [Json.asPath_ofPath, asList_toJsons ih (by rw [Json.depth]; omega)]
    rfl
  | @assignField name value h ih =>
    simp only [toJson, Json.depth, Json.depthFields] at hn
    obtain ⟨k, rfl⟩ : ∃ k, n = k + 1 := ⟨n - 1, by omega⟩
    change Expr.assignField name <$> ofJsonWithin (k + 1) value.toJson = _
    rw [ih (by omega)]
    rfl
  | _ => rfl

lemma ofJson_toJson (h : e.FiniteNumbers) : ofJson e.toJson = .ok e :=
  ofJsonWithin_toJson h (Nat.le_refl _)

end Expr

/-! ### Places and pending expressions -/

namespace Location

def parts (l : Location) : List (String × Option Json) :=
  [("file", some (.text l.file)), ("line", some (.ofNat l.line.toNat)),
    ("column", some (.ofNat l.column.toNat))]

lemma ofJson_toJson (l : Location) : ofJson l.toJson = .ok l := by
  have hn : (l.parts.map (·.1)).Nodup := by simp [parts]
  have hfields : l.toJson.recordFields ["file", "line", "column"] = .ok (present l.parts) :=
    Json.recordFields_present hn
  have h₁ : Json.required (present l.parts) "file" Json.asText = .ok l.file :=
    Json.required_present (.text l.file) hn (by simp [parts]) rfl
  have h₂ : Json.required (present l.parts) "line" Json.asUInt32 = .ok l.line :=
    Json.required_present _ hn (by simp [parts]) (Json.asUInt32_ofNat l.line)
  have h₃ : Json.required (present l.parts) "column" Json.asUInt32 = .ok l.column :=
    Json.required_present _ hn (by simp [parts]) (Json.asUInt32_ofNat l.column)
  simp only [ofJson, hfields, h₁, h₂, h₃, bind, Except.bind]
  rfl

end Location

namespace PendingExpr

def parts (e : PendingExpr) : List (String × Option Json) :=
  [("location", some e.location.toJson), ("expr", some e.expr.toJson)]

lemma ofJson_toJson {e : PendingExpr} (h : e.expr.FiniteNumbers) : ofJson e.toJson = .ok e := by
  have hn : (e.parts.map (·.1)).Nodup := by simp [parts]
  have hfields : e.toJson.recordFields ["location", "expr"] = .ok (present e.parts) :=
    Json.recordFields_present hn
  have h₁ : Json.orElse (present e.parts) "location" Location.ofJson .internal = .ok e.location :=
    Json.orElse_present _ hn (by simp [parts]) e.location.ofJson_toJson
  have h₂ : Json.required (present e.parts) "expr" Expr.ofJson = .ok e.expr :=
    Json.required_present _ hn (by simp [parts]) (Expr.ofJson_toJson h)
  simp only [ofJson, hfields, h₁, h₂, bind, Except.bind]
  rfl

end PendingExpr

/-! ### Variables and procs -/

namespace VarDecl

variable {d : VarDecl}

def parts (d : VarDecl) : List (String × Option Json) :=
  [("name", some (.text d.name)), ("type", some (.ofOption .ofPath d.typePath)),
    ("is_const", some (.bool d.isConst)), ("is_tmp", some (.bool d.isTmp)),
    ("value", some (.ofOption Expr.toJson d.value)),
    ("value_type", some (.ofOption ValueConstraint.toJson d.constraint)),
    ("location", some (.ofOption Location.toJson d.location))]

lemma nodup_parts (d : VarDecl) : (d.parts.map (·.1)).Nodup := by simp [parts]

lemma ofJson_toJson (h : ∀ e ∈ d.value, e.FiniteNumbers) : ofJson d.toJson = .ok d := by
  have hn := d.nodup_parts
  have hfields : d.toJson.recordFields keys = .ok (present d.parts) :=
    Json.recordFields_present hn
  have h₁ : Json.required (present d.parts) "name" Json.asText = .ok d.name :=
    Json.required_present (.text d.name) hn (by simp [parts]) rfl
  have h₂ : Json.optional (present d.parts) "type" Json.asPath = .ok d.typePath :=
    Json.optional_ofOption .ofPath hn (by simp [parts]) nofun fun p _ => Json.asPath_ofPath p
  have h₃ : Json.orElse (present d.parts) "is_const" Json.asBool false = .ok d.isConst :=
    Json.orElse_present (.bool d.isConst) hn (by simp [parts]) rfl
  have h₄ : Json.orElse (present d.parts) "is_tmp" Json.asBool false = .ok d.isTmp :=
    Json.orElse_present (.bool d.isTmp) hn (by simp [parts]) rfl
  have h₅ : Json.optional (present d.parts) "value" Expr.ofJson = .ok d.value :=
    Json.optional_ofOption Expr.toJson hn (by simp [parts]) Expr.toJson_ne_null
      fun e he => Expr.ofJson_toJson (h e he)
  have h₆ : Json.optional (present d.parts) "value_type" ValueConstraint.ofJson =
      .ok d.constraint :=
    Json.optional_ofOption ValueConstraint.toJson hn (by simp [parts]) nofun
      fun c _ => c.ofJson_toJson
  have h₇ : Json.optional (present d.parts) "location" Location.ofJson = .ok d.location :=
    Json.optional_ofOption Location.toJson hn (by simp [parts]) nofun fun l _ => l.ofJson_toJson
  simp only [ofJson, hfields, h₁, h₂, h₃, h₄, h₅, h₆, h₇, bind, Except.bind]
  rfl

end VarDecl

namespace ProcDecl

variable (d : ProcDecl)

/-- The flags stand among the fields of the proc. -/
def parts : List (String × Option Json) :=
  [("name", some (.text d.name)), ("is_override", some (.bool d.flags.isOverride)),
    ("is_verb", some (.bool d.flags.isVerb)), ("hidden", some (.bool d.flags.hidden)),
    ("return_type", some (.ofOption ValueConstraint.toJson d.returnType))]

lemma isHeld_toJson : d.toJson.isHeld = true := by
  have hr : Json.Readable (.ofOption ValueConstraint.toJson d.returnType) := by
    cases d.returnType with
    | none => exact .null
    | some c => exact c.readable
  have hparts : Json.Readable (.obj (present d.parts)) := by
    apply Json.Readable.present
    exact .some (.text d.name) <| .some (.bool d.flags.isOverride) <|
      .some (.bool d.flags.isVerb) <| .some (.bool d.flags.hidden) <| .some hr .nil
  exact hparts.isHeld

lemma ofJson_toJson : ofJson d.toJson = .ok d := by
  have hn : (d.parts.map (·.1)).Nodup := by simp [parts]
  have hfields : d.toJson.recordFields (["name", "return_type"] ++ ProcFlags.keys) =
      .ok (present d.parts) :=
    Json.recordFields_of_subset hn (by simp [parts, ProcFlags.keys])
  have h₁ : Json.required (present d.parts) "name" Json.asText = .ok d.name :=
    Json.required_present (.text d.name) hn (by simp [parts]) rfl
  have h₂ : Json.orElse (present d.parts) "is_override" Json.asBool false =
      .ok d.flags.isOverride :=
    Json.orElse_present (.bool d.flags.isOverride) hn (by simp [parts]) rfl
  have h₃ : Json.orElse (present d.parts) "is_verb" Json.asBool false = .ok d.flags.isVerb :=
    Json.orElse_present (.bool d.flags.isVerb) hn (by simp [parts]) rfl
  have h₄ : Json.orElse (present d.parts) "hidden" Json.asBool false = .ok d.flags.hidden :=
    Json.orElse_present (.bool d.flags.hidden) hn (by simp [parts]) rfl
  have h₅ : Json.optional (present d.parts) "return_type" ValueConstraint.ofJson =
      .ok d.returnType :=
    Json.optional_ofOption ValueConstraint.toJson hn (by simp [parts]) nofun
      fun c _ => c.ofJson_toJson
  have hflags : ProcFlags.ofFields (present d.parts) = .ok d.flags := by
    simp only [ProcFlags.ofFields, h₂, h₃, h₄, bind, Except.bind]
    rfl
  have hheld : ¬ (!d.toJson.isHeld) = true := by simp [d.isHeld_toJson]
  change (if !d.toJson.isHeld then _ else _) = _
  rw [if_neg hheld, hfields]
  simp only [h₁, hflags, h₅, bind, Except.bind]
  rfl

end ProcDecl

/-! ### Classes and files -/

namespace ClassDecl

variable {d : ClassDecl}

structure FiniteNumbers (d : ClassDecl) : Prop where
  vars : ∀ v ∈ d.vars, ∀ e ∈ v.value, e.FiniteNumbers
  overrides : ∀ v ∈ d.overrides, ∀ e ∈ v.value, e.FiniteNumbers
  globals : ∀ v ∈ d.globals, ∀ e ∈ v.value, e.FiniteNumbers
  init : ∀ e ∈ d.init, e.expr.FiniteNumbers

def parts (d : ClassDecl) : List (String × Option Json) :=
  [("path", some (.ofPath d.path)), ("parent", some (.ofOption .ofPath d.parent)),
    ("vars", some (.arr (d.vars.map VarDecl.toJson))),
    ("overrides", some (.arr (d.overrides.map VarDecl.toJson))),
    ("globals", some (.arr (d.globals.map VarDecl.toJson))),
    ("procs", some (.arr (d.procs.map ProcDecl.toJson))),
    ("init", some (.arr (d.init.map PendingExpr.toJson)))]

lemma ofJson_toJson (h : d.FiniteNumbers) : ofJson d.toJson = .ok d := by
  have hn : (d.parts.map (·.1)).Nodup := by simp [parts]
  have hfields : d.toJson.recordFields
      ["path", "parent", "vars", "overrides", "globals", "procs", "init"] =
      .ok (present d.parts) := Json.recordFields_present hn
  have h₁ : Json.required (present d.parts) "path" Json.asPath = .ok d.path :=
    Json.required_present _ hn (by simp [parts]) (Json.asPath_ofPath d.path)
  have h₂ : Json.optional (present d.parts) "parent" Json.asPath = .ok d.parent :=
    Json.optional_ofOption .ofPath hn (by simp [parts]) nofun fun p _ => Json.asPath_ofPath p
  have hvars (key : String) {vs : List VarDecl}
      (hk : (key, some (.arr (vs.map VarDecl.toJson))) ∈ d.parts)
      (hvs : ∀ v ∈ vs, ∀ e ∈ v.value, e.FiniteNumbers) :
      Json.orElse (present d.parts) key (Json.asList VarDecl.ofJson) [] = .ok vs :=
    Json.orElse_present _ hn hk (Json.asList_map fun v hv => VarDecl.ofJson_toJson (hvs v hv))
  have h₃ := hvars "vars" (by simp [parts]) h.vars
  have h₄ := hvars "overrides" (by simp [parts]) h.overrides
  have h₅ := hvars "globals" (by simp [parts]) h.globals
  have h₆ : Json.orElse (present d.parts) "procs" (Json.asList ProcDecl.ofJson) [] = .ok d.procs :=
    Json.orElse_present _ hn (by simp [parts]) (Json.asList_map fun p _ => p.ofJson_toJson)
  have h₇ : Json.orElse (present d.parts) "init" (Json.asList PendingExpr.ofJson) [] =
      .ok d.init :=
    Json.orElse_present _ hn (by simp [parts])
      (Json.asList_map fun e he => PendingExpr.ofJson_toJson (h.init e he))
  simp only [ofJson, hfields, h₁, h₂, h₃, h₄, h₅, h₆, h₇, bind, Except.bind]
  rfl

end ClassDecl

namespace DeclarationFile

variable {f : DeclarationFile}

def FiniteNumbers (f : DeclarationFile) : Prop := ∀ d ∈ f.classes, d.FiniteNumbers

def parts (f : DeclarationFile) : List (String × Option Json) :=
  [("classes", some (.arr (f.classes.map ClassDecl.toJson))),
    ("global_procs", some (.arr (f.globalProcs.map ProcDecl.toJson)))]

lemma ofJson_toJson (h : f.FiniteNumbers) : ofJson f.toJson = .ok f := by
  have hn : (f.parts.map (·.1)).Nodup := by simp [parts]
  have hfields : f.toJson.recordFields ["classes", "global_procs"] = .ok (present f.parts) :=
    Json.recordFields_present hn
  have h₁ : Json.orElse (present f.parts) "classes" (Json.asList ClassDecl.ofJson) [] =
      .ok f.classes :=
    Json.orElse_present _ hn (by simp [parts])
      (Json.asList_map fun d hd => ClassDecl.ofJson_toJson (h d hd))
  have h₂ : Json.orElse (present f.parts) "global_procs" (Json.asList ProcDecl.ofJson) [] =
      .ok f.globalProcs :=
    Json.orElse_present _ hn (by simp [parts]) (Json.asList_map fun p _ => p.ofJson_toJson)
  simp only [ofJson, hfields, h₁, h₂, bind, Except.bind]
  rfl

/-- A value that was not given is written as null, which is the form of no expression, and the flags
of a proc stand among its own fields. -/
theorem decoded_of_finiteNumbers (h : f.FiniteNumbers) :
    ofJson f.toJson = .ok f ∧
      (∀ d : VarDecl, ∃ fields, d.toJson = .obj fields ∧
        fields.lookup "type" = some (.ofOption .ofPath d.typePath) ∧
        (fields.lookup "value" = some .null ↔ d.value = none)) ∧
      ∀ d : ProcDecl, ∃ fields, d.toJson = .obj fields ∧ d.flags.fields ⊆ fields := by
  refine ⟨ofJson_toJson h, fun d => ⟨present d.parts, rfl, ?_, ?_⟩, fun d => ⟨_, rfl, ?_⟩⟩
  · exact Json.lookup_present d.nodup_parts (by simp [VarDecl.parts])
  · have hvalue : (present d.parts).lookup "value" = some (.ofOption Expr.toJson d.value) :=
      Json.lookup_present d.nodup_parts (by simp [VarDecl.parts])
    rw [hvalue, Option.some.injEq]
    cases d.value with
    | none => exact iff_of_true rfl rfl
    | some e => exact iff_of_false e.toJson_ne_null nofun
  · exact List.subset_append_of_subset_left _ (List.subset_append_right _ _)

/-- Expressions of each kind that encloses others, inside each other. -/
def enclosing : Expr :=
  .assignField "icon"
    (.list [.call "pick" [.new .datum [.list [.num (Binary64.ofInt (-1))]]], .null])

def twoVars : DeclarationFile :=
  ⟨[⟨.mob, some .movable, [⟨"unset", none, false, true, none, none, none⟩,
      ⟨"cleared", some .datum, true, false, some .null, some .anything, some .internal⟩],
    [], [], [⟨"move", ⟨true, false, true⟩, none⟩], [⟨.internal, enclosing⟩]⟩],
    [⟨"log", .none, some .anything⟩]⟩

theorem decoded_twoVars : twoVars.FiniteNumbers ∧ ofJson twoVars.toJson = .ok twoVars := by
  have hnum : (Binary64.ofInt (-1)).isFinite = true := by decide +kernel
  have hnew : (Expr.new .datum [.list [.num (Binary64.ofInt (-1))]]).FiniteNumbers :=
    .new _ (List.forall_mem_singleton.mpr (.list (List.forall_mem_singleton.mpr (.num hnum))))
  have henclosing : enclosing.FiniteNumbers :=
    .assignField _ (.list (List.forall_mem_cons.mpr
      ⟨.call _ (List.forall_mem_singleton.mpr hnew), List.forall_mem_singleton.mpr .null⟩))
  have hfile : twoVars.FiniteNumbers := by
    intro d hd
    obtain rfl := List.mem_singleton.mp hd
    constructor
    case vars =>
      intro v hv e he
      rcases List.mem_pair.mp hv with rfl | rfl
      · cases he
      · cases he
        exact .null
    case init => exact List.forall_mem_singleton.mpr henclosing
    case overrides => exact List.forall_mem_nil _
    case globals => exact List.forall_mem_nil _
  exact ⟨hfile, (decoded_of_finiteNumbers hfile).1⟩

end DeclarationFile

end ClassTree
