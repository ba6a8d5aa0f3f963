import ClassTree.Proofs.Declaration.Refusal
import ClassTree.Proofs.Hierarchy.Persistence
/-!
Numbers follow the order of a file. Loading numbers the procs, the slots and the classes of a file
in the order in which the file declares or first requires them.
-/

namespace ClassTree

/-! ### What a file declares and requires -/

def ProcDecl.asGlobal (d : ProcDecl) : ProcDecl := { d with flags := .none }

/-- The global procs come first. They belong to the root and are kept without their flags. -/
def DeclarationFile.procs (f : DeclarationFile) : List (TypePath × ProcDecl) :=
  f.globalProcs.map (fun d => (.root, d.asGlobal)) ++ ClassDecl.placed ClassDecl.procs f.classes

namespace Outline

variable {o : Outline} {p : TypePath} {parent : Option TypePath} {ds : List ClassDecl}

/-- What is missing of the way to a path from the nearest one above it that is there, top down. -/
def wayTo (o : Outline) (p : TypePath) : Outline :=
  ((p :: p.ancestors).takeWhile fun q => !o.has q).reverse.map fun q => (q, q.parent?)

def required (o : Outline) (p : TypePath) : Option TypePath → Outline
  | none => o.wayTo p
  | some q => o.wayTo q ++ if (o ++ o.wayTo q).has p then [] else [(p, some q)]

end Outline

namespace Hierarchy

variable {t u : Hierarchy} {c i n : Nat} {e : ClassEntry} {f : DeclarationFile}
  {ds : List ClassDecl} {p : TypePath}

/-! ### Procs and slots -/

lemma LeadsTo.retains (h : LeadsTo u t) (ha : Arena u) : Retains u t := by
  obtain ⟨calls, rfl⟩ := h
  exact (run_changes ha calls).retains

end Hierarchy

end ClassTree
