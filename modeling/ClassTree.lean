import ClassTree.Collection.Container
import ClassTree.Main
import ClassTree.Proofs.Artifact.Lookup
import ClassTree.Proofs.Hierarchy.Finalize
import ClassTree.Proofs.Hierarchy.ReturnType
import ClassTree.Proofs.Hierarchy.ProcUse
import ClassTree.Proofs.Collection.Lockstep
import ClassTree.Proofs.Hierarchy.Growth
import ClassTree.Proofs.Hierarchy.Slots
import ClassTree.Proofs.Hierarchy.Locality
import ClassTree.Proofs.Hierarchy.Atomicity
import ClassTree.Proofs.Artifact.Emission
import ClassTree.Proofs.Declaration.Merge
import ClassTree.Proofs.Declaration.Loading
import ClassTree.Proofs.Hierarchy.InitializedOnce
import ClassTree.Proofs.Hierarchy.Outline
import ClassTree.Proofs.Declaration.Refusal
import ClassTree.Proofs.Artifact.Decoding
import ClassTree.Proofs.Decimal.Shortest
import ClassTree.Proofs.Json.Number
import ClassTree.Proofs.Json.Lexing
import ClassTree.Proofs.Json.Reading
import ClassTree.Proofs.Json.Record
import ClassTree.Proofs.Artifact.Literal
import ClassTree.Proofs.Declaration.Nesting
import ClassTree.Proofs.Artifact.Record
import ClassTree.Proofs.Artifact.RoundTrip
import ClassTree.Proofs.Collection.History
import ClassTree.Proofs.Collection.Views
import ClassTree.Proofs.Collection.Congruence
import ClassTree.Proofs.Artifact.Closed
import ClassTree.Proofs.Hierarchy.ByPath
import ClassTree.Proofs.Hierarchy.Inheritance
import ClassTree.Proofs.Collection.Assignment
import ClassTree.Proofs.Declaration.RoundTrip
import ClassTree.Proofs.Hierarchy.Persistence
import ClassTree.Proofs.Hierarchy.PathClosure
import ClassTree.Proofs.Artifact.TypePaths
import ClassTree.Proofs.Collection.IndexErrors
import ClassTree.Proofs.Hierarchy.DeclaredHere
import ClassTree.Proofs.Artifact.Constant
import ClassTree.Proofs.Hierarchy.Creation
import ClassTree.Proofs.Hierarchy.Redeclaration
import ClassTree.Proofs.Declaration.FileOrder
import ClassTree.Proofs.Hierarchy.Kinds
import ClassTree.Proofs.PathGrammar
import ClassTree.Proofs.PathDescent
import ClassTree.Proofs.Collection.Search
import ClassTree.Proofs.Collection.Bounds
