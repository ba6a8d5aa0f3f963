import ClassTree.Declaration
import ClassTree.Hierarchy.Emit
import ClassTree.Hierarchy.Initializer
import ClassTree.Hierarchy.Report
/-!
The command line: `emit` compiles a declaration file into an artifact, `lookup` reports what a name
means on a class. What a command comes to is computed from the text of its input file; reading and
writing files is left to the program.
-/

namespace ClassTree

inductive Command where
  | emit (input : String) (output : Option String) (pretty : Bool)
  | lookup (input classPath name : String)
deriving DecidableEq, Repr

namespace Command

/-! ### Arguments -/

structure Switch where
  long : String
  short : Option Char
  takesValue : Bool
  /-- Whether the value is the name of a file, which is never empty. -/
  isFile : Bool

def inputSwitch : Switch := ⟨"input", some 'i', true, true⟩

def emitSwitches : List Switch :=
  [inputSwitch, ⟨"output", some 'o', true, true⟩, ⟨"pretty", none, false, false⟩]

def lookupSwitches : List Switch :=
  [inputSwitch, ⟨"class", some 'c', true, false⟩, ⟨"name", some 'n', true, false⟩]

/-- A switch in an argument, with the value if the argument holds it too. -/
def switchOf (switches : List Switch) : List Char → Option (Switch × Option (List Char))
  | '-' :: '-' :: rest =>
    let (name, value) := rest.span (· ≠ '=')
    (switches.find? (·.long = String.ofList name)).map fun s =>
      (s, match value with
        | [] => none
        | _ :: value => some value)
  | '-' :: c :: rest =>
    (switches.find? (·.short = some c)).map fun s =>
      (s, match rest with
        | [] => none
        | '=' :: value => some value
        | value => some value)
  | _ => none

/-- An argument that begins with a hyphen is a switch and no value, unless it is the hyphen alone.
-/
def isValue (arg : String) : Bool := arg = "-" || arg.toList.head? ≠ some '-'

/-- Adds the value of a switch, which can be given once. -/
def record (found : List (String × String)) (s : Switch) (value : String) :
    Option (List (String × String)) :=
  if (found.lookup s.long).isSome || (s.isFile && value.isEmpty) then none
  else some (found ++ [(s.long, value)])

def values (switches : List Switch) (found : List (String × String)) :
    List String → Option (List (String × String))
  | [] => some found
  | ["--"] => some found
  | [arg] => do
    match ← switchOf switches arg.toList with
    | (s, some value) => if s.takesValue then record found s (String.ofList value) else none
    | (s, none) => if s.takesValue then none else record found s ""
  | arg :: next :: rest => do
    match ← switchOf switches arg.toList with
    | (s, some value) =>
      if s.takesValue then values switches (← record found s (String.ofList value)) (next :: rest)
      else none
    | (s, none) =>
      if s.takesValue then
        if isValue next then values switches (← record found s next) rest else none
      else values switches (← record found s "") (next :: rest)

def parse : List String → Option Command
  | "emit" :: args => do
    let found ← values emitSwitches [] args
    return .emit (← found.lookup "input") (found.lookup "output") (found.lookup "pretty").isSome
  | "lookup" :: args => do
    let found ← values lookupSwitches [] args
    return .lookup (← found.lookup "input") (← found.lookup "class") (← found.lookup "name")
  | _ => none

def input : Command → String
  | emit input _ _ => input
  | lookup input _ _ => input

/-! ### Outcomes -/

def outputVariable : String := "TREELANG_OUTPUT"

end Command

inductive Outcome where
  | usage
  | unreadable (input : String)
  | invalidFile (input : String)
  | refused (e : HierarchyError)
  | buildFailed (errors : List BuildError)
  | print (text : String)
  | writeFile (path text : String)
  | unwritable (path : String)
deriving Repr

namespace Outcome

def code : Outcome → Nat
  | print _ => 0
  | writeFile _ _ => 0
  | invalidFile _ => 1
  | refused _ => 1
  | usage => 2
  | buildFailed _ => 2
  | unreadable _ => 3
  | unwritable _ => 3

def stdout : Outcome → String
  | print text => text ++ "\n"
  | _ => ""

def usageText : String :=
  "Usage: emit -i <file> [-o <file>] [--pretty]\n       lookup -i <file> -c <class> -n <name>\n"

def stderr : Outcome → String
  | usage => usageText
  | unreadable input => s!"Error: failed to read '{input}'\n"
  | invalidFile input => s!"Error: invalid declaration file '{input}'\n"
  | refused e => s!"Error: {e.message}\n"
  | buildFailed errors =>
    s!"Build failed with {errors.length} error(s):\n" ++
      String.join (errors.map fun e => s!"  - {e.message}\n")
  | unwritable path => s!"Error: failed to write '{path}'\n"
  | _ => ""

end Outcome

namespace Command

def emitOutcome (t : Hierarchy) (output : Option String) (pretty : Bool) : Outcome :=
  match t.finalize with
  | .error e => .refused e
  | .ok t =>
    match t.emit with
    | .error errors => .buildFailed errors
    | .ok artifact =>
      match output with
      | some path => .writeFile path (artifact.write pretty)
      | none => .print (artifact.write pretty)

def lookupOutcome (t : Hierarchy) (classPath name : String) : Outcome :=
  match t.lookup classPath with
  | .error e => .refused e
  | .ok c => .print (t.report c name).write

/-- What a command comes to if its input file holds a text, or cannot be read, and the environment
names an output file or does not. -/
def outcome (command : Command) (fallback : Option String) (contents : Option String) : Outcome :=
  match contents with
  | none => .unreadable command.input
  | some text =>
    match DeclarationFile.read text with
    | .error _ => .invalidFile command.input
    | .ok file =>
      match Hierarchy.ofDeclarations file with
      | .error e => .refused e
      | .ok t =>
        match command with
        | emit _ output pretty => emitOutcome t (output.or fallback) pretty
        | lookup _ classPath name => lookupOutcome t classPath name

end Command

end ClassTree
