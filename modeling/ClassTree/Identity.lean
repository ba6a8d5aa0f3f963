/-!
Numbers that name the entities of a program. Each is the place of its entity in the table of its
kind.
-/

namespace ClassTree

abbrev ClassId := Nat

abbrev ProcId := Nat

abbrev SlotId := Nat

def rootId : ClassId := 0

end ClassTree
