/-!
# Machines

A build machine is known by the name of the runner on it and by the id under which it is switched
on and off.  A table of machines keeps them in order, several of one name included.
-/

namespace BuildFleet

structure Machine where
  name : String
  id : String
  deriving DecidableEq

/-- The known machines, in the order in which they are reported. -/
structure Table where
  machines : List Machine
  deriving DecidableEq

namespace Table

def empty : Table := ⟨[]⟩

def isEmpty (t : Table) : Bool :=
  t.machines.isEmpty

def size (t : Table) : Nat :=
  t.machines.length

/-- The ids of the machines of one name. -/
def idsNamed (t : Table) (name : String) : List String :=
  (t.machines.filter (·.name == name)).map (·.id)

end Table

end BuildFleet
