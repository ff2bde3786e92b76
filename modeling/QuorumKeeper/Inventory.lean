import QuorumKeeper.Error.Operation

/-!
# The node inventory

The orchestrator's list of control plane nodes, which is the ground truth for which nodes should
exist. Reading it can fail for as long as a failure is set.
-/

set_option autoImplicit false

namespace QuorumKeeper

/-- A list of nodes, and why it cannot be read at present, if it cannot. -/
structure Inventory where
  nodes : List String
  failure : Option InventoryFailure := none
  deriving DecidableEq, Repr, Inhabited

namespace Inventory

/-- The nodes, or the failure to read them. -/
def read (inv : Inventory) : Except InventoryFailure (List String) :=
  match inv.failure with
  | none => .ok inv.nodes
  | some f => .error f

/-- Replaces the list. -/
def set (inv : Inventory) (nodes : List String) : Inventory :=
  { inv with nodes }

/-- Drops every entry with the given name. -/
def remove (inv : Inventory) (node : String) : Inventory :=
  { inv with nodes := inv.nodes.filter (· != node) }

/-- Makes reading fail, or work again. -/
def setFailure (inv : Inventory) (failure : Option InventoryFailure) : Inventory :=
  { inv with failure }

/-- A change to an inventory, or a mere look at it. -/
inductive Change where
  | set (nodes : List String)
  | remove (node : String)
  | look
  deriving DecidableEq, Repr

/-- Makes a change. -/
def apply (inv : Inventory) : Change → Inventory
  | .set nodes => inv.set nodes
  | .remove node => inv.remove node
  | .look => inv

/-- The node list after each change of a sequence. -/
def history (inv : Inventory) : List Change → List (List String)
  | [] => []
  | c :: rest => (inv.apply c).nodes :: (inv.apply c).history rest

end Inventory

end QuorumKeeper
