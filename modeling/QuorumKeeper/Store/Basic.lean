import QuorumKeeper.Inventory
import QuorumKeeper.Program

/-!
# Stores

A `Store` is the etcd half of a world: it opens connections and answers the calls made over them.
Together with a source of node names it makes a `World`, whose two halves do not touch each
other.
-/

set_option autoImplicit false

namespace QuorumKeeper

/-- Something that opens connections and answers calls out of a state. -/
structure Store (σ : Type) where
  create : String → σ → Except ClientError UInt64 × σ
  list : Client → σ → Except ClientError (List Member) × σ
  remove : Client → UInt64 → σ → Except ClientError Unit × σ
  move : Client → UInt64 → σ → Except ClientError Unit × σ
  drop : Client → σ → σ

namespace Store

variable {σ ι : Type}

/-- The world of a store and a source of node names with a state of its own. -/
def worldWith (store : Store σ) (read : ι → Except InventoryFailure (List String) × ι) :
    World (ι × σ) where
  nodes := fun (i, s) =>
    let (a, i) := read i
    (a, (i, s))
  create := fun endpoint (i, s) =>
    let (a, s) := store.create endpoint s
    (a, (i, s))
  list := fun client (i, s) =>
    let (a, s) := store.list client s
    (a, (i, s))
  remove := fun client id (i, s) =>
    let (a, s) := store.remove client id s
    (a, (i, s))
  move := fun client id (i, s) =>
    let (a, s) := store.move client id s
    (a, (i, s))
  drop := fun client (i, s) => (i, store.drop client s)

/-- The world of a store and an inventory. -/
def world (store : Store σ) : World (Inventory × σ) :=
  store.worldWith fun inv => (inv.read, inv)

end Store

end QuorumKeeper
