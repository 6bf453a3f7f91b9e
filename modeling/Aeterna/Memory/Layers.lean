import Aeterna.Core.Types
import Aeterna.Lib.Table

/-!
The layers of the memory manager (`memory/src/manager.rs`) and the calls on their providers, any of which may fail.
-/

namespace Aeterna.Memory
open Lib (Table)

/-- `MemoryEntry`. Scores are of any type: nothing rests on how they are rounded. -/
structure LayerEntry (Score : Type) where
  (id content : String)
  layer : MemoryLayer
  importanceScore : Option Score := none
  metadata : HashMap String Json := ∅
  createdAt : Int := 0
  updatedAt : Int := 0

structure MemoryKey where
  tenantId : String
  layer : MemoryLayer
  id : String
  deriving DecidableEq

abbrev LayerStore (Score : Type) : Type := Table MemoryKey (LayerEntry Score)

inductive CallOutcome where
  | done
  | refused (reason : String)
  | lost (reason : String)

def CallOutcome.answer {α : Type} (a : α) : CallOutcome → Except String α
  | .done => .ok a
  | .refused reason | .lost reason => .error reason

def CallOutcome.effective : CallOutcome → Bool
  | .done | .lost _ => true
  | .refused _ => false

section
variable {Score : Type} (store : LayerStore Score)

def storeEntry (tenantId : String) (layer : MemoryLayer) (entry : LayerEntry Score) : LayerStore Score :=
  store.upsert ⟨tenantId, layer, entry.id⟩ entry (fun _ => entry)

def dropEntry (key : MemoryKey) : LayerStore Score := store.keepOnly (fun other _ => other ≠ key)

/-- `provider.list`, with a limit of 1000. -/
def listEntries (tenantId : String) (layer : MemoryLayer) : List (LayerEntry Score) :=
  ((store.rows.filter (fun e => e.1.tenantId = tenantId ∧ e.1.layer = layer)).map Prod.snd).take 1000

end

end Aeterna.Memory
