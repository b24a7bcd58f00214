import Ritex.DateOrder
import Ritex.NewestPerKey
import Ritex.ThreadPool

/-! `cached_queue_t` and `_cache_t` (`gateway/queue.tpp`, `gateway/cache.tpp`) under the threads
that call them. -/
namespace Ritex.Gateway
open Interaction

/-- What the templates use of `item_t`, and the platform's `char`. -/
structure ItemType (κ α : Type) where
  key : α → κ
  date : α → Date
  isSigned : Bool

inductive QueueOp (κ α : Type)
  | lockQueue
  | unlockQueue
  | lockCache
  | unlockCache
  | append (item : α)
  /-- `_bulk.swap( result )` of the queue; the answer is the new `result`. -/
  | swap (result : List α)
  | find (key : κ)
  | assign (key : κ) (item : α)
  deriving DecidableEq

abbrev QueueRes {κ α : Type} : QueueOp κ α → Type
  | .swap _ => List α
  | .find _ => Option α
  | _ => Unit

abbrev QueueProg (κ α β : Type) := Prog (QueueOp κ α) QueueRes β

def QueueOp.perform {κ α : Type} (o : QueueOp κ α) : QueueProg κ α (QueueRes o) := Prog.perform o

section
variable {κ α : Type}

/-- `queue_t::push_back` of several items. -/
def appendItems (items : List α) : QueueProg κ α Unit := do
  if items ≠ [] then
    QueueOp.lockQueue.perform
    items.forM fun item => (QueueOp.append item).perform
    QueueOp.unlockQueue.perform

namespace ItemType

variable (type : ItemType κ α)

def codes (item : α) : List ℤ := (type.date item).codes type.isSigned

/-- The loop body of `_cache_t::update`. -/
def updateItem (item : α) : QueueProg κ α Unit := do
  let it ← (QueueOp.find (type.key item)).perform
  if Option.all (fun held => (type.date item).greater type.isSigned (type.date held)) it then
    (QueueOp.assign (type.key item) item).perform

def update (items : List α) : QueueProg κ α Unit := do
  if items ≠ [] then
    QueueOp.lockCache.perform
    items.forM type.updateItem
    QueueOp.unlockCache.perform

/-- `cached_queue_t::push_back` of several items. -/
def pushBack (items : List α) : QueueProg κ α Unit := do
  QueueOp.lockQueue.perform
  appendItems items
  type.update items
  QueueOp.unlockQueue.perform

end ItemType

def grab : QueueProg κ α (List α) := do
  QueueOp.lockQueue.perform
  let result ← (QueueOp.swap []).perform
  QueueOp.unlockQueue.perform
  return result

def get (keys : List κ) : QueueProg κ α (List α) := do
  QueueOp.lockCache.perform
  let items ← keys.foldlM (fun items key => do
    let it ← (QueueOp.find key).perform
    return items ++ Option.toList it) []
  QueueOp.unlockCache.perform
  return items

inductive QueueCall (κ α : Type)
  | pushBack (items : List α)
  | grab
  | get (keys : List κ)

def ItemType.code (type : ItemType κ α) : QueueCall κ α → QueueProg κ α (List α)
  | .pushBack items => do
    type.pushBack items
    return []
  | .grab => Gateway.grab
  | .get keys => Gateway.get keys

def QueueCall.batch : QueueCall κ α → Option (List α)
  | .pushBack items => some items
  | _ => none

end

/-! ### Threads -/

/-- The contents of the queue and the cache, and the batches and the grabbed vectors in the order
in which their calls have locked the queue. -/
structure QueueData (κ α : Type) where
  bulk : List α := []
  cache : κ → Option α := fun _ => none
  pushed : List (List α) := []
  grabbed : List (List α) := []

structure QueueState (ι κ α : Type) where
  queueMutex : RecursiveMutex ι := none
  cacheMutex : Mutex ι := none
  data : QueueData κ α := {}
  /-- The batch that a thread pushes. -/
  batch : ι → Option (List α) := fun _ => none

section
variable {ι κ α : Type} [DecidableEq ι] [DecidableEq κ] [DecidableEq α]

namespace QueueData

/-- The batch of a call that locks the queue for the first time. -/
def enter (d : QueueData κ α) (m : RecursiveMutex ι) (batch : Option (List α)) : QueueData κ α :=
  if m = none then { d with pushed := d.pushed ++ batch.toList } else d

end QueueData

def queueNext (i : ι) :
    (o : QueueOp κ α) → QueueState ι κ α → QueueRes o → Option (QueueState ι κ α)
  | .lockQueue, s, _ => (s.queueMutex.lock i).map fun m =>
    { s with queueMutex := m, data := s.data.enter s.queueMutex (s.batch i) }
  | .unlockQueue, s, _ => some { s with queueMutex := s.queueMutex.unlock i }
  | .lockCache, s, _ => (s.cacheMutex.lock i).map fun m => { s with cacheMutex := m }
  | .unlockCache, s, _ => some { s with cacheMutex := s.cacheMutex.unlock i }
  | .append item, s, _ => some { s with data := { s.data with bulk := s.data.bulk ++ [item] } }
  | .swap result, s, (r : List α) =>
    if r = s.data.bulk then
      some { s with data := { s.data with bulk := result, grabbed := s.data.grabbed ++ [r] } }
    else none
  | .find key, s, (r : Option α) => if r = s.data.cache key then some s else none
  | .assign key item, s, _ =>
    some { s with data := { s.data with cache := Function.update s.data.cache key (some item) } }

def ItemType.threads (type : ItemType κ α) :
    Threads ι (QueueCall κ α) (QueueOp κ α) QueueRes (List α) (QueueState ι κ α) where
  next := queueNext
  start i call s := some (type.code call, { s with batch := Function.update s.batch i call.batch })

end

abbrev QueuePool (ι κ α : Type) := Pool ι (QueueOp κ α) QueueRes (List α) (QueueState ι κ α)

def QueuePool.empty {ι κ α : Type} : QueuePool ι κ α := ⟨fun _ => .ret [], {}⟩

end Ritex.Gateway
