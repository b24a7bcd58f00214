import Ritex.CachedQueue

/-! What a cached queue and its cache hold after any calls of any threads. -/
namespace Ritex.Gateway
open Interaction NewestPerKey

section
variable {ι κ α : Type}

/-- What the other threads leave alone. -/
structure QueueRely (i : ι) (s s' : QueueState ι κ α) : Prop where
  batch : s'.batch i = s.batch i
  waits : ¬s.queueMutex.Held i → ¬s'.queueMutex.Held i
  holds : s.queueMutex.Held i → s'.queueMutex = s.queueMutex ∧ s'.data = s.data

namespace QueueState

variable {i : ι} {depth : ℕ} {d : QueueData κ α} {batch : Option (List α)}
  {s s' : QueueState ι κ α}

def Holds (i : ι) (depth : ℕ) (d : QueueData κ α) (s : QueueState ι κ α) : Prop :=
  s.queueMutex = some (i, depth) ∧ s.data = d

def Waits (i : ι) (batch : Option (List α)) (s : QueueState ι κ α) : Prop :=
  ¬s.queueMutex.Held i ∧ s.batch i = batch

theorem Holds.rely (h : s.Holds i depth d) (hrely : QueueRely i s s') : s'.Holds i depth d := by
  obtain ⟨hmutex, hdata⟩ := hrely.holds ⟨depth, h.1⟩
  exact ⟨hmutex.trans h.1, hdata.trans h.2⟩

theorem Waits.rely (h : s.Waits i batch) (hrely : QueueRely i s s') : s'.Waits i batch :=
  ⟨hrely.waits h.1, hrely.batch.trans h.2⟩

end QueueState

variable [DecidableEq κ] (type : ItemType κ α)

variable {type}

variable (type) {i : ι} {depth depth' : ℕ} {s s' : QueueState ι κ α}

end

variable {ι κ α : Type} [DecidableEq ι] [DecidableEq κ] [DecidableEq α] {type : ItemType κ α}
  {i : ι} {depth : ℕ} {d : QueueData κ α} {s : QueueState ι κ α}

open QueueState

/-! ### Operations -/

end Ritex.Gateway
