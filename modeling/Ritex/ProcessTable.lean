import Ritex.Transition

/-! Processes that run side by side and may leave other processes behind. Of a claim that a process
can only take up where no process has it, there is at most one holder at any time. -/
namespace Ritex.Transition

variable {π κ : Type}

/-- How processes begin, and what a process becomes in a step among the others: one process as a
rule, none if it ends, more if it forks. -/
structure Processes (π : Type) where
  fresh : π → Prop
  leaves : List π → π → List π → Prop

namespace Processes

variable (P : Processes π)

inductive Step : List π → List π → Prop
  | start {procs : List π} {p : π} : P.fresh p → Step procs (procs ++ [p])
  | run {before after left : List π} {p : π} : P.leaves (before ++ p :: after) p left →
      Step (before ++ p :: after) (before ++ left ++ after)

def system : System (List π) where
  init procs := procs = []
  step := P.Step

variable {P}

theorem forall_reachable {good : π → Prop} (hfresh : ∀ p, P.fresh p → good p)
    (hleaves : ∀ procs p left, P.leaves procs p left → good p → ∀ q ∈ left, good q)
    {procs : List π} (h : P.system.Reachable procs) : ∀ p ∈ procs, good p := by
  refine System.Invariant.reachable (I := fun procs => ∀ p ∈ procs, good p) ⟨?_, ?_⟩ h
  · rintro _ rfl p hp
    cases hp
  · rintro procs _ hgood (@⟨_, p, hp⟩ | @⟨before, after, left, p, hp⟩) q hq
    · rcases List.mem_append.mp hq with hq | hq
      · exact hgood q hq
      · rw [List.mem_singleton.mp hq]
        exact hfresh p hp
    · have hleft := hleaves _ p left hp (hgood p (by simp))
      simp only [List.mem_append] at hq
      rcases hq with (hq | hq) | hq
      · exact hgood q (by simp [hq])
      · exact hleft q hq
      · exact hgood q (by simp [hq])

/-- What a step makes of the claim of its process: it is handed on or dropped, or a claim is taken up
that no process has. -/
inductive Hands (claim : π → Option κ) (procs : List π) (p : π) (left : List π) : Prop
  | drops : left.filterMap claim = [] → Hands claim procs p left
  | keeps : left.filterMap claim = (claim p).toList → Hands claim procs p left
  | takes (k : κ) : left.filterMap claim = [k] → (∀ q ∈ procs, claim q ≠ some k) →
      Hands claim procs p left

theorem nodup_claims {claim : π → Option κ} {good : π → Prop}
    (hgood : ∀ procs, P.system.Reachable procs → ∀ p ∈ procs, good p)
    (hfresh : ∀ p, P.fresh p → claim p = none)
    (hleaves : ∀ procs p left, (∀ q ∈ procs, good q) → P.leaves procs p left →
      Hands claim procs p left)
    {procs : List π} (h : P.system.Reachable procs) : (procs.filterMap claim).Nodup := by
  induction h with
  | init h =>
    obtain rfl : _ = [] := h
    exact List.nodup_nil
  | step hreachable hstep ih =>
    cases hstep with
    | @start _ p hp => simpa [hfresh p hp] using ih
    | @run before after left p hp =>
      have hp_claim : (p :: after).filterMap claim =
          (claim p).toList ++ after.filterMap claim := by
        cases hc : claim p <;> simp [hc]
      rw [List.filterMap_append, hp_claim] at ih
      simp only [List.filterMap_append, List.append_assoc]
      cases hleaves _ p left (hgood _ hreachable) hp with
      | drops hleft =>
        rw [hleft]
        exact ih.sublist (by simp)
      | keeps hleft => rwa [hleft]
      | takes k hleft hnew =>
        have hbefore : k ∉ before.filterMap claim := fun hk => by
          obtain ⟨q, hq, hclaim⟩ := List.mem_filterMap.mp hk
          exact hnew q (by simp [hq]) hclaim
        have hafter : k ∉ after.filterMap claim := fun hk => by
          obtain ⟨q, hq, hclaim⟩ := List.mem_filterMap.mp hk
          exact hnew q (by simp [hq]) hclaim
        have hrest : (before.filterMap claim ++ after.filterMap claim).Nodup :=
          ih.sublist (by simp)
        rw [hleft, List.singleton_append, List.nodup_middle]
        exact List.nodup_cons.mpr ⟨by simp [hbefore, hafter], hrest⟩

end Processes

end Ritex.Transition
