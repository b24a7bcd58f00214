import Ritex.ProcessTable
import Ritex.Rendezvous

/-! `Adapter::BecomeDaemon` in any number of processes at once: the lock is a bound socket, which is
free once no process has a descriptor of it. -/
namespace Ritex
open Transition

inductive LaunchPhase
  /-- Before `createLock`. -/
  | started
  | locked
  /-- Behind the first `fork`. -/
  | child
  | leader
  /-- The session leader behind the second `fork`. -/
  | middle
  | detached
  /-- The standard descriptors from this one on are still to be opened. -/
  | reopening (fd : Fin 3)
  | daemon
  | client
  | failed
  deriving DecidableEq

/-- A process of the adapter with its descriptor of the lock. -/
structure AdapterProcess where
  deviceId : ℤ
  phase : LaunchPhase
  lockFd : Option ℕ
  deriving DecidableEq

/-- The address that `createLock` binds. -/
def lockAddress (deviceId : ℤ) : Option Text := abstractAddress (generatePidFileName deviceId)

/-- `bind` fails. -/
def AddressInUse (procs : List AdapterProcess) (deviceId : ℤ) : Prop :=
  ∃ q ∈ procs, q.lockFd.isSome = true ∧ lockAddress q.deviceId = lockAddress deviceId

/-- What another file under the number `fd` leaves of the descriptor. -/
def replaced (fd : ℕ) (lockFd : Option ℕ) : Option ℕ := lockFd.filter (· ≠ fd)

/-- The steps of `BecomeDaemon`, which gets a descriptor that is `allowed`. Every process may end at
any time. -/
inductive BecomeDaemon (allowed : ℕ → Prop) (procs : List AdapterProcess) :
    AdapterProcess → List AdapterProcess → Prop
  | noSocket {id : ℤ} : BecomeDaemon allowed procs ⟨id, .started, none⟩ [⟨id, .client, none⟩]
  | refused {id : ℤ} : AddressInUse procs id →
      BecomeDaemon allowed procs ⟨id, .started, none⟩ [⟨id, .client, none⟩]
  | lock {id : ℤ} {fd : ℕ} : allowed fd → ¬AddressInUse procs id →
      BecomeDaemon allowed procs ⟨id, .started, none⟩ [⟨id, .locked, some fd⟩]
  | fork {id : ℤ} {fd : Option ℕ} :
      BecomeDaemon allowed procs ⟨id, .locked, fd⟩ [⟨id, .client, fd⟩, ⟨id, .child, fd⟩]
  | noFork {id : ℤ} {fd : Option ℕ} :
      BecomeDaemon allowed procs ⟨id, .locked, fd⟩ [⟨id, .failed, fd⟩]
  | setsid {id : ℤ} {fd : Option ℕ} :
      BecomeDaemon allowed procs ⟨id, .child, fd⟩ [⟨id, .leader, fd⟩]
  | noSetsid {id : ℤ} {fd : Option ℕ} :
      BecomeDaemon allowed procs ⟨id, .child, fd⟩ [⟨id, .failed, fd⟩]
  | forkAgain {id : ℤ} {fd : Option ℕ} :
      BecomeDaemon allowed procs ⟨id, .leader, fd⟩ [⟨id, .middle, fd⟩, ⟨id, .detached, fd⟩]
  | noForkAgain {id : ℤ} {fd : Option ℕ} :
      BecomeDaemon allowed procs ⟨id, .leader, fd⟩ [⟨id, .failed, fd⟩]
  /-- All descriptors are closed but those of the log and of the lock. -/
  | close {id : ℤ} {fd : Option ℕ} :
      BecomeDaemon allowed procs ⟨id, .detached, fd⟩ [⟨id, .reopening 0, fd⟩]
  | reopen {id : ℤ} {fd : Option ℕ} {n : Fin 3} :
      BecomeDaemon allowed procs ⟨id, .reopening n, fd⟩
        [⟨id, if n = 2 then .daemon else .reopening (n + 1), replaced n fd⟩]
  /-- `STDIN_FILENO` is closed before it is opened, the others are left as they are. -/
  | noReopen {id : ℤ} {fd : Option ℕ} {n : Fin 3} :
      BecomeDaemon allowed procs ⟨id, .reopening n, fd⟩
        [⟨id, .failed, if n = 0 then replaced 0 fd else fd⟩]
  | exit {p : AdapterProcess} : BecomeDaemon allowed procs p []

/-- Launches of the adapter for any devices at any times. -/
def launches (allowed : ℕ → Prop) : Processes AdapterProcess where
  fresh p := ∃ id : ℤ, 0 ≤ id ∧ id < 2 ^ 31 ∧ p = ⟨id, .started, none⟩
  leaves := BecomeDaemon allowed

/-! ### One process on the way -/

/-- The process has the lock and becomes the daemon, or is it. -/
def LaunchPhase.serves : LaunchPhase → Bool
  | .locked => true
  | .child => true
  | .leader => true
  | .detached => true
  | .reopening _ => true
  | .daemon => true
  | _ => false

namespace AdapterProcess

def serving (p : AdapterProcess) : Option ℤ := if p.phase.serves then some p.deviceId else none

def daemonOf (p : AdapterProcess) : Option ℤ := if p.phase = .daemon then some p.deviceId else none

/-- It keeps its descriptor when the standard ones are opened. -/
def KeepsLock (p : AdapterProcess) : Prop := p.phase.serves = true → ∃ fd, p.lockFd = some fd ∧ 2 < fd

theorem serving_eq_some {p : AdapterProcess} {id : ℤ} (h : p.serving = some id) :
    p.phase.serves = true ∧ p.deviceId = id := by
  unfold serving at h
  split at h
  next hserves => exact ⟨hserves, Option.some.inj h⟩
  next => cases h

end AdapterProcess

theorem replaced_some {n fd : ℕ} (h : n ≠ fd) : replaced n (some fd) = some fd := by
  simp [replaced, Option.filter, Ne.symm h]

section Exclusive

variable {allowed : ℕ → Prop} {procs : List AdapterProcess}

theorem becomeDaemon_keepsLock (hallowed : ∀ fd, allowed fd → 2 < fd) {p : AdapterProcess}
    {left : List AdapterProcess} (h : BecomeDaemon allowed procs p left) (hp : p.KeepsLock) :
    ∀ q ∈ left, q.KeepsLock := by
  intro q hq
  cases h with
  | noSocket | refused | noFork | noSetsid | noForkAgain | noReopen =>
    rw [List.mem_singleton.mp hq]
    exact fun h => nomatch h
  | lock hfd =>
    rw [List.mem_singleton.mp hq]
    exact fun _ => ⟨_, rfl, hallowed _ hfd⟩
  | fork | forkAgain =>
    simp only [List.mem_cons, List.not_mem_nil, or_false] at hq
    rcases hq with rfl | rfl
    · exact fun h => nomatch h
    · exact fun _ => hp rfl
  | setsid | close =>
    rw [List.mem_singleton.mp hq]
    exact fun _ => hp rfl
  | @reopen id lockFd n =>
    rw [List.mem_singleton.mp hq]
    obtain ⟨fd, hfd, hlt⟩ := hp rfl
    obtain rfl : lockFd = some fd := hfd
    refine fun _ => ⟨fd, replaced_some ?_, hlt⟩
    omega
  | exit => cases hq

theorem becomeDaemon_hands {p : AdapterProcess} {left : List AdapterProcess}
    (hprocs : ∀ q ∈ procs, q.KeepsLock) (h : BecomeDaemon allowed procs p left) :
    Processes.Hands AdapterProcess.serving procs p left := by
  cases h with
  | noSocket | refused | noFork | noSetsid | noForkAgain | noReopen | exit => exact .drops rfl
  | @lock id fd hfd hfree =>
    refine .takes id rfl fun q hq hserving => ?_
    obtain ⟨hserves, rfl⟩ := AdapterProcess.serving_eq_some hserving
    obtain ⟨fd, hfd, -⟩ := hprocs q hq hserves
    exact hfree ⟨q, hq, by rw [hfd]; rfl, rfl⟩
  | fork | forkAgain | setsid | close => exact .keeps rfl
  | @reopen id lockFd n => fin_cases n <;> exact .keeps rfl

theorem serving_nodup (hallowed : ∀ fd, allowed fd → 2 < fd)
    (h : (launches allowed).system.Reachable procs) :
    (procs.filterMap AdapterProcess.serving).Nodup := by
  have hgood (procs) (h : (launches allowed).system.Reachable procs) : ∀ p ∈ procs, p.KeepsLock := by
    refine Processes.forall_reachable (fun p hp => ?_)
      (fun _ _ _ hleft hp => becomeDaemon_keepsLock hallowed hleft hp) h
    obtain ⟨id, -, -, rfl⟩ := hp
    exact fun h => nomatch h
  refine Processes.nodup_claims hgood (fun p hp => ?_)
    (fun procs p left hgood hp => becomeDaemon_hands hgood hp) h
  obtain ⟨id, -, -, rfl⟩ := hp
  rfl

theorem daemonOf_sublist (procs : List AdapterProcess) :
    (procs.filterMap AdapterProcess.daemonOf).Sublist (procs.filterMap AdapterProcess.serving) := by
  induction procs with
  | nil => exact .slnil
  | cons p procs ih =>
    have hserving (hp : p.phase = .daemon) : p.serving = some p.deviceId := by
      simp [AdapterProcess.serving, hp, LaunchPhase.serves]
    by_cases hp : p.phase = .daemon
    · rw [List.filterMap_cons_some (hserving hp), List.filterMap_cons_some (b := p.deviceId)
        (by simp [AdapterProcess.daemonOf, hp])]
      exact ih.cons_cons _
    · rw [List.filterMap_cons_none (by simp [AdapterProcess.daemonOf, hp])]
      cases hs : p.serving with
      | none => rwa [List.filterMap_cons_none hs]
      | some id =>
        rw [List.filterMap_cons_some hs]
        exact ih.cons id

/-! ### A descriptor that is closed on the way -/

theorem reaches_last {p : AdapterProcess} {left : List AdapterProcess}
    (h : (launches allowed).system.Reachable (procs ++ [p]))
    (hp : BecomeDaemon allowed (procs ++ [p]) p left) :
    (launches allowed).system.Reachable (procs ++ left) := by
  have hstep := h.step (Processes.Step.run (P := launches allowed) hp)
  rwa [List.append_nil] at hstep

/-- The first of the two processes of a fork ends. -/
theorem reaches_child {p q : AdapterProcess}
    (h : (launches allowed).system.Reachable (procs ++ [p, q])) :
    (launches allowed).system.Reachable (procs ++ [q]) := by
  have hexit : BecomeDaemon allowed (procs ++ p :: [q]) p [] := .exit
  have hstep := h.step (Processes.Step.run (P := launches allowed) hexit)
  rwa [List.append_nil] at hstep

/-- A launch that nothing disturbs. -/
theorem reaches_daemon {fd : ℕ} (hfd : allowed fd) {id : ℤ} (hid : 0 ≤ id ∧ id < 2 ^ 31)
    (hfree : ¬AddressInUse procs id) (h : (launches allowed).system.Reachable procs) :
    (launches allowed).system.Reachable
      (procs ++ [⟨id, .daemon, replaced 2 (replaced 1 (replaced 0 (some fd)))⟩]) := by
  have hstarted : (launches allowed).system.Reachable (procs ++ [⟨id, .started, none⟩]) :=
    h.step (.start ⟨id, hid.1, hid.2, rfl⟩)
  have hunused : ¬AddressInUse (procs ++ [⟨id, .started, none⟩]) id := by
    rintro ⟨q, hq, hlock, haddress⟩
    rcases List.mem_append.mp hq with hq | hq
    · exact hfree ⟨q, hq, hlock, haddress⟩
    · rw [List.mem_singleton.mp hq] at hlock
      cases hlock
  have hlocked := reaches_last hstarted (.lock hfd hunused)
  have hchild := reaches_child (reaches_last hlocked .fork)
  have hleader := reaches_last hchild .setsid
  have hdetached := reaches_child (reaches_last hleader .forkAgain)
  have hclosed := reaches_last hdetached .close
  exact reaches_last (reaches_last (reaches_last hclosed .reopen) .reopen) .reopen

theorem replaced_standard {fd : ℕ} (h : fd ≤ 2) :
    replaced 2 (replaced 1 (replaced 0 (some fd))) = none := by
  interval_cases fd <;> rfl

/-- Whatever is launched for whatever devices, whichever processes fail to fork or die and in whatever
order they run, a device never has two daemons, if and only if no launch gets one of the standard
descriptors for its lock. -/
theorem daemons_exclusive_iff (allowed : ℕ → Prop) :
    (∀ procs, (launches allowed).system.Reachable procs →
        (procs.filterMap AdapterProcess.daemonOf).Nodup) ↔
      ∀ fd, allowed fd → 2 < fd := by
  constructor
  · intro h fd hfd
    by_contra hle
    have hid : (0 : ℤ) ≤ 1 ∧ (1 : ℤ) < 2 ^ 31 := by decide
    have hfirst := reaches_daemon hfd hid (fun ⟨_, hq, _⟩ => nomatch hq) (.init rfl)
    rw [replaced_standard (by omega)] at hfirst
    have hsecond := reaches_daemon hfd hid (fun ⟨q, hq, hlock, _⟩ => by
      rw [List.mem_singleton.mp hq] at hlock
      cases hlock) hfirst
    rw [replaced_standard (by omega)] at hsecond
    exact absurd (h _ hsecond) (by decide)
  · intro hallowed procs h
    exact (serving_nodup hallowed h).sublist (daemonOf_sublist procs)

end Exclusive

end Ritex
