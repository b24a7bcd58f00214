import Ritex.ReadPacket
import Ritex.Requests
import Ritex.Transition

/-! The own bytes and those of the station on the line, over runs of `WritePacket` and `ReadPacket`:
which of them the echo cancellation removes, and which it lets through. -/
namespace Ritex
open Interaction Transition

inductive Origin
  | echo
  | station
  deriving DecidableEq

abbrev LineByte := Origin × Byte

/-- The port, with the origin of the bytes on the line and an account of the bytes that were read. -/
structure Wire where
  echoFifo : List Byte
  line : List LineByte
  polls : List Poll
  cancelled : List LineByte
  passed : List LineByte
  mismatched : List LineByte

namespace Wire

def port (s : Wire) : Port := ⟨s.echoFifo, s.line.map Prod.snd, s.polls⟩

/-- `cancelEcho`; a mismatch names the byte. -/
def cancel : ℕ → List Byte → List LineByte → Except (Option LineByte) (List Byte × List LineByte)
  | 0, fifo, buffer => .ok (fifo, buffer)
  | _ + 1, [], buffer => .ok ([], buffer)
  | n + 1, echo :: fifo, buffer =>
    if buffer.getLast?.map Prod.snd = some echo then cancel n fifo buffer.dropLast
    else .error buffer.getLast?

/-- `readLoop` with the account. -/
def loop (length : ℕ) : List Poll → Wire → List LineByte → Option (ReadResult length) × Wire
  | [], s, _ => (none, { s with polls := [] })
  | .timeout :: polls, s, _ => (some (.error .timeout), { s with polls := polls })
  | .selectFailed :: polls, s, _ => (some (.error .other), { s with polls := polls })
  | .errorFd :: polls, s, _ => (some (.error .other), { s with polls := polls })
  | .failed :: polls, s, _ => (some (.error .other), { s with polls := polls })
  | .ready :: polls, s, buffer =>
    if h : (buffer.map Prod.snd).length = length then
      (some (.ok ⟨buffer.map Prod.snd, h⟩), { s with polls := polls })
    else loop length polls s buffer
  | .data count pending :: polls, s, buffer =>
    let chunk := s.line.take (min count (length - buffer.length))
    let line := s.line.drop chunk.length
    match cancel chunk.length s.echoFifo (buffer ++ chunk) with
    | .error byte => (some (.error .other), { s with
        echoFifo := [], line := line.drop pending, polls := polls
        mismatched := s.mismatched ++ byte.toList })
    | .ok (fifo, rest) =>
      let s := { s with
        echoFifo := fifo, line := line
        cancelled := s.cancelled ++ (buffer ++ chunk).drop rest.length
        passed := s.passed ++ rest.drop buffer.length }
      if h : (rest.map Prod.snd).length = length then
        (some (.ok ⟨rest.map Prod.snd, h⟩), { s with polls := polls })
      else loop length polls s rest

def read (length : ℕ) (s : Wire) : Option (ReadResult length) × Wire := loop length s.polls s []

/-- `WritePacket`, and the echo of what `write()` accepts; -1 is `none`. -/
def writePacket (s : Wire) (packet : DataPacket) (ret : Option ℕ) : Wire :=
  { s with
    echoFifo := s.echoFifo ++ packet.createRawPacket
    line := s.line ++ (packet.createRawPacket.take (ret.getD 0)).map fun b => (.echo, b) }

def sends (s : Wire) (bytes : List Byte) : Wire :=
  { s with line := s.line ++ bytes.map fun b => (.station, b) }

def readPacket (s : Wire) (writeMode : BitVec 32) (now : ℤ) (fuel : ℕ) (polls : List Poll) :
    Option Received × Wire :=
  (Ritex.readPacket writeMode now fuel).eval read { s with polls := polls }

inductive Action
  | write (packet : DataPacket) (ret : Option ℕ)
  | send (bytes : List Byte)
  | read (writeMode : BitVec 32) (now : ℤ) (fuel : ℕ) (polls : List Poll)

/-- `write()` accepts no more than it is given, and `ReadPacket` has returned. -/
def act (s : Wire) : Action → Option Wire
  | .write packet ret =>
    if ret.getD 0 ≤ packet.createRawPacket.length then some (s.writePacket packet ret) else none
  | .send bytes => some (s.sends bytes)
  | .read writeMode now fuel polls =>
    match s.readPacket writeMode now fuel polls with
    | (some _, s') => some s'
    | (none, _) => none

/-- The port is opened before a byte is written or sent. -/
def initial : Wire := ⟨[], [], [], [], [], []⟩

/-- The cancellation removes the echo and nothing else, and stumbles over no byte of the station. -/
structure Exact (s : Wire) : Prop where
  cancelled : ∀ b ∈ s.cancelled, b.1 = .echo
  passed : ∀ b ∈ s.passed, b.1 = .station
  mismatched : ∀ b ∈ s.mismatched, b.1 = .echo

end Wire

def echoingPort : System Wire where
  init s := s = .initial
  step s s' := ∃ a, s.act a = some s'

/-- A packet is written whole, and no byte of the station is unread. -/
def Wire.Faithful (s : Wire) : Wire.Action → Prop
  | .write packet ret =>
    ret = some packet.createRawPacket.length ∧ ∀ b ∈ s.line, b.1 = .echo
  | _ => True

def faithfulPort : System Wire where
  init s := s = .initial
  step s s' := ∃ a, s.Faithful a ∧ s.act a = some s'

/-! ### The account and the port -/

namespace Wire

theorem cancel_map (n : ℕ) (fifo : List Byte) (buffer : List LineByte) :
    (cancel n fifo buffer).toOption.map (fun x => (x.1, x.2.map Prod.snd)) =
      cancelEcho n fifo (buffer.map Prod.snd) := by
  induction n generalizing fifo buffer with
  | zero => rfl
  | succ n ih =>
    cases fifo with
    | nil => rfl
    | cons echo fifo =>
      rw [cancel, cancelEcho, List.getLast?_map]
      split
      · rw [ih, List.map_dropLast]
      · rfl

theorem loop_port (length : ℕ) (polls : List Poll) (s : Wire) (buffer : List LineByte) :
    readLoop length polls s.echoFifo (s.line.map Prod.snd) (buffer.map Prod.snd) =
      ((loop length polls s buffer).1, (loop length polls s buffer).2.port) := by
  induction polls generalizing s buffer with
  | nil => rfl
  | cons poll polls ih =>
    cases poll with
    | timeout => rfl
    | selectFailed => rfl
    | errorFd => rfl
    | failed => rfl
    | ready =>
      rw [readLoop, loop]
      split
      · rfl
      · exact ih s buffer
    | data count pending =>
      rw [readLoop, loop]
      simp only [← List.map_take, ← List.map_drop, ← List.map_append, List.length_map]
      generalize s.line.take (min count (length - buffer.length)) = chunk
      have hmap := cancel_map chunk.length s.echoFifo (buffer ++ chunk)
      cases hcancel : cancel chunk.length s.echoFifo (buffer ++ chunk) with
      | error byte =>
        rw [hcancel] at hmap
        rw [← hmap]
        simp only [Except.toOption, Option.map_none, port, List.map_drop]
      | ok result =>
        obtain ⟨fifo, rest⟩ := result
        rw [hcancel] at hmap
        rw [← hmap]
        simp only [Except.toOption, Option.map_some, List.length_map]
        split
        · rfl
        · exact ih ⟨fifo, s.line.drop chunk.length, s.polls,
            s.cancelled ++ (buffer ++ chunk).drop rest.length,
            s.passed ++ rest.drop buffer.length, s.mismatched⟩ rest

theorem read_port (n : ℕ) (s : Wire) :
    Ritex.read n s.port = ((s.read n).1, (s.read n).2.port) :=
  loop_port n s.polls s []

/-- The account aside, `ReadPacket` does what it does on the port. -/
theorem readPacket_port (s : Wire) (writeMode : BitVec 32) (now : ℤ) (fuel : ℕ)
    (polls : List Poll) :
    (Ritex.readPacket writeMode now fuel).eval Ritex.read { s with polls := polls }.port =
      ((s.readPacket writeMode now fuel polls).1, (s.readPacket writeMode now fuel polls).2.port) :=
  Prog.eval_map (fun n s => read_port n s) _ _

/-! ### Writes that are accepted in full -/

def AllFrom (origin : Origin) (bytes : List LineByte) : Prop := ∀ b ∈ bytes, b.1 = origin

theorem AllFrom.append {origin : Origin} {bytes bytes' : List LineByte} (h : AllFrom origin bytes)
    (h' : AllFrom origin bytes') : AllFrom origin (bytes ++ bytes') := by
  intro b hb
  rcases List.mem_append.mp hb with hb | hb
  · exact h b hb
  · exact h' b hb

theorem allFrom_map (origin : Origin) (bytes : List Byte) :
    AllFrom origin (bytes.map fun b => (origin, b)) := by
  intro b hb
  obtain ⟨byte, -, rfl⟩ := List.mem_map.mp hb
  rfl

/-- No echo is on its way. -/
structure Drained (s : Wire) : Prop where
  echoFifo : s.echoFifo = []
  line : AllFrom .station s.line
  exact : Exact s

/-- The echo that is waited for comes next, and the station's bytes behind it. -/
structure InStep (s : Wire) : Prop where
  line : ∃ rest, s.line = s.echoFifo.map (fun b => (.echo, b)) ++ rest ∧ AllFrom .station rest
  exact : Exact s

theorem Drained.inStep {s : Wire} (h : Drained s) : InStep s :=
  ⟨⟨s.line, by simp [h.echoFifo], h.line⟩, h.exact⟩

theorem InStep.drained {s : Wire} (h : InStep s) (hfifo : s.echoFifo = []) : Drained s := by
  obtain ⟨rest, hline, hrest⟩ := h.line
  rw [hfifo, List.map_nil, List.nil_append] at hline
  exact ⟨hfifo, hline ▸ hrest, h.exact⟩

theorem Drained.polls {s : Wire} (h : Drained s) (polls : List Poll) :
    Drained { s with polls := polls } :=
  ⟨h.echoFifo, h.line, h.exact.cancelled, h.exact.passed, h.exact.mismatched⟩

theorem InStep.polls {s : Wire} (h : InStep s) (polls : List Poll) :
    InStep { s with polls := polls } :=
  ⟨h.line, h.exact.cancelled, h.exact.passed, h.exact.mismatched⟩

theorem cancel_nil (n : ℕ) (buffer : List LineByte) : cancel n [] buffer = .ok ([], buffer) := by
  cases n <;> rfl

theorem Drained.loop {s : Wire} (h : Drained s) (length : ℕ) (polls : List Poll)
    (buffer : List LineByte) : Drained (Wire.loop length polls s buffer).2 := by
  induction polls generalizing s buffer with
  | nil => exact h.polls []
  | cons poll polls ih =>
    cases poll with
    | timeout => exact h.polls polls
    | selectFailed => exact h.polls polls
    | errorFd => exact h.polls polls
    | failed => exact h.polls polls
    | ready =>
      rw [Wire.loop]
      split
      · exact h.polls polls
      · exact ih h buffer
    | data count pending =>
      rw [Wire.loop, h.echoFifo]
      simp only [cancel_nil]
      have hread : Drained { s with
          echoFifo := []
          line := s.line.drop (s.line.take (min count (length - buffer.length))).length
          cancelled := s.cancelled ++ (buffer ++ s.line.take (min count (length - buffer.length))).drop
            (buffer ++ s.line.take (min count (length - buffer.length))).length
          passed := s.passed ++
            (buffer ++ s.line.take (min count (length - buffer.length))).drop buffer.length } := by
        refine ⟨rfl, fun b hb => h.line b (List.mem_of_mem_drop hb), ?_, ?_, h.exact.mismatched⟩
        · rw [List.drop_length, List.append_nil]
          exact h.exact.cancelled
        · rw [List.drop_left]
          exact AllFrom.append h.exact.passed fun b hb => h.line b (List.mem_of_mem_take hb)
      split
      · exact hread.polls polls
      · exact ih hread _

theorem loop_one_zero (pending : ℕ) (polls : List Poll) (s : Wire) :
    loop 1 (.data 0 pending :: polls) s [] = loop 1 polls s [] := by
  simp [loop, cancel]

theorem loop_one_echo {s : Wire} {echo : Byte} {fifo : List Byte} {line : List LineByte}
    (hfifo : s.echoFifo = echo :: fifo) (hline : s.line = (.echo, echo) :: line)
    (count pending : ℕ) (polls : List Poll) :
    loop 1 (.data (count + 1) pending :: polls) s [] = loop 1 polls { s with
      echoFifo := fifo, line := line, cancelled := s.cancelled ++ [(.echo, echo)] } [] := by
  simp [loop, cancel, hfifo, hline]

/-- A single-byte read takes the echo off the line before it delivers a byte. -/
theorem InStep.loop_one {s : Wire} (h : InStep s) (polls : List Poll) :
    InStep (Wire.loop 1 polls s []).2 ∧
      ((Wire.loop 1 polls s []).2.echoFifo = [] ∨ ∀ b, (Wire.loop 1 polls s []).1 ≠ some (.ok b)) := by
  induction polls generalizing s with
  | nil => exact ⟨h.polls [], .inr (by simp [Wire.loop])⟩
  | cons poll polls ih =>
    cases poll with
    | timeout => exact ⟨h.polls polls, .inr (by simp [Wire.loop])⟩
    | selectFailed => exact ⟨h.polls polls, .inr (by simp [Wire.loop])⟩
    | errorFd => exact ⟨h.polls polls, .inr (by simp [Wire.loop])⟩
    | failed => exact ⟨h.polls polls, .inr (by simp [Wire.loop])⟩
    | ready =>
      rw [Wire.loop, dif_neg (by simp)]
      exact ih h
    | data count pending =>
      cases hfifo : s.echoFifo with
      | nil =>
        have hdrained := (h.drained hfifo).loop 1 (.data count pending :: polls) []
        exact ⟨hdrained.inStep, .inl hdrained.echoFifo⟩
      | cons echo fifo =>
        obtain ⟨rest, hline, hrest⟩ := h.line
        rw [hfifo, List.map_cons, List.cons_append] at hline
        cases count with
        | zero =>
          rw [loop_one_zero]
          exact ih h
        | succ count =>
          rw [loop_one_echo hfifo hline]
          refine ih ⟨⟨rest, rfl, hrest⟩, ?_, h.exact.passed, h.exact.mismatched⟩
          exact AllFrom.append h.exact.cancelled (by simp [AllFrom])

/-- `ReadPacket` reads a single byte first, and returns if that fails. -/
theorem readPacket_first (writeMode : BitVec 32) (now : ℤ) (fuel : ℕ) :
    ∃ k, Ritex.readPacket writeMode now (fuel + 1) = .op 1 k ∧
      ∀ e, k (.error e) = .ret (none, e.code) :=
  ⟨_, by
    rw [Ritex.readPacket, skipToAddress, Prog.loop, skipRound, if_neg (by decide)]
    rfl, fun _ => rfl⟩

theorem InStep.readPacket {s : Wire} (h : InStep s) (writeMode : BitVec 32) (now : ℤ) (fuel : ℕ)
    (polls : List Poll) : InStep (s.readPacket writeMode now fuel polls).2 := by
  cases fuel with
  | zero => exact h.polls polls
  | succ fuel =>
    obtain ⟨k, hk, herror⟩ := readPacket_first writeMode now fuel
    obtain ⟨hinStep, hfirst⟩ := (h.polls polls).loop_one polls
    unfold Wire.readPacket
    rw [hk]
    rcases hr : read 1 { s with polls := polls } with ⟨r, s'⟩
    have hread : loop 1 polls { s with polls := polls } [] = (r, s') := hr
    rw [hread] at hinStep hfirst
    cases r with
    | none =>
      rw [Prog.eval_op_none hr]
      exact hinStep
    | some r =>
      rw [Prog.eval_op_some hr]
      cases r with
      | error e =>
        rw [herror]
        exact hinStep
      | ok b =>
        have hempty : s'.echoFifo = [] := hfirst.resolve_right fun hne => hne b rfl
        exact (Prog.eval_invariant (J := Drained) (fun n s hs => hs.loop n s.polls []) _
          (hinStep.drained hempty)).inStep

theorem InStep.sends {s : Wire} (h : InStep s) (bytes : List Byte) : InStep (s.sends bytes) := by
  obtain ⟨rest, hline, hrest⟩ := h.line
  refine ⟨⟨rest ++ bytes.map fun b => (.station, b), ?_, hrest.append (allFrom_map _ _)⟩,
    h.exact.cancelled, h.exact.passed, h.exact.mismatched⟩
  rw [Wire.sends, hline, List.append_assoc]

theorem InStep.writePacket {s : Wire} (h : InStep s) {packet : DataPacket} {ret : Option ℕ}
    (hfaithful : s.Faithful (.write packet ret)) : InStep (s.writePacket packet ret) := by
  obtain ⟨haccepted, hread⟩ := hfaithful
  obtain ⟨rest, hline, hrest⟩ := h.line
  have hnone : rest = [] := by
    rw [List.eq_nil_iff_forall_not_mem]
    intro b hb
    have hecho := hread b (by rw [hline]; exact List.mem_append_right _ hb)
    rw [hrest b hb] at hecho
    cases hecho
  refine ⟨⟨[], ?_, by simp [AllFrom]⟩, h.exact.cancelled, h.exact.passed, h.exact.mismatched⟩
  simp [Wire.writePacket, hline, hnone, haccepted]

theorem act_write (s : Wire) {packet : DataPacket} {ret : Option ℕ}
    (h : ret.getD 0 ≤ packet.createRawPacket.length) :
    s.act (.write packet ret) = some (s.writePacket packet ret) :=
  if_pos h

theorem act_read {s s' : Wire} {writeMode : BitVec 32} {now : ℤ} {fuel : ℕ} {polls : List Poll}
    (h : s.act (.read writeMode now fuel polls) = some s') :
    s' = (s.readPacket writeMode now fuel polls).2 := by
  rw [act] at h
  split at h
  next heq =>
    rw [heq]
    exact (Option.some.inj h).symm
  next => cases h

theorem InStep.act {s s' : Wire} (h : InStep s) {a : Action} (hfaithful : s.Faithful a)
    (ha : s.act a = some s') : InStep s' := by
  cases a with
  | write packet ret =>
    obtain ⟨-, hs'⟩ := Option.ite_none_right_eq_some.mp ha
    exact Option.some.inj hs' ▸ h.writePacket hfaithful
  | send bytes =>
    cases ha
    exact h.sends bytes
  | read writeMode now fuel polls =>
    rw [act_read ha]
    exact h.readPacket writeMode now fuel polls

theorem inStep_initial : InStep .initial :=
  ⟨⟨[], rfl, by simp [AllFrom]⟩, by simp [initial], by simp [initial], by simp [initial]⟩

end Wire

theorem faithfulPort_inStep : faithfulPort.Invariant Wire.InStep where
  init := by
    rintro s rfl
    exact Wire.inStep_initial
  step := by
    rintro s s' h ⟨a, hfaithful, ha⟩
    exact h.act hfaithful ha

/-- If every packet is written whole on a line that has been read, the echo cancellation takes the
echo and nothing else, also within a call of `ReadPacket`. -/
theorem echo_exact {s : Wire} (h : faithfulPort.Reachable s) :
    s.Exact ∧ ∀ writeMode now fuel polls, (s.readPacket writeMode now fuel polls).2.Exact := by
  have hinStep := faithfulPort_inStep.reachable h
  exact ⟨hinStep.exact, fun writeMode now fuel polls =>
    (hinStep.readPacket writeMode now fuel polls).exact⟩

/-- The first byte of an answer comes behind the echo of a request. -/
theorem echo_exact_answered : ∃ s : Wire, s.line.length = 7 ∧ s.Exact ∧
    ∀ writeMode now fuel polls, (s.readPacket writeMode now fuel polls).2.Exact := by
  have hwrite : faithfulPort.Reachable (Wire.initial.writePacket (getAllSettingsPacket 0) (some 6)) :=
    .step (.init rfl) ⟨.write (getAllSettingsPacket 0) (some 6), ⟨by decide, by simp [Wire.initial]⟩,
      Wire.act_write _ (by decide)⟩
  have hsend := System.Reachable.step hwrite ⟨.send [0x36], trivial, rfl⟩
  exact ⟨_, by decide, echo_exact hsend⟩

/-- No byte of a request is accepted, and the first byte of the station is taken for its echo. -/
theorem echo_exact_false : ¬∀ s : Wire, echoingPort.Reachable s → s.Exact := by
  intro hall
  have hwrite : echoingPort.Reachable (Wire.initial.writePacket (getAllSettingsPacket 0) none) :=
    .step (.init rfl) ⟨.write (getAllSettingsPacket 0) none, Wire.act_write _ (by decide)⟩
  have hsend := System.Reachable.step hwrite ⟨.send [0x36], rfl⟩
  obtain ⟨s, hs, hcancelled⟩ := Option.map_eq_some_iff.mp (show (((Wire.initial.writePacket
    (getAllSettingsPacket 0) none).sends [0x36]).act (.read 0 0 1 [.data 1 0, .timeout])).map
      Wire.cancelled = some [(.station, 0x36)] by decide +kernel)
  have hexact := (hall s (hsend.step ⟨_, hs⟩)).cancelled (.station, 0x36) (by simp [hcancelled])
  cases hexact

end Ritex
