import Ritex.Monitor
import Ritex.Reports

/-! The faults that the device reports are the changes of the code in the packets: no fault, no
change of a fault and no recovery is missed or told twice. -/
namespace Ritex
open Monitor

/-- A packet with the bytes that lie behind its payload. -/
structure CheckedPacket where
  packet : DataPacket
  beyond : ℕ → Byte

def CheckedPacket.memory (p : CheckedPacket) : ℕ → Byte := p.packet.memory p.beyond

/-- Byte 1 of information; that of mode 1 is not looked at. -/
def CheckedPacket.faultCode (p : CheckedPacket) : Option Byte :=
  if p.packet.cmd ≠ ackInfoMode 1 ∧ getCmd p.packet.cmd = ackInfo then some (p.memory 1) else none

/-- The code before a packet, 0 before the first. -/
def lastFaultCode (before : List CheckedPacket) : Byte := (latest CheckedPacket.faultCode before).getD 0

/-- The report that the history of the codes asks for at a packet. -/
def faultReport (filter : ParameterFilter) (before : List CheckedPacket) (p : CheckedPacket) :
    Option DBEventCommon :=
  match p.faultCode with
  | some code =>
    if code = lastFaultCode before then none
    else some (reportFault filter code.toNat p.packet.timestamp)
  | none => none

namespace FaultState

/-- `m_isInFault` and `m_faultCode` of a processor that is made. -/
def fresh : FaultState := ⟨false, -1⟩

def check (filter : ParameterFilter) (s : FaultState) (p : CheckedPacket) :
    FaultState × Option DBEventCommon :=
  (checkAndReportFault filter s p.packet).value p.memory

/-- The device is in fault if the last code is one, and `m_faultCode` is that code. -/
def Knows (before : List CheckedPacket) (s : FaultState) : Prop :=
  (s.isInFault = true ↔ lastFaultCode before ≠ 0) ∧
    (s.isInFault = true → s.faultCode = (lastFaultCode before).toNat)

variable {filter : ParameterFilter} {before : List CheckedPacket} {s : FaultState} {p : CheckedPacket}

theorem check_of_none (h : p.faultCode = none) : s.check filter p = (s, none) := by
  rw [CheckedPacket.faultCode] at h
  rw [check, checkAndReportFault]
  by_cases hmode : p.packet.cmd = ackInfoMode 1
  · rw [if_pos hmode]
    rfl
  · by_cases hinfo : getCmd p.packet.cmd = ackInfo
    · simp [hmode, hinfo] at h
    · rw [if_neg hmode, if_neg hinfo]
      rfl

theorem check_of_some {code : Byte} (h : p.faultCode = some code) :
    s.check filter p = s.next filter code.toNat p.packet.timestamp := by
  rw [CheckedPacket.faultCode] at h
  split at h
  next hinfo =>
    rw [check, checkAndReportFault, if_neg hinfo.1, if_pos hinfo.2, ← Option.some.inj h]
    rfl
  next => cases h

theorem lastFaultCode_of_none (h : p.faultCode = none) :
    lastFaultCode (before ++ [p]) = lastFaultCode before := by
  rw [lastFaultCode, latest_concat_none before h, lastFaultCode]

theorem lastFaultCode_of_some {code : Byte} (h : p.faultCode = some code) :
    lastFaultCode (before ++ [p]) = code := by
  rw [lastFaultCode, latest_concat_some before h, Option.getD_some]

theorem knows_fresh : Knows [] fresh := by
  simp [Knows, fresh, lastFaultCode]

theorem byte_pos_iff (code : Byte) : (code.toNat : ℤ) > 0 ↔ code ≠ 0 := by
  have hzero : (0 : Byte).toNat = 0 := rfl
  rw [ne_eq, ← BitVec.toNat_inj, hzero]
  omega

theorem byte_cast_inj (code code' : Byte) : (code.toNat : ℤ) = code'.toNat ↔ code = code' := by
  rw [Nat.cast_inj, BitVec.toNat_inj]

theorem Knows.next_same (h : Knows before s) (timestamp : ℤ) :
    s.next filter (lastFaultCode before).toNat timestamp = (s, none) := by
  obtain ⟨hfault, hcode⟩ := h
  cases hin : s.isInFault with
  | false =>
    have hzero : lastFaultCode before = 0 := by simpa [hin] using hfault
    simp [next, hin, hzero]
  | true =>
    have hne : lastFaultCode before ≠ 0 := hfault.mp hin
    have hpos := (byte_pos_iff _).mpr hne
    rw [next, if_neg (by simp [hin]), if_neg (by omega), hcode hin, if_neg (by simp)]

theorem Knows.next_other (h : Knows before s) {code : Byte} (hne : code ≠ lastFaultCode before)
    (timestamp : ℤ) : s.next filter code.toNat timestamp =
      (⟨decide (code ≠ 0), code.toNat⟩, some (reportFault filter code.toNat timestamp)) := by
  obtain ⟨hfault, hcode⟩ := h
  cases hin : s.isInFault with
  | false =>
    have hzero : lastFaultCode before = 0 := by simpa [hin] using hfault
    have hpos := (byte_pos_iff code).mpr (hzero ▸ hne)
    rw [next, if_pos (by simp [hin]), if_pos hpos, decide_eq_true (hzero ▸ hne)]
  | true =>
    rw [next, if_neg (by simp [hin])]
    by_cases hcleared : code = 0
    · subst hcleared
      rfl
    · have hpos := (byte_pos_iff code).mpr hcleared
      have hchanged : (code.toNat : ℤ) ≠ s.faultCode := by
        rw [hcode hin, ne_eq, byte_cast_inj]
        exact hne
      rw [if_neg (by omega), if_pos hchanged, decide_eq_true hcleared]

theorem Knows.check (h : Knows before s) (p : CheckedPacket) :
    Knows (before ++ [p]) (s.check filter p).1 ∧ (s.check filter p).2 = faultReport filter before p := by
  cases hcode : p.faultCode with
  | none =>
    rw [check_of_none hcode, Knows, lastFaultCode_of_none hcode, faultReport, hcode]
    exact ⟨h, rfl⟩
  | some code =>
    rw [check_of_some hcode, Knows, lastFaultCode_of_some hcode, faultReport, hcode]
    by_cases hsame : code = lastFaultCode before
    · subst hsame
      rw [h.next_same]
      exact ⟨h, by simp⟩
    · rw [h.next_other hsame]
      simp [hsame]

theorem check_explains (filter : ParameterFilter) :
    Explains (FaultState.check filter) Knows (faultReport filter) where
  state _ _ p h := (h.check p).1
  answer _ _ p h := (h.check p).2

end FaultState

/-- The faults reported of a fresh processor are the changes of the code, each with the code and the
timestamp of its packet, and its members always show the last code. -/
theorem fault_history (filter : ParameterFilter) (packets : List CheckedPacket) :
    (run (FaultState.check filter) FaultState.fresh packets).2 =
        packets.mapIdx (fun i p => faultReport filter (packets.take i) p) ∧
      ((run (FaultState.check filter) FaultState.fresh packets).1.isInFault = true ↔
        lastFaultCode packets ≠ 0) ∧
      ((run (FaultState.check filter) FaultState.fresh packets).1.isInFault = true →
        (run (FaultState.check filter) FaultState.fresh packets).1.faultCode =
          (lastFaultCode packets).toNat) := by
  have hexplains := FaultState.check_explains filter
  have hknows := hexplains.run_state FaultState.knows_fresh packets
  exact ⟨hexplains.run_answers FaultState.knows_fresh packets, hknows.1, hknows.2⟩

end Ritex
