import Ritex.QuietLine
import Ritex.Requests

/-! Reading back what `CreateRawPacket` wrote. -/
namespace Ritex
open Interaction

theorem HasCommandRow.accepted {p : DataPacket} (h : HasCommandRow p) :
    isLengthMatches (lsb p.cmd) (BitVec.ofNat 16 (p.data.length + 1)) = some .cmd := by
  obtain ⟨row, hmem, hcmd, hlen⟩ := h
  have hword : row.length = BitVec.ofNat 16 (p.data.length + 1) := by
    rw [← hlen, BitVec.ofNat_toNat, BitVec.setWidth_eq]
  have hrow : hasRow cmdParams maxCommandIndex (lsb p.cmd)
      (BitVec.ofNat 16 (p.data.length + 1)) = true := by
    rw [hasRow, maxCommandIndex, List.take_length, List.any_eq_true]
    exact ⟨row, hmem, by simp [hcmd, getCmd_eq, hword]⟩
  rw [isLengthMatches, hrow, if_pos rfl]

def commandFrame (p : DataPacket) (h : HasCommandRow p) : Frame where
  type := .cmd
  cmd := lsb p.cmd
  payload := p.data
  length_lt := by
    obtain ⟨row, -, -, hlen⟩ := h
    rw [← hlen]
    exact row.length.isLt
  accepted := h.accepted

theorem commandFrame_raw {p : DataPacket} (h : HasCommandRow p) (ha : p.address = ksuAddress) :
    (commandFrame p h).raw = p.createRawPacket := by
  simp [Frame.raw, DataPacket.createRawPacket, DataPacket.size, commandFrame, ha]

/-- Decoding undoes encoding: behind noise without an address byte, a packet with a row in the
command table is read back from its raw bytes, and what follows stays unread. Every packet that
the adapter builds has such a row. -/
theorem readPacket_createRawPacket :
    (∀ (p : DataPacket), p.address = ksuAddress → HasCommandRow p →
      ∀ (noise suffix : List Byte), ksuAddress ∉ noise →
      ∀ (polls : List Poll), (∀ q ∈ polls, q.Quiet) →
      noise.length + p.createRawPacket.length ≤ dataPolls polls →
      ∀ (writeMode : BitVec 32) (now : ℤ) (fuel : ℕ), noise.length + 2 ≤ fuel →
      ∃ (q : DataPacket) (port : Port),
        (readPacket writeMode now fuel).eval read
            ⟨[], noise ++ p.createRawPacket ++ suffix, polls⟩ =
          (some (some q, .noError), port) ∧
        q.type = .cmd ∧ q.address = p.address ∧ getCmd q.cmd = getCmd p.cmd ∧
        q.size = p.size ∧ q.data = p.data ∧ port.incoming = suffix) ∧
    ∀ p, AdapterBuilt p → p.address = ksuAddress ∧ HasCommandRow p := by
  refine ⟨?_, fun p hp => ⟨hp.address, hp.hasCommandRow⟩⟩
  intro p ha hrow noise suffix hn polls hq hpolls writeMode now fuel hfuel
  have hplain := eval_readPacket_of_frame (commandFrame p hrow) hn suffix writeMode now hfuel
  rw [commandFrame_raw hrow ha] at hplain
  obtain ⟨port, hport, hi⟩ := eval_quiet_returns (readPacket_only writeMode now fuel)
    (p := ⟨[], noise ++ p.createRawPacket ++ suffix, polls⟩) ⟨rfl, hq⟩ hplain
    (by simp only [List.length_append]; omega)
  refine ⟨_, port, hport, rfl, ha.symm, ?_, rfl, rfl, hi⟩
  simp only [Frame.packet, commandFrame, getCmd_eq, lsb_longCmd]

/-- The password request behind two bytes of noise. -/
theorem readPacket_createRawPacket_passwords :
    ∃ (q : DataPacket) (port : Port),
      (readPacket 0 0 4).eval read
          ⟨[], [0x6C, 0x00] ++ (getPasswordsPacket 0).createRawPacket ++ [0x0B],
            .ready :: List.replicate 8 (.data 3 0)⟩ = (some (some q, .noError), port) ∧
      q.type = .cmd ∧ q.address = ksuAddress ∧ getCmd q.cmd = reqPasswordGet ∧ q.size = 0 ∧
      q.data = [] ∧ port.incoming = [0x0B] :=
  readPacket_createRawPacket.1 (getPasswordsPacket 0) rfl
    (AdapterBuilt.getPasswords 0).hasCommandRow [0x6C, 0x00] [0x0B] (by decide) _ (by decide)
    (by decide) 0 0 4 (by decide)

end Ritex
