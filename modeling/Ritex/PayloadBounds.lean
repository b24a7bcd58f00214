import Ritex.EchoTransparency
import Ritex.Replies

/-! Which bytes the consumers of a packet read. The length check looks at the command byte
alone, so an information frame may carry the length of another mode than its label says. -/
namespace Ritex
open Interaction

/-- Every byte that the consumers of a packet read lies inside its payload. The cycle through the
modes hands `ReportDataPacket` the packet with the mode of the cycle in its label. -/
structure ConsumersInside (filter : ParameterFilter) (writeMode : BitVec 32) (p : DataPacket) :
    Prop where
  data : (reportDataPacket (createOffsetTable filter) p).Inside p.data.length
  cycle : ∀ i ∈ [1, 2, 3, 4, 5, 6, 7],
    (reportDataPacket (createOffsetTable filter)
      (p.setCmdMode (BitVec.ofInt 16 (cycleMode writeMode i)))).Inside p.data.length
  time : ∀ mktime limit isReported now,
    (checkAndReportTimeDiviation mktime filter limit isReported now p).Inside p.data.length
  fault : ∀ s, (checkAndReportFault filter s p).Inside p.data.length
  reply : (testDeviceReply p).Inside p.data.length

/-! ### The consumers one by one -/

theorem entryValue_inside_iff {entry : OffsetTableEntry} (h : entry.size = 1 ∨ entry.size = 2)
    (size : ℕ) : (entryValue entry).Inside size ↔ entry.offset + entry.size ≤ size := by
  rcases h with h | h
  · simp [PayloadReader.Inside, entryValue, h]
  · simp [PayloadReader.Inside, entryValue, h]
    omega

theorem reportDataPacket_inside_iff {table : List OffsetTableEntry}
    (ht : ∀ entry ∈ table, entry.size = 1 ∨ entry.size = 2) (p : DataPacket) (size : ℕ) :
    (reportDataPacket table p).Inside size ↔
      ∀ entry ∈ table, entry.cmd = p.cmd → entry.offset + entry.size ≤ size := by
  induction table with
  | nil => simp [PayloadReader.Inside, reportDataPacket]
  | cons entry table ih =>
    have ht' : ∀ entry ∈ table, entry.size = 1 ∨ entry.size = 2 :=
      fun e he => ht e (List.mem_cons_of_mem _ he)
    rw [reportDataPacket, List.forall_mem_cons, ← ih ht',
      ← entryValue_inside_iff (ht entry List.mem_cons_self)]
    split
    · rename_i hcmd
      simp only [PayloadReader.Inside, PayloadReader.reads_bind, PayloadReader.reads_pure,
        List.append_nil, List.mem_append, hcmd, forall_const]
      constructor
      · exact fun h => ⟨fun m i hi => h m i (.inl hi), fun m i hi => h m i (.inr hi)⟩
      · rintro ⟨h₁, h₂⟩ m i (hi | hi)
        · exact h₁ m i hi
        · exact h₂ m i hi
    · rename_i hcmd
      simp [hcmd]

theorem checkAndReportTimeDiviation_inside_iff (mktime : Tm → ℤ) (filter : ParameterFilter)
    (limit : ℤ) (isReported : Bool) (now : ℤ) (p : DataPacket) (size : ℕ) :
    (checkAndReportTimeDiviation mktime filter limit isReported now p).Inside size ↔
      (p.cmd = ackInfoMode 0 → 25 ≤ size) := by
  rw [checkAndReportTimeDiviation]
  split
  · rename_i h
    simp [PayloadReader.Inside, h]
    omega
  · rename_i h
    simp [PayloadReader.Inside, h]

theorem checkAndReportFault_inside (filter : ParameterFilter) (s : FaultState) (p : DataPacket)
    {size : ℕ} (h : getCmd p.cmd = ackInfo → 2 ≤ size) :
    (checkAndReportFault filter s p).Inside size := by
  rw [checkAndReportFault]
  split
  · simp [PayloadReader.Inside]
  · split
    · rename_i hinfo
      have := h hinfo
      simp [PayloadReader.Inside, vdStatusOffset]
      omega
    · simp [PayloadReader.Inside]

theorem testDeviceReply_inside_iff (p : DataPacket) (size : ℕ) :
    (testDeviceReply p).Inside size ↔ (p.cmd = ackInfoMode 0 → 35 ≤ size) := by
  rw [testDeviceReply]
  split
  · rename_i h
    simp [PayloadReader.Inside, h]
    omega
  · rename_i h
    simp [PayloadReader.Inside, h]

/-! ### Accepted frames -/

def infoByte : Byte := lsb ackInfo

/-- The labels under which `ReportDataPacket` may get an information frame. -/
def infoLabels (writeMode : BitVec 32) : List Word :=
  longCmd writeMode infoByte :: [1, 2, 3, 4, 5, 6, 7].map fun i =>
    longCmd writeMode infoByte ||| (BitVec.ofInt 16 (cycleMode writeMode i) &&& 0xFF) <<< 8

/-- The least length field with which an information frame holds every byte that is read of it:
the operating time ends at byte 35, a channel of the filter where its entry says. -/
def lengthNeeded (filter : ParameterFilter) (writeMode : BitVec 32) : ℕ :=
  (((createOffsetTable filter).filter fun entry => entry.cmd ∈ infoLabels writeMode).map
    fun entry => entry.offset + entry.size + 1).foldr max
      (if longCmd writeMode infoByte = ackInfoMode 0 then 36 else 0)

theorem lengthNeeded_le_iff (filter : ParameterFilter) (writeMode : BitVec 32) (n : ℕ) :
    lengthNeeded filter writeMode ≤ n ↔ (longCmd writeMode infoByte = ackInfoMode 0 → 36 ≤ n) ∧
      ∀ entry ∈ createOffsetTable filter, entry.cmd ∈ infoLabels writeMode →
        entry.offset + entry.size + 1 ≤ n := by
  rw [lengthNeeded]
  induction createOffsetTable filter with
  | nil => by_cases h : longCmd writeMode infoByte = ackInfoMode 0 <;> simp [h]
  | cons entry table ih =>
    by_cases h : entry.cmd ∈ infoLabels writeMode
    · rw [List.filter_cons_of_pos (by simpa using h), List.map_cons, List.foldr_cons, max_le_iff,
        ih, List.forall_mem_cons]
      simp only [h, forall_const]
      exact and_left_comm
    · rw [List.filter_cons_of_neg (by simpa using h), ih, List.forall_mem_cons]
      simp [h]

theorem infoFrame_length {f : Frame} (h : f.cmd = infoByte) : 5 ≤ f.payload.length + 1 := by
  obtain ⟨row, hrow, hcmd, hlength⟩ := f.exists_row
  have hlong : ∀ row ∈ cmdParams ++ ackParams,
      getCmd row.cmd = infoByte.setWidth 16 → 5 ≤ row.length.toNat := by decide
  rw [h] at hcmd
  rw [← hlength]
  exact hlong row hrow hcmd

theorem lsb_setCmdMode (p : DataPacket) (mode : Word) :
    lsb (p.setCmdMode mode).cmd = lsb p.cmd := by
  apply BitVec.eq_of_getLsbD_eq
  intro i hi
  simp only [DataPacket.setCmdMode, lsb, BitVec.getLsbD_setWidth, BitVec.getLsbD_or,
    BitVec.getLsbD_shiftLeft]
  grind

/-- Every channel of the station is sent in an information packet. -/
theorem lsb_entry_cmd {filter : ParameterFilter} {entry : OffsetTableEntry}
    (h : entry ∈ createOffsetTable filter) : lsb entry.cmd = infoByte := by
  obtain ⟨param, hmem, hdata⟩ := mem_createOffsetTable h
  obtain ⟨-, row, hrow, hcmd, -⟩ := sensorChannels_controllerData param hmem _ hdata
  have hlsb : ∀ row ∈ channelsEnd, lsb (ackInfoMode row.1) = infoByte := by decide
  exact (congrArg lsb hcmd).trans (hlsb row hrow)

section Frames

variable (filter : ParameterFilter) (f : Frame) (writeMode : BitVec 32) (now : ℤ)

/-- `ReportDataPacket` stays inside an information frame, in traffic and in the cycle, exactly if
every channel of its labels ends in the payload. -/
theorem channelsInside_iff (hinfo : f.cmd = infoByte) :
    ((reportDataPacket (createOffsetTable filter) (f.packet writeMode now)).Inside
        f.payload.length ∧
      ∀ i ∈ [1, 2, 3, 4, 5, 6, 7], (reportDataPacket (createOffsetTable filter)
        ((f.packet writeMode now).setCmdMode (BitVec.ofInt 16 (cycleMode writeMode i)))).Inside
          f.payload.length) ↔
      ∀ entry ∈ createOffsetTable filter, entry.cmd ∈ infoLabels writeMode →
        entry.offset + entry.size ≤ f.payload.length := by
  have hsize : ∀ entry ∈ createOffsetTable filter, entry.size = 1 ∨ entry.size = 2 :=
    fun entry h => entry_size h
  have hlabel : (f.packet writeMode now).cmd = longCmd writeMode infoByte := by
    rw [← hinfo]
    rfl
  simp only [reportDataPacket_inside_iff hsize, DataPacket.setCmdMode, hlabel]
  constructor
  · rintro ⟨hown, hcycle⟩ entry he hmem
    rcases List.mem_cons.mp hmem with hc | hc
    · exact hown entry he hc
    · obtain ⟨i, hi, hc⟩ := List.mem_map.mp hc
      exact hcycle i hi entry he hc.symm
  · intro h
    constructor
    · exact fun entry he hc => h entry he (List.mem_cons.mpr (.inl hc))
    · exact fun i hi entry he hc =>
        h entry he (List.mem_cons.mpr (.inr (List.mem_map.mpr ⟨i, hi, hc.symm⟩)))

/-- Of a frame of another command `ReportDataPacket` reads nothing, whatever mode the label gets. -/
theorem reportDataPacket_inside_of_ne {p : DataPacket} (h : lsb p.cmd ≠ infoByte) (size : ℕ) :
    (reportDataPacket (createOffsetTable filter) p).Inside size := by
  rw [reportDataPacket_inside_iff fun entry he => entry_size he]
  intro entry he hc
  exact absurd (hc ▸ lsb_entry_cmd he) h

/-- The consumers of an accepted frame stay inside its payload exactly if an information frame
is as long as its labels need. -/
theorem consumersInside_frame_iff :
    ConsumersInside filter writeMode (f.packet writeMode now) ↔
      (f.cmd = infoByte → lengthNeeded filter writeMode ≤ f.payload.length + 1) := by
  have hdata : (f.packet writeMode now).data = f.payload := rfl
  have hlsb : lsb (f.packet writeMode now).cmd = f.cmd := lsb_longCmd writeMode f.cmd
  by_cases hinfo : f.cmd = infoByte
  · have hlabel : (f.packet writeMode now).cmd = longCmd writeMode infoByte := by
      rw [← hinfo]
      rfl
    have hchannels := channelsInside_iff filter f writeMode now hinfo
    simp only [hinfo, forall_const, lengthNeeded_le_iff]
    constructor
    · rintro ⟨hd, hcycle, -, -, hr⟩
      rw [testDeviceReply_inside_iff, hlabel] at hr
      exact ⟨fun h => Nat.succ_le_succ (hr h),
        fun e he hc => Nat.succ_le_succ (hchannels.mp ⟨hd, hcycle⟩ e he hc)⟩
    · rintro ⟨h0, htable⟩
      have hlen := infoFrame_length hinfo
      obtain ⟨hd, hcycle⟩ := hchannels.mpr fun e he hc => Nat.le_of_succ_le_succ (htable e he hc)
      refine ⟨hd, hcycle, fun mktime limit isReported t => ?_, fun s => ?_, ?_⟩
      · rw [checkAndReportTimeDiviation_inside_iff, hlabel, hdata]
        intro hc
        have := h0 hc
        omega
      · apply checkAndReportFault_inside
        rw [hdata]
        omega
      · rw [testDeviceReply_inside_iff, hlabel, hdata]
        exact fun hc => Nat.le_of_succ_le_succ (h0 hc)
  · have hother : lsb (f.packet writeMode now).cmd ≠ infoByte := hlsb ▸ hinfo
    have hne : ∀ label : Word, lsb label = infoByte → (f.packet writeMode now).cmd ≠ label := by
      rintro label hl rfl
      exact hother hl
    simp only [hinfo, false_imp_iff, iff_true]
    refine ⟨reportDataPacket_inside_of_ne filter hother _, fun i hi => ?_,
      fun mktime limit isReported t => ?_, fun s => ?_, ?_⟩
    · exact reportDataPacket_inside_of_ne filter ((lsb_setCmdMode _ _).symm ▸ hother) _
    · rw [checkAndReportTimeDiviation_inside_iff]
      exact fun hc => absurd hc (hne _ (by decide))
    · apply checkAndReportFault_inside
      intro hc
      rw [getCmd_eq] at hc
      have := congrArg lsb hc
      rw [lsb_setWidth] at this
      exact absurd this hother
    · rw [testDeviceReply_inside_iff]
      exact fun hc => absurd hc (hne _ (by decide))

end Frames

/-! ### Lines -/

/-- Whatever packet `ReadPacket` makes of the line, its consumers read inside its payload. -/
def ReadsStayInside (echo line : List Byte) (writeMode : BitVec 32) (filter : ParameterFilter) :
    Prop :=
  ∀ (polls : List Poll) (now : ℤ) (fuel : ℕ) (p : DataPacket) (e : ErrorCode) (port : Port),
    (readPacket writeMode now fuel).eval read ⟨echo, line, polls⟩ = (some (some p, e), port) →
    ConsumersInside filter writeMode p

/-- An accepted information frame that is the first frame on the line, behind the echo and some
noise, is as long as its labels need. -/
def FirstFrameLongEnough (echo line : List Byte) (writeMode : BitVec 32)
    (filter : ParameterFilter) : Prop :=
  ∀ (f : Frame) (noise rest : List Byte), line = echo ++ (noise ++ f.raw ++ rest) →
    ksuAddress ∉ noise → f.cmd = infoByte →
    lengthNeeded filter writeMode ≤ f.payload.length + 1

theorem exists_polls_readPacket (f : Frame) (echo : List Byte) {noise : List Byte}
    (hn : ksuAddress ∉ noise) (rest : List Byte) (writeMode : BitVec 32) (now : ℤ) :
    ∃ (polls : List Poll) (fuel : ℕ) (port : Port),
      (readPacket writeMode now fuel).eval read ⟨echo, echo ++ (noise ++ f.raw ++ rest), polls⟩ =
        (some (some (f.packet writeMode now), .noError), port) := by
  set station := noise ++ f.raw ++ rest with hstation
  set polls := List.replicate (echo.length + station.length) (Poll.data 1 0) with hpolls
  have hq : ∀ q ∈ polls, q.Quiet := fun q hq => List.eq_of_mem_replicate hq ▸ Nat.one_pos
  have hcount : dataPolls polls = echo.length + station.length := by
    simp [hpolls, dataPolls, List.countP_replicate, Poll.isData]
  have hplain := eval_readPacket_of_frame f hn rest writeMode now (le_refl (noise.length + 2))
  have honly := readPacket_only writeMode now (noise.length + 2)
  obtain ⟨k, hk⟩ := readPacket_eq_op writeMode now (noise.length + 1)
  refine ⟨polls, noise.length + 2, ?_⟩
  rw [hk] at hplain honly ⊢
  rcases eval_drains k hq echo station with ⟨polls', hq', hd, he⟩ | ⟨-, hd⟩
  · obtain ⟨port, hport, -⟩ := eval_quiet_returns honly (p := ⟨[], station, polls'⟩) ⟨rfl, hq'⟩
      hplain (by dsimp only; omega)
    exact ⟨port, he.trans hport⟩
  · omega

/-- The consumers stay inside every packet read from a line if and only if the first frame on
it is long enough. -/
theorem readsStayInside_iff (echo line : List Byte) (writeMode : BitVec 32)
    (filter : ParameterFilter) :
    ReadsStayInside echo line writeMode filter ↔
      FirstFrameLongEnough echo line writeMode filter := by
  constructor
  · rintro h f noise rest rfl hn
    obtain ⟨polls, fuel, port, he⟩ := exists_polls_readPacket f echo hn rest writeMode 0
    exact (consumersInside_frame_iff filter f writeMode 0).mp (h polls 0 fuel _ _ port he)
  · intro h polls now fuel p e port he
    rcases fuel with _ | fuel
    · simp [readPacket, skipToAddress, Prog.loop, Prog.eval] at he
    · have hfails := readPacket_failsOutside writeMode now (fuel + 1)
      obtain ⟨k, hk⟩ := readPacket_eq_op writeMode now fuel
      rw [hk] at he hfails
      obtain ⟨station, hline, hplain⟩ := eval_failsOutside_echo hfails (by simp) he
      rw [← hk] at hplain
      obtain ⟨f, noise, hn, rfl, rfl, -⟩ := frame_of_eval_readPacket hplain
      exact (consumersInside_frame_iff filter f writeMode now).mpr (h f noise _ hline hn)

/-- In mode 0 an information frame of the length of mode 1 is accepted, and the operating time is
read behind its end. -/
theorem readsStayInside_shortInfo_false :
    ¬ReadsStayInside [] [0x36, 0x00, 0x05, 0x64, 0x00, 0x00, 0x00, 0x00, 0xE8, 0x58] 0 [] := by
  intro h
  have hread : (readPacket 0 0 2).eval read
      ⟨[], [0x36, 0x00, 0x05, 0x64, 0x00, 0x00, 0x00, 0x00, 0xE8, 0x58],
        List.replicate 5 (.data 4 0)⟩ =
      (some (some ⟨.ack, 0x36, ackInfoMode 0, 0, [0, 0, 0, 0], by decide⟩, .noError),
        ⟨[], [], []⟩) := by decide +kernel
  have hreply := (h _ _ _ _ _ _ hread).reply (fun _ => 0) 33
  have : 33 < 4 := hreply (by decide +kernel)
  omega

end Ritex
