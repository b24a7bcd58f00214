import Ritex.ChannelRecords
import Ritex.Expansion
import Ritex.StationTraffic
import Ritex.WriteModeRestored

/-! The labels of the packets in the cycle through the modes. The label of the operator's mode is not
taken off before that of the cycle is put on, so that the two are mixed. -/
namespace Ritex
open Interaction

/-! ### The cycle with its reports -/

/-- The operations of the processor, and the call of `ReportDataPacket` as one of its own. -/
inductive CycleOp
  | processor (o : Op)
  | report (packet : DataPacket)

def CycleRes : CycleOp → Type
  | .processor o => Res o
  | .report _ => Unit

abbrev CycleM (α : Type) := Prog CycleOp CycleRes α

def CycleM.processor {α : Type} (x : ProcessorM α) : CycleM α :=
  x.expand fun o => .op (.processor o) .ret

namespace Processor

/-- The information of the mode that was just set; without a packet a null pointer is followed. -/
def requestMode (p : Processor) : ProcessorM (DataPacket × ErrorCode) := do
  requestCurrentData
  let (packet, error) ← p.waitForKsuActivity ksuInactivityTimeout
  let packet ← deref packet
  return (packet, error)

/-- The cycle through the modes, with the packets that it passes to `ReportDataPacket`. -/
def tracedCycle (p : Processor) : List ℕ → CycleM Unit
  | [] => .ret ()
  | i :: rest =>
    if p.isAutoMode && cycleMode p.writeMode i == 1 then tracedCycle p rest
    else
      (CycleM.processor (p.changeMode (BitVec.ofInt 16 (cycleMode p.writeMode i)))).bind fun changed =>
        if changed then
          (CycleM.processor p.requestMode).bind fun received =>
            if received.2 = .noError then
              .op (.report (received.1.setCmdMode (BitVec.ofInt 16 (cycleMode p.writeMode i))))
                fun _ => tracedCycle p rest
            else tracedCycle p rest
        else .ret ()

/-- What the operations of the traced cycle stand for. -/
def calls (cfg : ProcessorConfig) : (o : CycleOp) → ProcessorM (CycleRes o)
  | .processor o => .op o .ret
  | .report packet => reportData cfg packet

theorem expand_processor {α : Type} (cfg : ProcessorConfig) (x : ProcessorM α) :
    (CycleM.processor x).expand (calls cfg) = x :=
  (Prog.expand_expand_perform _ (fun _ => rfl) x).trans x.expand_perform

theorem modeCycle_eq (cfg : ProcessorConfig) (p : Processor) (indices : List ℕ) :
    (p.tracedCycle indices).expand (calls cfg) = p.modeCycle cfg indices := by
  induction indices with
  | nil => rfl
  | cons i rest ih =>
    rw [tracedCycle, modeCycle]
    split
    next => exact ih
    next =>
      rw [Prog.expand_bind, expand_processor]
      refine congrArg _ (funext fun changed => ?_)
      cases changed with
      | false => rfl
      | true =>
        rw [if_pos rfl, if_pos rfl, Prog.expand_bind, expand_processor]
        refine congrArg (Prog.op Op.time) (funext fun now => ?_)
        refine congrArg (Prog.op (Op.write .requestCurrentData (requestCurrentDataPacket now)))
          (funext fun _ => ?_)
        refine congrArg (Prog.op (Op.wait ksuInactivityTimeout)) (funext fun (w, now) => ?_)
        cases w with
        | error e => rfl
        | ok f =>
          show (reportData cfg _).bind _ = (reportData cfg _).bind _
          exact congrArg _ (funext fun _ => ih)

end Processor

/-! ### A station without errors -/

/-- The replies to a request for a mode and to the request for information behind it. -/
structure ModeAnswers where
  settings : Frame
  info : Frame

/-- The settings confirm the mode, and the information is that of the mode. -/
structure ErrorFree (m : ℕ) (a : ModeAnswers) : Prop where
  settings : a.settings.HasCmd ackAllSettings
  mode : a.settings.payload.getD writeModeOffset 0 = BitVec.ofNat 8 m
  info : a.info.HasCmd ackInfo
  length : ∃ row ∈ ackParams, row.cmd = ackInfoMode m ∧ a.info.payload.length + 1 = row.length.toNat

def waitsFor (answers : List ModeAnswers) : List Wait :=
  answers.flatMap fun a => [.ok a.settings, .ok a.info]

structure CycleWorld where
  waits : List Wait
  ticks : ℕ
  records : List DBDataPacket

namespace CycleWorld

/-- Every look at the clock finds its next reading; no other reply comes than those of the station. -/
def handle (clock : ℕ → ℤ) (heap : ℕ → Byte) : (o : Op) → CycleWorld → Option (Res o) × CycleWorld
  | .time, s => (some (clock s.ticks), { s with ticks := s.ticks + 1 })
  | .wait _, s =>
    match s.waits with
    | w :: waits => (some (w, clock s.ticks), { s with waits := waits, ticks := s.ticks + 1 })
    | [] => (none, s)
  | .heap, s => (some heap, s)
  | .write _ _, s => (some (), s)
  | .enqueData packet, s => (some (), { s with records := s.records ++ [packet] })
  | _, s => (none, s)

def start (answers : List ModeAnswers) : CycleWorld := ⟨waitsFor answers, 0, []⟩

end CycleWorld

/-- The world with the packets that were passed to `ReportDataPacket`. -/
structure TracedWorld where
  world : CycleWorld
  packets : List DataPacket

section Cycle

variable (cfg : ProcessorConfig) (clock : ℕ → ℤ) (heap : ℕ → Byte)

def TracedWorld.handle : (o : CycleOp) → TracedWorld → Option (CycleRes o) × TracedWorld
  | .processor o, s =>
    ((CycleWorld.handle clock heap o s.world).1,
      ⟨(CycleWorld.handle clock heap o s.world).2, s.packets⟩)
  | .report packet, s =>
    (((Processor.reportData cfg packet).eval (CycleWorld.handle clock heap) s.world).1,
      ⟨((Processor.reportData cfg packet).eval (CycleWorld.handle clock heap) s.world).2,
        s.packets ++ [packet]⟩)

/-- The packets that a cycle through these modes reports, each four looks at the clock later. -/
def cyclePackets (clock : ℕ → ℤ) (writeMode : BitVec 32) (ticks : ℕ) :
    List ℕ → List ModeAnswers → List DataPacket
  | m :: modes, a :: answers =>
    (a.info.packet writeMode (clock (ticks + 3))).setCmdMode (BitVec.ofNat 16 m) ::
      cyclePackets clock writeMode (ticks + 4) modes answers
  | _, _ => []

variable {cfg clock heap} {p : Processor}

theorem tracedCycle_world (indices : List ℕ) (s : TracedWorld) :
    ((p.tracedCycle indices).eval (TracedWorld.handle cfg clock heap) s).2.world =
      ((p.modeCycle cfg indices).eval (CycleWorld.handle clock heap) s.world).2 := by
  have hcalls : ∀ o (s : TracedWorld),
      (Processor.calls cfg o).eval (CycleWorld.handle clock heap) s.world =
        ((TracedWorld.handle cfg clock heap o s).1, (TracedWorld.handle cfg clock heap o s).2.world) := by
    intro o s
    cases o with
    | report packet => rfl
    | processor o =>
      show (Prog.op o Prog.ret : ProcessorM _).eval _ _ = _
      rw [TracedWorld.handle]
      rcases hr : CycleWorld.handle clock heap o s.world with ⟨_ | r, world⟩
      · exact Prog.eval_op_none hr
      · exact Prog.eval_op_some hr
  rw [← Processor.modeCycle_eq, Prog.eval_expand, Prog.eval_map hcalls]

theorem processor_eval {α : Type} (x : ProcessorM α) (s : TracedWorld) :
    (CycleM.processor x).eval (TracedWorld.handle cfg clock heap) s =
      ((x.eval (CycleWorld.handle clock heap) s.world).1,
        { s with world := (x.eval (CycleWorld.handle clock heap) s.world).2 }) := by
  induction x generalizing s with
  | ret a => rfl
  | cut => rfl
  | op o k ih =>
    show (Prog.op (CycleOp.processor o) fun r => CycleM.processor (k r)).eval _ s = _
    rcases hr : CycleWorld.handle clock heap o s.world with ⟨_ | r, world⟩
    · have htraced : TracedWorld.handle cfg clock heap (.processor o) s =
          (none, ⟨world, s.packets⟩) := by
        rw [TracedWorld.handle, hr]
        rfl
      rw [Prog.eval_op_none hr, Prog.eval_op_none htraced]
    · have htraced : TracedWorld.handle cfg clock heap (.processor o) s =
          (some r, ⟨world, s.packets⟩) := by
        rw [TracedWorld.handle, hr]
        rfl
      rw [Prog.eval_op_some hr, Prog.eval_op_some htraced]
      exact ih r ⟨world, s.packets⟩

theorem changeMode_eval {m : ℕ} (hm : m < 7) {a : ModeAnswers} (h : ErrorFree m a) (waits : List Wait)
    (ticks : ℕ) (records : List DBDataPacket) :
    (p.changeMode (BitVec.ofNat 16 m)).eval (CycleWorld.handle clock heap)
        ⟨.ok a.settings :: waits, ticks, records⟩ = (some true, ⟨waits, ticks + 2, records⟩) := by
  have hack : getCmd (a.settings.packet p.writeMode (clock (ticks + 1))).cmd = ackAllSettings :=
    (a.settings.getCmd_packet _ _).trans h.settings
  have hbyte : (a.settings.packet p.writeMode (clock (ticks + 1))).memory heap writeModeOffset =
      BitVec.ofNat 8 m :=
    (Frame.memory_writeMode h.settings _ _ _).trans h.mode
  have hmode : ∀ m < 7, decide ((BitVec.ofNat 8 m).setWidth 16 = BitVec.ofNat 16 m) = true := by decide
  show (if getCmd (a.settings.packet p.writeMode (clock (ticks + 1))).cmd = ackAllSettings then _
    else _ : ProcessorM Bool).eval _ (⟨waits, ticks + 2, records⟩ : CycleWorld) = _
  rw [if_pos hack]
  show (some (decide (((a.settings.packet p.writeMode (clock (ticks + 1))).memory heap
    writeModeOffset).setWidth 16 = BitVec.ofNat 16 m)), _) = _
  rw [hbyte, hmode m hm]

theorem requestMode_eval (info : Frame) (waits : List Wait) (ticks : ℕ) (records : List DBDataPacket) :
    p.requestMode.eval (CycleWorld.handle clock heap) ⟨.ok info :: waits, ticks, records⟩ =
      (some (info.packet p.writeMode (clock (ticks + 1)), .noError), ⟨waits, ticks + 2, records⟩) :=
  rfl

theorem enqueData_eval (records : List DBDataPacket) (s : CycleWorld) :
    (Processor.enqueData records).eval (CycleWorld.handle clock heap) s =
      (some (), { s with records := s.records ++ records }) := by
  induction records generalizing s with
  | nil =>
    rw [List.append_nil]
    rfl
  | cons record records ih =>
    have hrest := ih { s with records := s.records ++ [record] }
    rw [List.append_assoc] at hrest
    exact hrest

theorem reportData_eval (packet : DataPacket) (s : CycleWorld) :
    (Processor.reportData cfg packet).eval (CycleWorld.handle clock heap) s =
      (some (), { s with records := s.records ++
        (reportDataPacket cfg.offsetTable packet).value (packet.memory heap) }) :=
  enqueData_eval _ s

/-- The packets of a cycle without errors, and the records that are made of them. -/
theorem tracedCycle_eval {w : ℕ} (hw : w ≤ 6) (hp : p.writeMode = BitVec.ofNat 32 w)
    (indices : List ℕ) {answers : List ModeAnswers}
    (h : List.Forall₂ ErrorFree (askedModes p.isAutoMode w indices) answers) (ticks : ℕ)
    (records : List DBDataPacket) (packets : List DataPacket) :
    ((p.tracedCycle indices).eval (TracedWorld.handle cfg clock heap)
        ⟨⟨waitsFor answers, ticks, records⟩, packets⟩).2 =
      ⟨⟨[], ticks + 4 * answers.length, records ++
          (cyclePackets clock p.writeMode ticks (askedModes p.isAutoMode w indices) answers).flatMap
            fun q => (reportDataPacket cfg.offsetTable q).value (q.memory heap)⟩,
        packets ++ cyclePackets clock p.writeMode ticks (askedModes p.isAutoMode w indices) answers⟩ := by
  induction indices generalizing answers ticks records packets with
  | nil =>
    cases h
    simp [Processor.tracedCycle, Prog.eval, cyclePackets, waitsFor, askedModes]
  | cons i rest ih =>
    have hskip : (cycleMode p.writeMode i == 1) = ((w + i) % 7 == 1) := by
      rw [Processor.cycleMode_eq hw hp, Bool.eq_iff_iff, beq_iff_eq, beq_iff_eq]
      omega
    rw [askedModes_cons] at h ⊢
    rw [Processor.tracedCycle, hskip]
    split
    next hauto =>
      rw [if_pos hauto] at h
      exact ih h ticks records packets
    next hauto =>
      rw [if_neg hauto] at h
      cases h with
      | @cons _ a _ answers hfirst hrest =>
        have hm : (w + i) % 7 < 7 := Nat.mod_lt _ (by omega)
        have hwaits : waitsFor (a :: answers) = .ok a.settings :: .ok a.info :: waitsFor answers := rfl
        rw [Processor.cycleMode_eq hw hp, BitVec.ofInt_natCast, Prog.eval_bind, processor_eval, hwaits,
          changeMode_eval hm hfirst]
        show (((CycleM.processor p.requestMode).bind _).eval _
          (⟨⟨.ok a.info :: waitsFor answers, ticks + 2, records⟩, packets⟩ : TracedWorld)).2 = _
        rw [Prog.eval_bind, processor_eval, requestMode_eval]
        have hreport (q : DataPacket) : TracedWorld.handle cfg clock heap (.report q)
            ⟨⟨waitsFor answers, ticks + 4, records⟩, packets⟩ = (some (), ⟨⟨waitsFor answers, ticks + 4,
              records ++ (reportDataPacket cfg.offsetTable q).value (q.memory heap)⟩, packets ++ [q]⟩) := by
          rw [TracedWorld.handle, reportData_eval]
          rfl
        show ((Prog.op (CycleOp.report _) fun _ => p.tracedCycle rest).eval _
          (⟨⟨waitsFor answers, ticks + 4, records⟩, packets⟩ : TracedWorld)).2 = _
        rw [Prog.eval_op_some (hreport _), ih hrest, cyclePackets]
        simp only [List.append_assoc, List.flatMap_cons, List.singleton_append, List.length_cons]
        congr 2
        omega

end Cycle

/-! ### Labels -/

/-- Every packet carries the mode of its step, the records are those of the channels of that mode, and
every mode is reported once, except that mode 1 is left out in automatic mode. -/
structure CycleDecoded (isAutoMode : Bool) (w : ℕ) (table : List OffsetTableEntry)
    (packets : List DataPacket) (records : List DBDataPacket) : Prop where
  labels : packets.map (fun q => (getMode q.cmd).toNat) = cycleModes isAutoMode w
  records : records = ((cycleModes isAutoMode w).zip packets).flatMap fun step =>
    (table.filter fun entry => entry.cmd = ackInfoMode step.1).map (channelRecord step.2)
  once : ∀ m < 7, packets.countP (fun q => (getMode q.cmd).toNat = m) =
    if isAutoMode = true ∧ m = 1 then 0 else 1

/-- The label of the cycle on top of the label of the operator's mode. -/
theorem getMode_setCmdMode : ∀ w ≤ 6, ∀ m < 7,
    (getMode (longCmd (BitVec.ofNat 32 w) 0x64 ||| (BitVec.ofNat 16 m &&& 0xFF) <<< 8)).toNat =
      w ||| m := by
  decide +kernel

theorem setCmdMode_zero : ∀ m < 7,
    longCmd (BitVec.ofNat 32 0) 0x64 ||| (BitVec.ofNat 16 m &&& 0xFF) <<< 8 = ackInfoMode m := by
  decide +kernel

theorem ErrorFree.info_cmd {m : ℕ} {a : ModeAnswers} (h : ErrorFree m a) : a.info.cmd = 0x64 := by
  have hbyte := congrArg lsb h.info
  rwa [lsb_setWidth] at hbyte

section Labels

variable (clock : ℕ → ℤ) {w : ℕ} {modes : List ℕ} {answers : List ModeAnswers}

theorem cyclePackets_labels (hw : w ≤ 6) (hmodes : ∀ m ∈ modes, m < 7)
    (h : List.Forall₂ ErrorFree modes answers) (ticks : ℕ) :
    (cyclePackets clock (BitVec.ofNat 32 w) ticks modes answers).map
      (fun q => (getMode q.cmd).toNat) = modes.map (w ||| ·) := by
  induction h generalizing ticks with
  | nil => rfl
  | @cons m a modes answers hfirst _ ih =>
    rw [cyclePackets, List.map_cons, List.map_cons, ih fun m hm => hmodes m (List.mem_cons_of_mem _ hm)]
    congr 1
    show (getMode (longCmd (BitVec.ofNat 32 w) a.info.cmd ||| _)).toNat = _
    rw [hfirst.info_cmd]
    exact getMode_setCmdMode w hw m (hmodes m List.mem_cons_self)

/-- Information of a mode holds the channels of the mode. -/
theorem ErrorFree.covers {m : ℕ} {a : ModeAnswers} (h : ErrorFree m a) {filter : ParameterFilter}
    {entry : OffsetTableEntry} (hentry : entry ∈ createOffsetTable filter)
    (hcmd : entry.cmd = ackInfoMode m) : Covers a.info.payload entry := by
  obtain ⟨param, hparam, hdata⟩ := mem_createOffsetTable hentry
  obtain ⟨hsize, mode, hmode, hlabel, hend⟩ := sensorChannels_controllerData param hparam _ hdata
  obtain ⟨row, hrow, hrowcmd, hlength⟩ := h.length
  have hfits : ∀ mode ∈ channelsEnd, ∀ row ∈ ackParams, row.cmd = ackInfoMode mode.1 →
      mode.2 + 1 ≤ row.length.toNat := by decide
  have hle := hfits mode hmode row hrow (hrowcmd.trans (hcmd.symm.trans hlabel))
  have hend : entry.offset + entry.size ≤ mode.2 := hend
  exact ⟨hsize, by omega⟩

theorem cyclePackets_records {filter : ParameterFilter} {table : List OffsetTableEntry}
    (htable : ∀ entry ∈ table, entry ∈ createOffsetTable filter) (hmodes : ∀ m ∈ modes, m < 7)
    (h : List.Forall₂ ErrorFree modes answers) (heap : ℕ → Byte) (ticks : ℕ) :
    ((cyclePackets clock (BitVec.ofNat 32 0) ticks modes answers).flatMap fun q =>
        (reportDataPacket table q).value (q.memory heap)) =
      (modes.zip (cyclePackets clock (BitVec.ofNat 32 0) ticks modes answers)).flatMap fun step =>
        (table.filter fun entry => entry.cmd = ackInfoMode step.1).map (channelRecord step.2) := by
  induction h generalizing ticks with
  | nil => rfl
  | @cons m a modes answers hfirst _ ih =>
    rw [cyclePackets, List.flatMap_cons, List.zip_cons_cons, List.flatMap_cons,
      ih fun m hm => hmodes m (List.mem_cons_of_mem _ hm)]
    congr 1
    have hlabel : ((a.info.packet (BitVec.ofNat 32 0) (clock (ticks + 3))).setCmdMode
        (BitVec.ofNat 16 m)).cmd = ackInfoMode m := by
      show longCmd (BitVec.ofNat 32 0) a.info.cmd ||| _ = _
      rw [hfirst.info_cmd]
      exact setCmdMode_zero m (hmodes m List.mem_cons_self)
    rw [reportDataPacket_value, hlabel]
    intro entry hentry hcmd
    exact hfirst.covers (htable entry hentry) (hcmd.trans hlabel)

end Labels

/-- Every operator mode but 0 spoils the labels of a cycle. -/
theorem labels_eq_iff (isAutoMode : Bool) {w : ℕ} (hw : w ≤ 6) :
    (cycleModes isAutoMode w).map (w ||| ·) = cycleModes isAutoMode w ↔ w = 0 := by
  have hall : ∀ a : Bool, ∀ w ≤ 6,
      ((cycleModes a w).map (w ||| ·) = cycleModes a w ↔ w = 0) := by decide
  exact hall isAutoMode w hw

theorem cycleModes_lt (isAutoMode : Bool) {w : ℕ} : ∀ m ∈ cycleModes isAutoMode w, m < 7 := by
  intro m hm
  obtain ⟨i, -, rfl⟩ := List.mem_map.mp (List.mem_filter.mp hm).1
  exact Nat.mod_lt _ (by omega)

theorem cycleModes_once (isAutoMode : Bool) : ∀ m < 7, (cycleModes isAutoMode 0).countP (· = m) =
    if isAutoMode = true ∧ m = 1 then 0 else 1 := by
  cases isAutoMode <;> decide

/-- A cycle without errors reports the right packets under the right labels if and only if the
operator has selected mode 0. -/
theorem cycle_decoded_iff (cfg : ProcessorConfig) (p : Processor) {w : ℕ} (hw : w ≤ 6)
    (hp : p.writeMode = BitVec.ofNat 32 w) {filter : ParameterFilter}
    (htable : ∀ entry ∈ cfg.offsetTable, entry ∈ createOffsetTable filter) (clock : ℕ → ℤ)
    (heap : ℕ → Byte) {answers : List ModeAnswers}
    (h : List.Forall₂ ErrorFree (cycleModes p.isAutoMode w) answers) :
    CycleDecoded p.isAutoMode w cfg.offsetTable
        ((p.tracedCycle [1, 2, 3, 4, 5, 6, 7]).eval (TracedWorld.handle cfg clock heap)
          ⟨.start answers, []⟩).2.packets
        ((p.modeCycle cfg [1, 2, 3, 4, 5, 6, 7]).eval (CycleWorld.handle clock heap)
          (.start answers)).2.records ↔
      w = 0 := by
  have hmodes : ∀ m ∈ cycleModes p.isAutoMode w, m < 7 := cycleModes_lt p.isAutoMode
  have hrun : ((p.tracedCycle [1, 2, 3, 4, 5, 6, 7]).eval (TracedWorld.handle cfg clock heap)
      ⟨.start answers, []⟩).2 = _ := tracedCycle_eval hw hp [1, 2, 3, 4, 5, 6, 7] h 0 [] []
  have hworld : _ = ((p.modeCycle cfg [1, 2, 3, 4, 5, 6, 7]).eval (CycleWorld.handle clock heap)
      (.start answers)).2 := tracedCycle_world [1, 2, 3, 4, 5, 6, 7] ⟨.start answers, []⟩
  rw [← hworld, hrun]
  simp only [List.nil_append]
  rw [hp]
  have hlabels := cyclePackets_labels clock hw hmodes h 0
  constructor
  · intro hdecoded
    exact (labels_eq_iff p.isAutoMode hw).mp (hlabels.symm.trans hdecoded.labels)
  · rintro rfl
    refine ⟨hlabels.trans ((labels_eq_iff p.isAutoMode hw).mpr rfl),
      cyclePackets_records clock htable hmodes h heap 0, fun m hm => ?_⟩
    have hcount := congrArg (List.countP (· = m)) (hlabels.trans ((labels_eq_iff p.isAutoMode hw).mpr rfl))
    rw [List.countP_map] at hcount
    exact hcount.trans (cycleModes_once p.isAutoMode m hm)

/-! ### A station that answers with zeros -/

def infoLength : ℕ → ℕ
  | 1 => 0x05
  | 2 => 0x20
  | 3 => 0x12
  | 4 => 0x0D
  | 5 => 0x12
  | 6 => 0x13
  | _ => 0x28

theorem infoLength_accepted (m : ℕ) : 0 < infoLength m ∧ infoLength m < 2 ^ 16 ∧
    isLengthMatches 0x64 (BitVec.ofNat 16 (infoLength m)) = some .ack := by
  unfold infoLength
  split <;> decide

def modeInfo (m : ℕ) : Frame where
  type := .ack
  cmd := 0x64
  payload := List.replicate (infoLength m - 1) 0
  length_lt := by
    have := infoLength_accepted m
    rw [List.length_replicate]
    omega
  accepted := by
    obtain ⟨hpos, -, haccepted⟩ := infoLength_accepted m
    rw [List.length_replicate, Nat.sub_add_cancel hpos]
    exact haccepted

def modeSettings (m : ℕ) : Frame where
  type := .ack
  cmd := 0x6C
  payload := List.replicate 22 0 ++ [BitVec.ofNat 8 m] ++ List.replicate 24 0
  length_lt := by simp
  accepted := by
    simp only [List.length_append, List.length_replicate, List.length_singleton]
    decide

theorem modeSettings_mode (m : ℕ) :
    (modeSettings m).payload.getD writeModeOffset 0 = BitVec.ofNat 8 m := by
  have hbyte (b : Byte) :
      (List.replicate 22 0 ++ [b] ++ List.replicate 24 0).getD writeModeOffset 0 = b := rfl
  exact hbyte _

def zeroAnswers (modes : List ℕ) : List ModeAnswers := modes.map fun m => ⟨modeSettings m, modeInfo m⟩

theorem zeroAnswers_errorFree {modes : List ℕ} (h : ∀ m ∈ modes, m < 7) :
    List.Forall₂ ErrorFree modes (zeroAnswers modes) := by
  have hrow : ∀ m < 7, ∃ row ∈ ackParams, row.cmd = ackInfoMode m ∧
      infoLength m = row.length.toNat := by decide
  rw [zeroAnswers, List.forall₂_map_right_iff, List.forall₂_same]
  intro m hm
  obtain ⟨row, hmem, hcmd, hlength⟩ := hrow m (h m hm)
  refine ⟨rfl, modeSettings_mode m, rfl, row, hmem, hcmd, ?_⟩
  rw [← hlength]
  show (List.replicate (infoLength m - 1) (0 : Byte)).length + 1 = _
  rw [List.length_replicate, Nat.sub_add_cancel (infoLength_accepted m).1]

/-- All parameters that the station sends. -/
def stationFilter : ParameterFilter := sensorChannels.map fun param => ⟨7, param.id⟩

def stationConfig : ProcessorConfig :=
  { unfilteredConfig true with offsetTable := createOffsetTable stationFilter }

theorem cycle_decoded_manual : stationConfig.offsetTable.length = 53 ∧
    CycleDecoded knownProcessor.isAutoMode 0 stationConfig.offsetTable
      ((knownProcessor.tracedCycle [1, 2, 3, 4, 5, 6, 7]).eval
        (TracedWorld.handle stationConfig (fun _ => 0) (fun _ => 0))
        ⟨.start (zeroAnswers (cycleModes knownProcessor.isAutoMode 0)), []⟩).2.packets
      ((knownProcessor.modeCycle stationConfig [1, 2, 3, 4, 5, 6, 7]).eval
        (CycleWorld.handle (fun _ => 0) (fun _ => 0))
        (.start (zeroAnswers (cycleModes knownProcessor.isAutoMode 0)))).2.records := by
  have hmode : knownProcessor.writeMode = BitVec.ofNat 32 0 := rfl
  have htable : ∀ entry ∈ stationConfig.offsetTable, entry ∈ createOffsetTable stationFilter :=
    fun _ hentry => hentry
  exact ⟨by decide, (cycle_decoded_iff stationConfig knownProcessor (Nat.zero_le 6) hmode htable
    (fun _ => 0) (fun _ => 0) (zeroAnswers_errorFree (cycleModes_lt _))).mpr rfl⟩

def firstModeProcessor : Processor := { knownProcessor with writeMode := BitVec.ofNat 32 1 }

/-- With mode 1 selected the first packet, that of mode 2, is taken for one of mode 3. -/
theorem cycle_decoded_false : ¬∀ (cfg : ProcessorConfig) (p : Processor) (w : ℕ)
    (filter : ParameterFilter) (clock : ℕ → ℤ) (heap : ℕ → Byte) (answers : List ModeAnswers),
    w ≤ 6 → p.writeMode = BitVec.ofNat 32 w →
    (∀ entry ∈ cfg.offsetTable, entry ∈ createOffsetTable filter) →
    List.Forall₂ ErrorFree (cycleModes p.isAutoMode w) answers →
    CycleDecoded p.isAutoMode w cfg.offsetTable
      ((p.tracedCycle [1, 2, 3, 4, 5, 6, 7]).eval (TracedWorld.handle cfg clock heap)
        ⟨.start answers, []⟩).2.packets
      ((p.modeCycle cfg [1, 2, 3, 4, 5, 6, 7]).eval (CycleWorld.handle clock heap)
        (.start answers)).2.records := by
  intro hall
  have hmodes : ∀ m ∈ cycleModes firstModeProcessor.isAutoMode 1, m < 7 := cycleModes_lt _
  have hanswers := zeroAnswers_errorFree hmodes
  have htable : ∀ entry ∈ (unfilteredConfig true).offsetTable, entry ∈ createOffsetTable [] :=
    fun entry hentry => by cases hentry
  have hdecoded := hall (unfilteredConfig true) firstModeProcessor 1 [] (fun _ => 0) (fun _ => 0) _
    (by omega) rfl htable hanswers
  have hrun : ((firstModeProcessor.tracedCycle [1, 2, 3, 4, 5, 6, 7]).eval
      (TracedWorld.handle (unfilteredConfig true) (fun _ => 0) (fun _ => 0)) ⟨.start _, []⟩).2 = _ :=
    tracedCycle_eval (by omega) rfl [1, 2, 3, 4, 5, 6, 7] hanswers 0 [] []
  have hlabels := hdecoded.labels
  rw [hrun, List.nil_append] at hlabels
  have hone : 1 ≤ 6 := by omega
  have hmixed := cyclePackets_labels (fun _ => 0) hone hmodes hanswers 0
  exact absurd ((labels_eq_iff _ hone).mp (hmixed.symm.trans hlabels)) (by omega)

end Ritex
