import Ritex.DeviceCommands
import Ritex.FaultHistory

/-! The alarm for a clock that deviates. `sync_time` is given in minutes, and the device takes it for
seconds, so that alarms come too early and those that are due may be missing. -/
namespace Ritex
open Monitor

/-- A packet with the time of the system at its check. -/
structure TimedPacket extends CheckedPacket where
  systemTime : ℤ

/-- The clock of the station in information of mode 0. -/
def stationTime (mktime : Tm → ℤ) (memory : ℕ → Byte) : ℤ :=
  mktime ⟨(memory 21 ++ memory 22 : Word).toNat - 1900, (memory 20).toNat - 1, (memory 19).toNat,
    (memory 23).toNat, (memory 24).toNat⟩

/-- How far the clocks are apart at a packet of mode 0. -/
def TimedPacket.diviation (mktime : Tm → ℤ) (p : TimedPacket) : Option ℤ :=
  if p.packet.cmd = ackInfoMode 0 then some |p.systemTime - stationTime mktime p.memory| else none

/-- How far the device takes them to be apart. -/
def TimedPacket.measured (mktime : Tm → ℤ) (p : TimedPacket) : Option ℤ :=
  if p.packet.cmd = ackInfoMode 0 then
    some (clockDistance p.systemTime (stationTime mktime p.memory))
  else none

def Beyond (limit : ℤ) (distance : Option ℤ) : Prop := ∃ d ∈ distance, limit < d

instance (limit : ℤ) (distance : Option ℤ) : Decidable (Beyond limit distance) :=
  inferInstanceAs (Decidable (∃ d ∈ distance, limit < d))

/-- The clocks are further apart than `limit` seconds, and at the packet of mode 0 before they were
not. -/
def AlarmDue (distance : TimedPacket → Option ℤ) (limit : ℤ) (before : List TimedPacket)
    (p : TimedPacket) : Prop :=
  Beyond limit (distance p) ∧ ¬Beyond limit (latest distance before)

instance (distance : TimedPacket → Option ℤ) (limit : ℤ) (before : List TimedPacket)
    (p : TimedPacket) : Decidable (AlarmDue distance limit before p) :=
  inferInstanceAs (Decidable (_ ∧ _))

/-- `CheckAndReportTimeDiviation` of a device. -/
def DeviceState.checkTime (device : DeviceState) (mktime : Tm → ℤ) (filter : ParameterFilter)
    (isReported : Bool) (p : TimedPacket) : Bool × Option DBEventCommon :=
  (checkAndReportTimeDiviation mktime filter device.timeDiviation isReported p.systemTime
    p.packet).value p.memory

/-- The events of type 6 are those that are due for a limit of so many minutes. -/
def HonoursMinutes (mktime : Tm → ℤ) (minutes : ℤ) (packets : List TimedPacket)
    (reports : List (Option DBEventCommon)) : Prop :=
  ∀ i p, packets[i]? = some p →
    ((∃ e, reports[i]? = some (some e) ∧ e.typeId = 6) ↔
      AlarmDue (TimedPacket.diviation mktime) (60 * minutes) (packets.take i) p)

/-- Seconds, as the device measures them, and minutes agree on a packet: if it is beyond one of the
limits only, the packet of mode 0 before was beyond the same limit, and if it is beyond both, the
packet before was beyond both or neither. -/
structure UnitsAgree (mktime : Tm → ℤ) (v : ℤ) (before : List TimedPacket) (p : TimedPacket) :
    Prop where
  seconds : Beyond v (p.measured mktime) → ¬Beyond (60 * v) (p.diviation mktime) →
    Beyond v (latest (TimedPacket.measured mktime) before)
  minutes : Beyond (60 * v) (p.diviation mktime) → ¬Beyond v (p.measured mktime) →
    Beyond (60 * v) (latest (TimedPacket.diviation mktime) before)
  both : Beyond v (p.measured mktime) → Beyond (60 * v) (p.diviation mktime) →
    (Beyond v (latest (TimedPacket.measured mktime) before) ↔
      Beyond (60 * v) (latest (TimedPacket.diviation mktime) before))

namespace SyncTime

/-! ### The latch -/

/-- `m_isDiviationReported` tells whether the last packet of mode 0 was beyond the limit. -/
def Knows (mktime : Tm → ℤ) (limit : ℤ) (before : List TimedPacket) (isReported : Bool) : Prop :=
  isReported = true ↔ Beyond limit (latest (TimedPacket.measured mktime) before)

variable {mktime : Tm → ℤ} {filter : ParameterFilter} {device : DeviceState} {isReported : Bool}
  {before : List TimedPacket} {p : TimedPacket}

@[simp] theorem not_beyond_none (limit : ℤ) : ¬Beyond limit none := by
  simp [Beyond]

@[simp] theorem beyond_some (limit d : ℤ) : Beyond limit (some d) ↔ limit < d := by
  simp [Beyond]

theorem knows_fresh (mktime : Tm → ℤ) (limit : ℤ) : Knows mktime limit [] false := by
  simp [Knows]

theorem checkTime_of_none (h : p.measured mktime = none) :
    device.checkTime mktime filter isReported p = (isReported, none) := by
  rw [TimedPacket.measured] at h
  split at h
  next => cases h
  next hmode =>
    rw [DeviceState.checkTime, checkAndReportTimeDiviation, if_neg hmode]
    rfl

theorem checkTime_of_some (device : DeviceState) (filter : ParameterFilter) (isReported : Bool)
    {d : ℤ} (h : p.measured mktime = some d) :
    device.checkTime mktime filter isReported p = nextDiviation filter device.timeDiviation isReported
        p.systemTime (stationTime mktime p.memory) ∧
      d = clockDistance p.systemTime (stationTime mktime p.memory) := by
  rw [TimedPacket.measured] at h
  split at h
  next hmode =>
    refine ⟨?_, (Option.some.inj h).symm⟩
    rw [DeviceState.checkTime, checkAndReportTimeDiviation, if_pos hmode, stationTime,
      ← swap16_ofMemory]
    rfl
  next => cases h

/-- The device measures the distance of clocks that are less than 2^31 seconds apart. -/
theorem measured_eq (h : ∀ d ∈ p.diviation mktime, d < 2 ^ 31) :
    p.measured mktime = p.diviation mktime := by
  unfold TimedPacket.measured
  unfold TimedPacket.diviation at h ⊢
  split
  next hmode =>
    rw [if_pos hmode] at h
    rw [clockDistance_eq (h _ rfl)]
  next => rfl

/-- The event that tells of the deviation. -/
def diviationEvent (filter : ParameterFilter) (systemTime d : ℤ) : DBEventCommon where
  typeId := 6
  channelId := getDeviceStateChannelId filter
  registerTimeDate := systemTime
  argument1 := itoa (d.tdiv 60)

/-- The report that is due at a packet. -/
def report (mktime : Tm → ℤ) (filter : ParameterFilter) (limit : ℤ) (before : List TimedPacket)
    (p : TimedPacket) : Option DBEventCommon :=
  if AlarmDue (TimedPacket.measured mktime) limit before p then
    (p.measured mktime).map (diviationEvent filter p.systemTime)
  else none

theorem report_isSome_iff {limit : ℤ} :
    (∃ e, report mktime filter limit before p = some e ∧ e.typeId = 6) ↔
      AlarmDue (TimedPacket.measured mktime) limit before p := by
  rw [report]
  constructor
  · rintro ⟨e, he, -⟩
    split at he
    next hdue => exact hdue
    next => cases he
  · intro hdue
    rw [if_pos hdue]
    obtain ⟨⟨d, hd, -⟩, -⟩ := hdue
    rw [Option.mem_def.mp hd]
    exact ⟨_, rfl, rfl⟩

theorem nextDiviation_eq (systemTime timestamp limit : ℤ) :
    nextDiviation filter limit isReported systemTime timestamp =
      if limit < clockDistance systemTime timestamp then
        (true, if isReported then none
          else some (diviationEvent filter systemTime (clockDistance systemTime timestamp)))
      else (false, none) := by
  rw [nextDiviation]
  by_cases hbeyond : limit < clockDistance systemTime timestamp
  · rw [if_pos hbeyond, if_pos hbeyond]
    cases isReported <;> rfl
  · rw [if_neg hbeyond, if_neg hbeyond]

theorem Knows.checkTime (h : Knows mktime device.timeDiviation before isReported) (p : TimedPacket) :
    Knows mktime device.timeDiviation (before ++ [p])
        (device.checkTime mktime filter isReported p).1 ∧
      (device.checkTime mktime filter isReported p).2 =
        report mktime filter device.timeDiviation before p := by
  cases hd : p.measured mktime with
  | none =>
    rw [checkTime_of_none hd, Knows, latest_concat_none before hd, report]
    refine ⟨h, ?_⟩
    simp [AlarmDue, hd]
  | some d =>
    obtain ⟨hcheck, hdistance⟩ := checkTime_of_some device filter isReported hd
    have hdue : AlarmDue (TimedPacket.measured mktime) device.timeDiviation before p ↔
        device.timeDiviation < d ∧
          ¬Beyond device.timeDiviation (latest (TimedPacket.measured mktime) before) := by
      unfold AlarmDue
      rw [hd, beyond_some]
    rw [hcheck, nextDiviation_eq, ← hdistance, Knows, latest_concat_some before hd, report, hd]
    by_cases hbeyond : device.timeDiviation < d
    · rw [if_pos hbeyond]
      refine ⟨by simpa using hbeyond, ?_⟩
      cases hreported : isReported with
      | true => simp [hdue, h.mp hreported]
      | false =>
        have hfirst : ¬Beyond device.timeDiviation (latest (TimedPacket.measured mktime) before) :=
          fun hlatest => by simp [h.mpr hlatest] at hreported
        simp [hdue, hbeyond, hfirst]
    · simp [hdue, hbeyond]

theorem checkTime_explains (device : DeviceState) (mktime : Tm → ℤ) (filter : ParameterFilter) :
    Explains (device.checkTime mktime filter) (Knows mktime device.timeDiviation)
      (report mktime filter device.timeDiviation) where
  state _ _ p h := (h.checkTime p).1
  answer _ _ p h := (h.checkTime p).2

/-! ### Seconds for minutes -/

/-- An alarm is due for both units at the same time if they agree on the packet. -/
theorem alarmDue_iff_iff (v : ℤ) : (AlarmDue (TimedPacket.measured mktime) v before p ↔
      AlarmDue (TimedPacket.diviation mktime) (60 * v) before p) ↔
    UnitsAgree mktime v before p := by
  unfold AlarmDue
  constructor
  · intro h
    constructor <;> tauto
  · rintro ⟨hseconds, hminutes, hboth⟩
    tauto

theorem synchronised_timeDiviation (device : DeviceState) {fakeId : ℤ} {c : CmdLineCommand}
    {cmd : CompiledCommand}
    {text : Text} (hcompile : c.compile additionalParameterMap fakeId = some cmd)
    (htype : c.cmdLineCommandType = some .getMesurements)
    (hgiven : c.additionalParametersRaw.lookup syncTime = some text) :
    (device.synchronised cmd).timeDiviation = strtol text := by
  have hcompiled := CmdLineCommand.compile_compiled hcompile
  obtain ⟨description, value, hdescription, hvalue, hlookup⟩ :=
    lookup_compileEntry hcompiled.parameters hgiven
  have hint : description = .int 0 60 := by
    have hknown : additionalParameterMap.lookup syncTime = some (.int 0 60) := by decide
    exact Option.some.inj (hdescription.symm.trans hknown)
  have hkind : cmd.cmdLineCommandType = .getMesurements :=
    Option.some.inj (hcompiled.type.symm.trans htype)
  subst hint
  obtain ⟨i, hi, rfl⟩ := Option.map_eq_some_iff.mp hvalue
  rw [DeviceState.synchronised, hkind, CompiledCommand.getInt, hlookup, compileInt_eq_some hi]

end SyncTime

/-- The events come at the packets that `sync_time` asks for if and only if minutes and seconds agree
on every packet. -/
theorem syncTime_honoured_iff (mktime : Tm → ℤ) (filter : ParameterFilter) (device : DeviceState)
    {fakeId : ℤ} {c : CmdLineCommand} {cmd : CompiledCommand} {text : Text}
    (hcompile : c.compile additionalParameterMap fakeId = some cmd)
    (htype : c.cmdLineCommandType = some .getMesurements)
    (hgiven : c.additionalParametersRaw.lookup syncTime = some text) (packets : List TimedPacket) :
    HonoursMinutes mktime (strtol text) packets
        (run ((device.synchronised cmd).checkTime mktime filter) false packets).2 ↔
      ∀ i p, packets[i]? = some p → UnitsAgree mktime (strtol text) (packets.take i) p := by
  have hlimit := SyncTime.synchronised_timeDiviation device hcompile htype hgiven
  have hreports := (SyncTime.checkTime_explains (device.synchronised cmd) mktime filter).run_answers
    (SyncTime.knows_fresh mktime _) packets
  rw [hlimit] at hreports
  refine forall₃_congr fun i p hp => ?_
  have hreport : (run ((device.synchronised cmd).checkTime mktime filter) false packets).2[i]? =
      some (SyncTime.report mktime filter (strtol text) (packets.take i) p) := by
    rw [hreports, List.getElem?_mapIdx, hp, Option.map_some]
  rw [hreport, ← SyncTime.alarmDue_iff_iff]
  simp only [Option.some.injEq, SyncTime.report_isSome_iff]

/-! ### One minute -/

def minuteCommand : CmdLineCommand where
  cmdLineCommandType := some .getMesurements
  deviceIdRaw := "1".toList
  scriptPathRaw := "/tmp/script".toList
  additionalParametersRaw := [(comdevice, "/dev/ttySC0".toList), (baudrate, "9600".toList),
    (syncTime, "1".toList)]

def minuteCompiled : CompiledCommand where
  raw := minuteCommand
  cmdLineCommandType := .getMesurements
  additionalParameters := [(comdevice, .string "/dev/ttySC0".toList), (baudrate, .int 9600),
    (syncTime, .int 1)]
  deviceId := some 1

/-- The first minute of the year 2013. -/
def newYear : ℤ := 1356998400

/-- Information of mode 0 with the clock at the new year, checked so many seconds later. -/
def newYearPacket (late : ℤ) : TimedPacket where
  packet :=
    { type := .ack, address := 1, cmd := ackInfoMode 0, timestamp := newYear + late
      data := List.replicate 19 0 ++ [1, 1, 0x07, 0xDD] ++ List.replicate 20 0
      size_lt := by decide }
  beyond _ := 0
  systemTime := newYear + late

theorem newYearPacket_diviation (late : ℤ) :
    (newYearPacket late).diviation (fun _ => newYear) = some |late| := by
  rw [TimedPacket.diviation, if_pos (show (newYearPacket late).packet.cmd = ackInfoMode 0 from rfl)]
  show some |newYear + late - newYear| = some |late|
  rw [add_sub_cancel_left]

/-- With a limit of a minute the device reports clocks that are half a minute apart. -/
theorem syncTime_half_minute :
    minuteCommand.compile additionalParameterMap 0 = some minuteCompiled ∧
    ¬HonoursMinutes (fun _ => newYear) (strtol "1".toList) [newYearPacket 30]
      (run (((⟨false, false, 60⟩ : DeviceState).synchronised minuteCompiled).checkTime
        (fun _ => newYear) []) false [newYearPacket 30]).2 := by
  refine ⟨by decide, fun h => ?_⟩
  have hbeyond := ((h 0 (newYearPacket 30) rfl).mp ⟨_, rfl, rfl⟩).1
  rw [newYearPacket_diviation] at hbeyond
  exact absurd hbeyond (by decide)

theorem syncTime_two_minutes : HonoursMinutes (fun _ => newYear) (strtol "1".toList)
    [newYearPacket 120]
    (run (((⟨false, false, 60⟩ : DeviceState).synchronised minuteCompiled).checkTime
      (fun _ => newYear) []) false [newYearPacket 120]).2 := by
  have hcompile : minuteCommand.compile additionalParameterMap 0 = some minuteCompiled := by decide
  apply (syncTime_honoured_iff (fun _ => newYear) [] ⟨false, false, 60⟩ hcompile rfl (by decide) _).mpr
  intro i p hp
  have hi : i = 0 := by
    have := (List.getElem?_eq_some_iff.mp hp).1
    simpa using this
  subst hi
  cases hp
  have hdiviation := newYearPacket_diviation 120
  have hmeasured : Beyond (strtol "1".toList) ((newYearPacket 120).measured fun _ => newYear) := by
    rw [SyncTime.measured_eq (by rw [hdiviation]; decide), hdiviation]
    decide
  have hbeyond : Beyond (60 * strtol "1".toList) ((newYearPacket 120).diviation fun _ => newYear) := by
    rw [hdiviation]
    decide
  exact ⟨fun _ hnot => absurd hbeyond hnot, fun _ hnot => absurd hmeasured hnot, by simp⟩

end Ritex
