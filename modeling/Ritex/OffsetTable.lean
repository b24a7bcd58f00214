import Ritex.ChannelRecords
import Ritex.DeviceCommands

/-! The offset table over the attempts to start the measurements. An attempt extends the table before
it opens the port, so that every attempt that fails leaves another copy of every entry. -/
namespace Ritex

/-- The device with the table that `CreateOffsetTable` extends. -/
structure MeasuringDevice where
  device : DeviceState
  offsetTable : List OffsetTableEntry

namespace MeasuringDevice

def startMesurements (filter : ParameterFilter) (d : MeasuringDevice) (x : Circumstances) :
    Bool × MeasuringDevice :=
  if d.device.isRunning then (false, d)
  else
    let offsetTable := d.offsetTable ++ createOffsetTable filter
    let (result, device) := d.device.create x false
    (result, ⟨device, offsetTable⟩)

/-- The device behind some attempts. -/
def attempts (filter : ParameterFilter) (d : MeasuringDevice) (xs : List Circumstances) :
    MeasuringDevice :=
  xs.foldl (fun d x => (d.startMesurements filter x).2) d

/-- A device on which nothing has been started. -/
def fresh (timeDiviation : ℤ) : MeasuringDevice := ⟨⟨false, false, timeDiviation⟩, []⟩

/-- Without its table this is the device of the server. -/
theorem startMesurements_device (filter : ParameterFilter) (d : MeasuringDevice) (x : Circumstances) :
    ((d.startMesurements filter x).1, (d.startMesurements filter x).2.device) =
      Ritex.startMesurements d.device x := by
  unfold startMesurements Ritex.startMesurements
  split <;> rfl

variable {filter : ParameterFilter} {d : MeasuringDevice} {x : Circumstances}

theorem startMesurements_failed (hrunning : d.device.isRunning = false) (hx : x.isOpened = false) :
    (d.startMesurements filter x).2 = ⟨d.device, d.offsetTable ++ createOffsetTable filter⟩ := by
  simp [startMesurements, DeviceState.create, hrunning, hx]

theorem startMesurements_table (h : (d.startMesurements filter x).1 = true) :
    (d.startMesurements filter x).2.offsetTable = d.offsetTable ++ createOffsetTable filter := by
  unfold startMesurements at h ⊢
  split at h
  next => cases h
  next hrunning => rw [if_neg hrunning]

theorem attempts_failed (hrunning : d.device.isRunning = false) {xs : List Circumstances}
    (h : ∀ x ∈ xs, x.isOpened = false) : d.attempts filter xs =
      ⟨d.device, d.offsetTable ++ (List.replicate xs.length (createOffsetTable filter)).flatten⟩ := by
  induction xs generalizing d with
  | nil => simp [attempts]
  | cons x xs ih =>
    have hx : (d.startMesurements filter x).2 = _ :=
      startMesurements_failed hrunning (h x List.mem_cons_self)
    have hrest := ih (d := (d.startMesurements filter x).2) (by rw [hx]; exact hrunning)
      fun x hx => h x (List.mem_cons_of_mem _ hx)
    rw [attempts, List.foldl_cons]
    refine hrest.trans ?_
    simp [hx, List.replicate_succ]

end MeasuringDevice

/-! ### Records of the filter -/

/-- Where the station sends the parameter of an item, if the topology knows it. -/
def ParameterFilterEntry.controllerData (item : ParameterFilterEntry) : Option ControllerData :=
  (findGarameter item.paramId).bind AdapterParameter.controllerData

/-- The one record of an item for a packet with its command. -/
def ParameterFilterEntry.record (packet : DataPacket) (item : ParameterFilterEntry) :
    Option DBDataPacket :=
  match item.controllerData with
  | some data =>
    if data.cmd = packet.cmd then
      some ⟨item.channelId, item.paramId, packet.timestamp,
        if data.size = 1 then (packet.data.getD data.offset 0).toNat
        else (packet.data.getD data.offset 0 ++ packet.data.getD (data.offset + 1) 0 : Word).toNat⟩
    else none
  | none => none

theorem ParameterFilterEntry.record_eq_none_iff {packet : DataPacket} {item : ParameterFilterEntry} :
    item.record packet = none ↔
      ∀ data, item.controllerData = some data → data.cmd ≠ packet.cmd := by
  rw [ParameterFilterEntry.record]
  cases item.controllerData with
  | none => simp
  | some data =>
    by_cases hcmd : data.cmd = packet.cmd <;> simp [hcmd]

/-- The payload reaches over the parameters of the filter that come with the packet's command. -/
def CoversFilter (filter : ParameterFilter) (packet : DataPacket) : Prop :=
  ∀ item ∈ filter, ∀ data, item.controllerData = some data → data.cmd = packet.cmd →
    data.offset + data.size ≤ packet.data.length

theorem offsetTableEntry_eq (item : ParameterFilterEntry) : offsetTableEntry item =
    item.controllerData.map fun data =>
      ⟨item.paramId, item.channelId, data.cmd, data.offset, data.size⟩ := by
  unfold offsetTableEntry ParameterFilterEntry.controllerData
  cases findGarameter item.paramId with
  | none => rfl
  | some param =>
    rw [Option.bind_eq_bind, Option.bind_some, Option.bind_some]
    cases param.controllerData <;> rfl

theorem createOffsetTable_records (filter : ParameterFilter) (packet : DataPacket) :
    ((createOffsetTable filter).filter fun entry => entry.cmd = packet.cmd).map (channelRecord packet) =
      filter.filterMap (ParameterFilterEntry.record packet) := by
  induction filter with
  | nil => rfl
  | cons item filter ih =>
    have hitem : createOffsetTable (item :: filter) =
        (offsetTableEntry item).toList ++ createOffsetTable filter := by
      rw [createOffsetTable, List.filterMap_cons]
      cases offsetTableEntry item <;> rfl
    rw [hitem, List.filter_append, List.map_append, ih, List.filterMap_cons, offsetTableEntry_eq,
      ParameterFilterEntry.record]
    cases item.controllerData with
    | none => rfl
    | some data =>
      by_cases hcmd : data.cmd = packet.cmd <;> simp [hcmd, channelRecord, payloadValue]

theorem covers_createOffsetTable {filter : ParameterFilter} {packet : DataPacket}
    (h : CoversFilter filter packet) {entry : OffsetTableEntry}
    (hentry : entry ∈ createOffsetTable filter) (hcmd : entry.cmd = packet.cmd) :
    Covers packet.data entry := by
  obtain ⟨item, hitem, hmade⟩ := List.mem_filterMap.mp hentry
  rw [offsetTableEntry_eq] at hmade
  obtain ⟨data, hdata, rfl⟩ := Option.map_eq_some_iff.mp hmade
  exact ⟨entry_size hentry, h item hitem data hdata hcmd⟩

/-- The records of a device whose table holds so many copies of the entries of the filter. -/
theorem reportDataPacket_copies {filter : ParameterFilter} {packet : DataPacket}
    (h : CoversFilter filter packet) (n : ℕ) (beyond : ℕ → Byte) :
    (reportDataPacket (List.replicate n (createOffsetTable filter)).flatten packet).value
        (packet.memory beyond) =
      (List.replicate n (filter.filterMap (ParameterFilterEntry.record packet))).flatten := by
  rw [reportDataPacket_value, List.filter_flatten, List.map_flatten, List.map_replicate,
    List.map_replicate, createOffsetTable_records]
  intro entry hentry hcmd
  obtain ⟨copy, hcopy, hentry⟩ := List.mem_flatten.mp hentry
  rw [List.eq_of_mem_replicate hcopy] at hentry
  exact covers_createOffsetTable h hentry hcmd

theorem flatten_replicate_perm_iff {α : Type} (n : ℕ) (l : List α) :
    ((List.replicate (n + 1) l).flatten).Perm l ↔ n = 0 ∨ l = [] := by
  constructor
  · intro hperm
    have hlength := hperm.length_eq
    rw [List.length_flatten, List.map_replicate, List.sum_replicate, smul_eq_mul] at hlength
    by_cases hn : n = 0
    · exact Or.inl hn
    · refine Or.inr (List.length_eq_zero_iff.mp ?_)
      have : 0 < n * l.length ∨ l.length = 0 := by
        rcases Nat.eq_zero_or_pos l.length with hl | hl
        · exact Or.inr hl
        · exact Or.inl (Nat.mul_pos (by omega) hl)
      rw [Nat.add_mul] at hlength
      omega
  · rintro (rfl | rfl)
    · simp
    · simp

/-- Every attempt has failed at the port but the last, and that one has succeeded. -/
structure LastStarted (filter : ParameterFilter) (d : MeasuringDevice) (failed : List Circumstances)
    (last : Circumstances) : Prop where
  unopened : ∀ x ∈ failed, x.isOpened = false
  succeeded : ((d.attempts filter failed).startMesurements filter last).1 = true

/-- Once the measurements have started, a packet makes one record for each item of the filter that it
carries if and only if no attempt has failed before, or it carries none. -/
theorem records_once_iff (filter : ParameterFilter) (timeDiviation : ℤ) {failed : List Circumstances}
    {last : Circumstances} (hstarted : LastStarted filter (.fresh timeDiviation) failed last)
    {packet : DataPacket} (hcovers : CoversFilter filter packet) (beyond : ℕ → Byte) :
    ((reportDataPacket (((MeasuringDevice.fresh timeDiviation).attempts filter failed).startMesurements
        filter last).2.offsetTable packet).value (packet.memory beyond)).Perm
      (filter.filterMap (ParameterFilterEntry.record packet)) ↔
    failed = [] ∨ ∀ item ∈ filter, ∀ data, item.controllerData = some data → data.cmd ≠ packet.cmd := by
  have hattempts : (MeasuringDevice.fresh timeDiviation).attempts filter failed = _ :=
    MeasuringDevice.attempts_failed rfl hstarted.unopened
  have htable : (((MeasuringDevice.fresh timeDiviation).attempts filter failed).startMesurements
      filter last).2.offsetTable =
      (List.replicate (failed.length + 1) (createOffsetTable filter)).flatten := by
    rw [MeasuringDevice.startMesurements_table hstarted.succeeded, hattempts]
    simp [MeasuringDevice.fresh, List.replicate_succ']
  rw [htable, reportDataPacket_copies hcovers, flatten_replicate_perm_iff, List.length_eq_zero_iff,
    List.filterMap_eq_nil_iff]
  simp only [ParameterFilterEntry.record_eq_none_iff]

/-! ### A port that is busy at first -/

/-- One parameter of mode 3, in the bytes 10 and 11. -/
def mode3Filter : ParameterFilter := [⟨7, 1080105040⟩]

def mode3Packet : DataPacket :=
  ⟨.ack, ksuAddress, ackInfoMode 3, 0, List.replicate 17 1, by decide⟩

theorem mode3Filter_covered : CoversFilter mode3Filter mode3Packet := by
  unfold CoversFilter
  decide

def busyPort : Circumstances := ⟨0, 0, [], false, false⟩

def freePort : Circumstances := ⟨0, 0, [], true, true⟩

theorem records_once_free :
    ((reportDataPacket (((MeasuringDevice.fresh 300).attempts mode3Filter []).startMesurements
        mode3Filter freePort).2.offsetTable mode3Packet).value (mode3Packet.memory fun _ => 0)).Perm
      (mode3Filter.filterMap (ParameterFilterEntry.record mode3Packet)) := by
  have hstarted : LastStarted mode3Filter (.fresh 300) [] freePort :=
    ⟨by simp, by decide⟩
  exact (records_once_iff mode3Filter 300 hstarted mode3Filter_covered _).mpr (Or.inl rfl)

/-- Behind one attempt that failed every record is made twice. -/
theorem records_once_busy : ¬∀ (filter : ParameterFilter) (timeDiviation : ℤ)
    (failed : List Circumstances) (last : Circumstances) (packet : DataPacket) (beyond : ℕ → Byte),
    LastStarted filter (.fresh timeDiviation) failed last → CoversFilter filter packet →
    ((reportDataPacket (((MeasuringDevice.fresh timeDiviation).attempts filter failed).startMesurements
        filter last).2.offsetTable packet).value (packet.memory beyond)).Perm
      (filter.filterMap (ParameterFilterEntry.record packet)) := by
  intro hall
  have hstarted : LastStarted mode3Filter (.fresh 300) [busyPort] freePort := by
    refine ⟨fun x hx => ?_, by decide⟩
    rw [List.mem_singleton.mp hx]
    rfl
  have hlength := (hall mode3Filter 300 [busyPort] freePort mode3Packet (fun _ => 0) hstarted
    mode3Filter_covered).length_eq
  revert hlength
  decide +kernel

end Ritex
