import Ritex.BusDiscipline
import Ritex.ChangeLog

/-! The log of the settings: the events of type 11 tell how every setting came to its value, whether
a packet or a remote command changed it. -/
namespace Ritex
open ChangeLog

/-! ### Rows of the table -/

theorem allSettings_name_nodup : (allSettings.map Setting.name).Nodup := by decide +kernel

theorem settingName_inj {i j : ℕ} {row row' : Setting} (hi : allSettings[i]? = some row)
    (hj : allSettings[j]? = some row') : row.name = row'.name ↔ i = j := by
  constructor
  · intro hname
    obtain ⟨hlti, -⟩ := List.getElem?_eq_some_iff.mp hi
    have hlength : i < (allSettings.map Setting.name).length := by simpa using hlti
    exact (List.getElem?_inj hlength allSettings_name_nodup).mp (by simp [hi, hj, hname])
  · rintro rfl
    rw [hi] at hj
    rw [Option.some.inj hj]

/-- The big-endian value that settings carry for a row. -/
def packetValue (payload : List Byte) (row : Setting) : Word :=
  if row.size = 1 then (payload.getD row.offset.toNat 0).setWidth 16
  else payload.getD row.offset.toNat 0 ++ payload.getD (row.offset.toNat + 1) 0

/-- The rows that a packet is compared with. -/
def Setting.InView (row : Setting) : Prop := row.isVisible = true ∧ row.offset ≠ -1

theorem getSettingFromPacket_value {payload : List Byte} {memory : ℕ → Byte}
    (hmemory : ∀ i < payload.length, memory i = payload.getD i 0) {row : Setting}
    (hend : row.offset.toNat + row.size ≤ payload.length) (hsize : row.size = 1 ∨ row.size = 2) :
    (getSettingFromPacket row.offset.toNat row.size).value memory = packetValue payload row := by
  unfold getSettingFromPacket packetValue
  rcases hsize with hsize | hsize
  · have hbyte := hmemory row.offset.toNat (by omega)
    rw [if_pos hsize, if_pos hsize, ← hbyte]
    rfl
  · have hhi := hmemory row.offset.toNat (by omega)
    have hlo := hmemory (row.offset.toNat + 1) (by omega)
    rw [if_neg (by omega), if_neg (by omega), ← hhi, ← hlo]
    exact swap16_ofMemory _ _

/-! ### Events and changes -/

structure Tells (e : DBEventCommon) (c : Change ℕ Word) : Prop where
  typeId : e.typeId = 11
  argument1 : e.argument1 = itoa c.newValue.toNat
  argument2 : e.argument2 = itoa c.oldValue.toNat
  argument3 : ∃ row, allSettings[c.key]? = some row ∧ e.argument3 = row.name

theorem settingEvent_tells (filter : ParameterFilter) (time : ℤ) {row : Setting} {i : ℕ}
    (hrow : allSettings[i]? = some row) (oldValue newValue : Word) (src : String) :
    Tells (settingEvent filter time newValue oldValue row.name src) ⟨i, oldValue, newValue⟩ :=
  ⟨rfl, rfl, rfl, row, hrow, rfl⟩

def TellsHow (values : SettingValues) (events : List DBEventCommon) (values' : SettingValues) : Prop :=
  ∃ log, List.Forall₂ Tells events log ∧
    Records (fun i => (values i).value) log (fun i => (values' i).value)

theorem TellsHow.refl (values : SettingValues) : TellsHow values [] values :=
  ⟨[], .nil, .refl _⟩

theorem TellsHow.trans {values values' values'' : SettingValues} {events events' : List DBEventCommon}
    (h : TellsHow values events values') (h' : TellsHow values' events' values'') :
    TellsHow values (events ++ events') values'' := by
  obtain ⟨log, htells, hrecords⟩ := h
  obtain ⟨log', htells', hrecords'⟩ := h'
  exact ⟨log ++ log', List.rel_append htells htells', hrecords.trans hrecords'⟩

theorem TellsHow.update {values : SettingValues} {i : ℕ} {newValue : Word} {e : DBEventCommon}
    (he : Tells e ⟨i, (values i).value, newValue⟩) :
    TellsHow values [e] (Function.update values i { values i with value := newValue }) := by
  refine ⟨[⟨i, (values i).value, newValue⟩], .cons he .nil, ?_⟩
  have hupdate : (fun j => (Function.update values i { values i with value := newValue } j).value) =
      Function.update (fun j => (values j).value) i newValue := by
    funext j
    by_cases hj : j = i
    · subst hj
      simp
    · simp [hj]
  rw [hupdate]
  exact .update _ i newValue

/-! ### The check of a packet -/

section Check

variable (filter : ParameterFilter) (isFirst : Bool) (systemTime : ℤ)

def Indexed (rows : List (Setting × ℕ)) : Prop := ∀ r ∈ rows, allSettings[r.2]? = some r.1

theorem zipIdx_snd_nodup : (allSettings.zipIdx.map Prod.snd).Nodup := by
  rw [List.zipIdx_map_snd]
  exact List.nodup_range'

theorem indexed_zipIdx : Indexed allSettings.zipIdx := fun _ hr =>
  List.mem_zipIdx_iff_getElem?.mp hr

variable {filter isFirst systemTime} {row : Setting} {i : ℕ} {rows : List (Setting × ℕ)}
  {values : SettingValues} {memory : ℕ → Byte}

theorem checkSettigs_skip (h : ¬row.InView) :
    checkSettigs filter isFirst systemTime ((row, i) :: rows) values =
      checkSettigs filter isFirst systemTime rows values := by
  have hskip : (!row.isVisible || row.offset == -1) = true := by
    rw [Setting.InView] at h
    simp only [Bool.or_eq_true, Bool.not_eq_true', beq_iff_eq]
    by_contra hview
    rw [not_or, Bool.not_eq_false] at hview
    exact h hview
  rw [checkSettigs, if_pos hskip]

/-- What the check makes of a row with a value: the values and the event, if any. -/
def settleRow (filter : ParameterFilter) (isFirst : Bool) (systemTime : ℤ) (values : SettingValues)
    (row : Setting) (i : ℕ) (newValue : Word) : SettingValues × List DBEventCommon :=
  if isFirst && !(values i).isValueSet || newValue != (values i).value then
    (Function.update values i { values i with value := newValue },
      [settingEvent filter systemTime newValue (values i).value row.name (changeSource isFirst)])
  else (values, [])

theorem checkSettigs_cons (h : row.InView) {newValue : Word}
    (hnew : (getSettingFromPacket row.offset.toNat row.size).value memory = newValue) :
    (checkSettigs filter isFirst systemTime ((row, i) :: rows) values).value memory =
      (((checkSettigs filter isFirst systemTime rows
          (settleRow filter isFirst systemTime values row i newValue).1).value memory).1,
        (settleRow filter isFirst systemTime values row i newValue).2 ++
          ((checkSettigs filter isFirst systemTime rows
            (settleRow filter isFirst systemTime values row i newValue).1).value memory).2) := by
  have hview : ¬(!row.isVisible || row.offset == -1) = true := by
    simp [h.1, h.2]
  rw [checkSettigs, if_neg hview]
  show PayloadReader.value (if isFirst && !(values i).isValueSet ||
    (getSettingFromPacket row.offset.toNat row.size).value memory != (values i).value then _
      else _) memory = _
  rw [hnew, settleRow]
  by_cases hreported : (isFirst && !(values i).isValueSet || newValue != (values i).value) = true
  · rw [if_pos hreported, if_pos hreported]
    subst hnew
    rfl
  · rw [if_neg hreported, if_neg hreported]
    rfl

theorem settleRow_tellsHow (hrow : allSettings[i]? = some row) (newValue : Word) :
    TellsHow values (settleRow filter isFirst systemTime values row i newValue).2
      (settleRow filter isFirst systemTime values row i newValue).1 := by
  unfold settleRow
  split
  · exact .update (settingEvent_tells filter systemTime hrow _ _ _)
  · exact .refl values

theorem settleRow_value (newValue : Word) :
    ((settleRow filter isFirst systemTime values row i newValue).1 i).value = newValue := by
  unfold settleRow
  split
  next => simp
  next hsame =>
    simp only [Bool.or_eq_true, not_or, bne_iff_ne, not_not] at hsame
    exact hsame.2.symm

theorem settleRow_of_ne (newValue : Word) {j : ℕ} (hj : j ≠ i) :
    (settleRow filter isFirst systemTime values row i newValue).1 j = values j := by
  unfold settleRow
  split
  · exact Function.update_of_ne hj _ _
  · rfl

theorem settleRow_same : settleRow filter false systemTime values row i (values i).value = (values, []) := by
  simp [settleRow]

theorem checkSettigs_tellsHow (hrows : Indexed rows) (values : SettingValues) (memory : ℕ → Byte) :
    TellsHow values ((checkSettigs filter isFirst systemTime rows values).value memory).2
      ((checkSettigs filter isFirst systemTime rows values).value memory).1 := by
  induction rows generalizing values with
  | nil => exact .refl values
  | cons r rows ih =>
    obtain ⟨row, i⟩ := r
    have hrow : allSettings[i]? = some row := hrows _ List.mem_cons_self
    have hrest : Indexed rows := fun r hr => hrows r (List.mem_cons_of_mem _ hr)
    by_cases hview : row.InView
    · rw [checkSettigs_cons hview rfl]
      exact (settleRow_tellsHow hrow _).trans (ih hrest _)
    · rw [checkSettigs_skip hview]
      exact ih hrest values

theorem checkSettigs_of_not_mem {j : ℕ} (hj : j ∉ rows.map Prod.snd) (values : SettingValues) :
    ((checkSettigs filter isFirst systemTime rows values).value memory).1 j = values j := by
  induction rows generalizing values with
  | nil => rfl
  | cons r rows ih =>
    obtain ⟨row, i⟩ := r
    rw [List.map_cons, List.mem_cons, not_or] at hj
    by_cases hview : row.InView
    · rw [checkSettigs_cons hview rfl]
      exact (ih hj.2 _).trans (settleRow_of_ne _ hj.1)
    · rw [checkSettigs_skip hview]
      exact ih hj.2 values

theorem checkSettigs_value (hrows : (rows.map Prod.snd).Nodup) (values : SettingValues)
    (hmem : (row, i) ∈ rows) (hview : row.InView) :
    (((checkSettigs filter isFirst systemTime rows values).value memory).1 i).value =
      (getSettingFromPacket row.offset.toNat row.size).value memory := by
  induction rows generalizing values with
  | nil => cases hmem
  | cons r rows ih =>
    rw [List.map_cons, List.nodup_cons] at hrows
    rcases List.mem_cons.mp hmem with rfl | hlater
    · rw [checkSettigs_cons hview rfl]
      exact (congrArg _ (checkSettigs_of_not_mem hrows.1 _)).trans (settleRow_value _)
    · obtain ⟨row', i'⟩ := r
      by_cases hview' : row'.InView
      · rw [checkSettigs_cons hview' rfl]
        exact ih hrows.2 _ hlater
      · rw [checkSettigs_skip hview']
        exact ih hrows.2 values hlater

theorem checkSettigs_same (hvalues : ∀ r ∈ rows, r.1.InView →
      (getSettingFromPacket r.1.offset.toNat r.1.size).value memory = (values r.2).value) :
    (checkSettigs filter false systemTime rows values).value memory = (values, []) := by
  induction rows with
  | nil => rfl
  | cons r rows ih =>
    obtain ⟨row, i⟩ := r
    have hrest := ih fun r hr => hvalues r (List.mem_cons_of_mem _ hr)
    by_cases hview : row.InView
    · rw [checkSettigs_cons hview (hvalues _ List.mem_cons_self hview), settleRow_same, hrest]
      rfl
    · rw [checkSettigs_skip hview]
      exact hrest

/-- Every event of a check reports a row in view, with the value in the packet. -/
theorem mem_checkSettigs (hrows : (rows.map Prod.snd).Nodup) {values : SettingValues}
    {e : DBEventCommon} (he : e ∈ ((checkSettigs filter isFirst systemTime rows values).value memory).2) :
    ∃ row i, (row, i) ∈ rows ∧ row.InView ∧
      (isFirst && !(values i).isValueSet ||
        (getSettingFromPacket row.offset.toNat row.size).value memory != (values i).value) = true ∧
      e = settingEvent filter systemTime
        ((getSettingFromPacket row.offset.toNat row.size).value memory) (values i).value row.name
        (changeSource isFirst) := by
  induction rows generalizing values with
  | nil => cases he
  | cons r rows ih =>
    obtain ⟨row, i⟩ := r
    rw [List.map_cons, List.nodup_cons] at hrows
    by_cases hview : row.InView
    · rw [checkSettigs_cons hview rfl] at he
      rcases List.mem_append.mp he with he | he
      · unfold settleRow at he
        split at he
        next hreported => exact ⟨row, i, List.mem_cons_self, hview, hreported, List.mem_singleton.mp he⟩
        next => cases he
      · obtain ⟨row', i', hmem, hview', hreported, heq⟩ := ih hrows.2 he
        have hne : i' ≠ i := by
          rintro rfl
          exact hrows.1 (List.mem_map.mpr ⟨_, hmem, rfl⟩)
        rw [settleRow_of_ne _ hne] at hreported heq
        exact ⟨row', i', List.mem_cons_of_mem _ hmem, hview', hreported, heq⟩
    · rw [checkSettigs_skip hview] at he
      obtain ⟨row', i', hmem, hfound⟩ := ih hrows.2 he
      exact ⟨row', i', List.mem_cons_of_mem _ hmem, hfound⟩

end Check

/-! ### Operations on the table -/

/-- An `ACK_ALL_SETTINGS` that `ReadPacket` accepts. -/
abbrev SettingsFrame := { f : Frame // f.cmd.setWidth 16 = ackAllSettings }

/-- What changes the table, each with the time it is done at. -/
inductive SettingsOp
  /-- `CheckSettigsChanged`, on the packet read in this mode and with these bytes behind it. -/
  | check (f : SettingsFrame) (writeMode : BitVec 32) (beyond : ℕ → Byte) (systemTime : ℤ)
  | reply (c : { c : CmdExternal // c.cmdId = reqSettingSet }) (f : SettingsFrame)
      (writeMode : BitVec 32) (beyond : ℕ → Byte) (systemTime : ℤ)

/-- The table with the flag of the first packet. -/
structure DeviceSettings where
  values : SettingValues
  isFirst : Bool

def DeviceSettings.apply (filter : ParameterFilter) (s : DeviceSettings) :
    SettingsOp → DeviceSettings × List DBEventCommon
  | .check f writeMode beyond systemTime =>
    let (values, events) := (checkSettigsChanged filter s.isFirst systemTime s.values).value
      ((f.1.packet writeMode systemTime).memory beyond)
    (⟨values, false⟩, events)
  | .reply c f writeMode beyond systemTime =>
    match (externalReply filter c s.values systemTime (f.1.packet writeMode systemTime)).value
        ((f.1.packet writeMode systemTime).memory beyond) with
    | some reply => (⟨reply.values, s.isFirst⟩, reply.events)
    | none => (s, [])

def DeviceSettings.run (filter : ParameterFilter) (s : DeviceSettings) :
    List SettingsOp → DeviceSettings × List DBEventCommon
  | [] => (s, [])
  | op :: ops =>
    let (s', events) := s.apply filter op
    let (s'', later) := s'.run filter ops
    (s'', events ++ later)

/-! ### Operations tell what they change -/

theorem SettingsFrame.length (f : SettingsFrame) : f.1.payload.length = 0x2F :=
  f.1.payload_length f.2 (by decide)

theorem SettingsFrame.memory (f : SettingsFrame) (writeMode : BitVec 32) (now : ℤ)
    (beyond : ℕ → Byte) (i : ℕ) (hi : i < f.1.payload.length) :
    (f.1.packet writeMode now).memory beyond i = f.1.payload.getD i 0 := by
  rw [f.1.memory_packet, List.getD_eq_getElem _ _ hi, List.getD_eq_getElem _ _ hi]

theorem SettingsFrame.value (f : SettingsFrame) (writeMode : BitVec 32) (now : ℤ)
    (beyond : ℕ → Byte) {row : Setting} (hrow : row ∈ allSettings) (hview : row.InView) :
    (getSettingFromPacket row.offset.toNat row.size).value
      ((f.1.packet writeMode now).memory beyond) = packetValue f.1.payload row := by
  obtain ⟨hsize, -, hend⟩ := allSettings_inside row hrow hview.1 hview.2
  refine getSettingFromPacket_value (f.memory writeMode now beyond) ?_ hsize
  rw [f.length]
  exact hend

theorem settingTemplates_index : ∀ t ∈ settingTemplates.map Prod.snd,
    (settingIndex t.param.toNat).isSome = true := by
  decide +kernel

theorem settingIndex_param1 (c : CmdExternal) (h : c.cmdId = reqSettingSet) :
    ∃ i, settingIndex c.param1.toNat = some i := by
  have hmem := c.template_mem
  rw [List.map_append, List.mem_append] at hmem
  rcases hmem with hset | hengine
  · exact Option.isSome_iff_exists.mp (settingTemplates_index _ hset)
  · exact absurd h (engineTemplates_cmd _ hengine)

theorem getSettingName_eq {id : ℤ} (hid : settingIdInRange id = true) {i : ℕ}
    (hi : settingIndex id = some i) :
    ∃ row, allSettings[i]? = some row ∧ getSettingName id = some row.name := by
  obtain ⟨hlt, hrow, hbefore⟩ := List.findIdx?_eq_some_iff_getElem.mp hi
  have hfind : allSettings.find? (fun row => row.id == id) = some allSettings[i] := by
    rw [List.find?_eq_some_iff_getElem]
    exact ⟨hrow, i, hlt, rfl, fun j hj => by simpa using hbefore j hj⟩
  refine ⟨allSettings[i], List.getElem?_eq_getElem hlt, ?_⟩
  rw [getSettingName, hid, hfind]
  rfl

/-- The reply to a changed setting stores the new value and tells of it, if it is another one. -/
theorem settingReply_eq (filter : ParameterFilter) {c : CmdExternal} (hc : c.cmdId = reqSettingSet)
    {i : ℕ} (hi : settingIndex c.param1.toNat = some i) (values : SettingValues) (now : ℤ) :
    ∃ row, allSettings[i]? = some row ∧ settingReply filter c values now =
      if (values i).value ≠ c.param2 then
        some ⟨"8;Уставка изменена\n",
          Function.update values i { values i with value := c.param2 },
          [settingEvent filter now c.param2 (values i).value row.name c.source]⟩
      else some ⟨"8;Уставка изменена\n", values, []⟩ := by
  have hid := c.param1_inRange hc
  obtain ⟨row, hrow, hname⟩ := getSettingName_eq hid hi
  refine ⟨row, hrow, ?_⟩
  have hset : setCurrentSettingValue values c.param1.toNat c.param2 =
      if (values i).value ≠ c.param2 then
        some (some (values i).value,
          Function.update values i { values i with value := c.param2 })
      else some (none, values) := by
    rw [setCurrentSettingValue, hid, hi]
    rfl
  rw [settingReply, hset]
  split
  next =>
    change (getSettingName c.param1.toNat).bind _ = _
    rw [hname]
    rfl
  next => rfl

theorem settingReply_tellsHow (filter : ParameterFilter) {c : CmdExternal}
    (hc : c.cmdId = reqSettingSet) {values : SettingValues} {now : ℤ} {reply : ExternalReply}
    (h : settingReply filter c values now = some reply) :
    TellsHow values reply.events reply.values := by
  obtain ⟨i, hi⟩ := settingIndex_param1 c hc
  obtain ⟨row, hrow, hreply⟩ := settingReply_eq filter hc hi values now
  rw [hreply] at h
  split at h
  next =>
    cases h
    exact .update (settingEvent_tells filter now hrow _ _ _)
  next =>
    cases h
    exact .refl values

theorem externalReply_settings (filter : ParameterFilter) {c : CmdExternal}
    (hc : c.cmdId = reqSettingSet) (values : SettingValues) (now : ℤ) (f : SettingsFrame)
    (writeMode : BitVec 32) (memory : ℕ → Byte) :
    (externalReply filter c values now (f.1.packet writeMode now)).value memory =
      settingReply filter c values now := by
  have hack : (f.1.packet writeMode now).cmd = ackAllSettings :=
    Processor.longCmd_eq_of_getCmd ((f.1.getCmd_packet writeMode now).trans f.2)
  rw [externalReply, if_pos hc, if_neg (by rw [hack]; decide), if_pos hack]
  rfl

theorem DeviceSettings.apply_tellsHow (filter : ParameterFilter) (s : DeviceSettings)
    (op : SettingsOp) : TellsHow s.values (s.apply filter op).2 (s.apply filter op).1.values := by
  cases op with
  | check f writeMode beyond systemTime => exact checkSettigs_tellsHow indexed_zipIdx _ _
  | reply c f writeMode beyond systemTime =>
    rw [DeviceSettings.apply, externalReply_settings filter c.2]
    cases hsome : settingReply filter c.1 s.values systemTime with
    | none => exact .refl _
    | some reply => exact settingReply_tellsHow filter c.2 hsome

theorem DeviceSettings.run_tellsHow (filter : ParameterFilter) (s : DeviceSettings)
    (ops : List SettingsOp) : TellsHow s.values (s.run filter ops).2 (s.run filter ops).1.values := by
  induction ops generalizing s with
  | nil => exact .refl _
  | cons op ops ih => exact (s.apply_tellsHow filter op).trans (ih (s.apply filter op).1)

theorem DeviceSettings.run_append (filter : ParameterFilter) (s : DeviceSettings)
    (ops ops' : List SettingsOp) :
    s.run filter (ops ++ ops') = (((s.run filter ops).1.run filter ops').1,
      (s.run filter ops).2 ++ ((s.run filter ops).1.run filter ops').2) := by
  induction ops generalizing s with
  | nil => simp [DeviceSettings.run]
  | cons op ops ih => simp [DeviceSettings.run, ih]

/-! ### Histories of a setting -/

def eventsOf (row : Setting) (events : List DBEventCommon) : List DBEventCommon :=
  events.filter fun e => e.typeId = 11 ∧ e.argument3 = row.name

/-- Every event names the value that the one before it ended with. -/
inductive SettingHistory : Word → List DBEventCommon → Word → Prop
  | nil (v : Word) : SettingHistory v [] v
  | cons {e : DBEventCommon} {events : List DBEventCommon} {v newValue v' : Word}
      (hold : e.argument2 = itoa v.toNat) (hnew : e.argument1 = itoa newValue.toNat)
      (h : SettingHistory newValue events v') : SettingHistory v (e :: events) v'

theorem settingHistory_of_chain {events : List DBEventCommon} {log : List (Change ℕ Word)}
    (htells : List.Forall₂ Tells events log) {v v' : Word} (h : Chain v log v') :
    SettingHistory v events v' := by
  induction h generalizing events with
  | nil v =>
    cases htells
    exact .nil v
  | cons c _ ih =>
    cases htells with
    | cons he hrest => exact .cons he.argument2 he.argument1 (ih hrest)

theorem eventsOf_tells {events : List DBEventCommon} {log : List (Change ℕ Word)}
    (htells : List.Forall₂ Tells events log) {i : ℕ} {row : Setting}
    (hrow : allSettings[i]? = some row) : List.Forall₂ Tells (eventsOf row events) (ofKey i log) := by
  refine List.rel_filter ?_ htells
  intro e c he
  obtain ⟨row', hrow', hname⟩ := he.argument3
  simp only [decide_eq_true_eq, he.typeId, true_and, hname]
  exact settingName_inj hrow' hrow

theorem TellsHow.history {values values' : SettingValues} {events : List DBEventCommon}
    (h : TellsHow values events values') {i : ℕ} {row : Setting}
    (hrow : allSettings[i]? = some row) :
    SettingHistory (values i).value (eventsOf row events) (values' i).value := by
  obtain ⟨log, htells, hrecords⟩ := h
  exact settingHistory_of_chain (eventsOf_tells htells hrow) (hrecords i)

theorem DeviceSettings.apply_check_value (filter : ParameterFilter) (s : DeviceSettings)
    (f : SettingsFrame) (writeMode : BitVec 32) (beyond : ℕ → Byte) (systemTime : ℤ) {i : ℕ}
    {row : Setting} (hrow : allSettings[i]? = some row) (hview : row.InView) :
    ((s.apply filter (.check f writeMode beyond systemTime)).1.values i).value =
      packetValue f.1.payload row := by
  have hmem : (row, i) ∈ allSettings.zipIdx := List.mem_zipIdx_iff_getElem?.mpr hrow
  have hvalue : (((checkSettigs filter s.isFirst systemTime allSettings.zipIdx s.values).value
      ((f.1.packet writeMode systemTime).memory beyond)).1 i).value = _ :=
    checkSettigs_value zipIdx_snd_nodup s.values hmem hview
  exact hvalue.trans (f.value writeMode systemTime beyond (List.mem_of_getElem? hrow) hview)

theorem DeviceSettings.apply_check_twice (filter : ParameterFilter) (s : DeviceSettings)
    (f : SettingsFrame) (writeMode writeMode' : BitVec 32) (beyond beyond' : ℕ → Byte)
    (systemTime systemTime' : ℤ) :
    (s.apply filter (.check f writeMode beyond systemTime)).1.apply filter
        (.check f writeMode' beyond' systemTime') =
      ((s.apply filter (.check f writeMode beyond systemTime)).1, []) := by
  generalize hs' : (s.apply filter (.check f writeMode beyond systemTime)).1 = s'
  have hfirst : s'.isFirst = false := by
    rw [← hs']
    rfl
  have hvalues : ∀ r ∈ allSettings.zipIdx, r.1.InView →
      (getSettingFromPacket r.1.offset.toNat r.1.size).value
        ((f.1.packet writeMode' systemTime').memory beyond') = (s'.values r.2).value := by
    intro r hr hview
    have hrow := List.mem_zipIdx_iff_getElem?.mp hr
    rw [f.value writeMode' systemTime' beyond' (List.mem_of_getElem? hrow) hview, ← hs']
    exact (s.apply_check_value filter f writeMode beyond systemTime hrow hview).symm
  have hsame : (checkSettigsChanged filter s'.isFirst systemTime' s'.values).value
      ((f.1.packet writeMode' systemTime').memory beyond') = (s'.values, []) := by
    rw [hfirst]
    exact checkSettigs_same hvalues
  rw [DeviceSettings.apply, hsame]
  cases s'
  cases hfirst
  rfl

/-- In every sequence of checks and remote changes from any table on: no check reads behind its
packet, the events of every setting lead from its first value to its last, a check leaves every row in
view with the value in the packet, and the same check once more does nothing. -/
theorem settings_history (filter : ParameterFilter) (s : DeviceSettings) (ops : List SettingsOp)
    (f : SettingsFrame) (writeMode writeMode' : BitVec 32) (beyond beyond' : ℕ → Byte)
    (systemTime systemTime' : ℤ) :
    (∀ isFirst values, (checkSettigsChanged filter isFirst systemTime values).Inside
      f.1.payload.length) ∧
    (∀ i row, allSettings[i]? = some row → SettingHistory (s.values i).value
      (eventsOf row (s.run filter ops).2) ((s.run filter ops).1.values i).value) ∧
    (∀ i row, allSettings[i]? = some row → row.InView →
      ((s.run filter (ops ++ [.check f writeMode beyond systemTime])).1.values i).value =
        packetValue f.1.payload row) ∧
    s.run filter (ops ++ [.check f writeMode beyond systemTime,
        .check f writeMode' beyond' systemTime']) =
      s.run filter (ops ++ [.check f writeMode beyond systemTime]) := by
  refine ⟨fun isFirst values => ?_, fun i row hrow => ?_, fun i row hrow hview => ?_, ?_⟩
  · rw [f.length]
    exact checkSettigsChanged_inside filter isFirst systemTime values
  · exact (s.run_tellsHow filter ops).history hrow
  · rw [s.run_append]
    exact DeviceSettings.apply_check_value filter _ f writeMode beyond systemTime hrow hview
  · have htwice := DeviceSettings.apply_check_twice filter (s.run filter ops).1 f writeMode writeMode'
      beyond beyond' systemTime systemTime'
    rw [s.run_append, s.run_append]
    simp only [DeviceSettings.run, htwice, List.append_nil]

end Ritex
