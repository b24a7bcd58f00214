import Ritex.RegisterDates
import Ritex.SettingsHistory

/-! `RitexDevice::UpdateSettingsValues`: the values of the settings are taken from the events of
type 11 with the greatest date of each setting. The dates are texts of the local time. -/
namespace Ritex
open ChangeLog

/-- The column `registerdate` of an event as SQLite compares it, byte by byte. -/
def registerDateText (localtime : ℤ → Gateway.LocalTime) (e : DBEventCommon) : List ℕ :=
  (Gateway.timeToString localtime e.registerTimeDate).map BitVec.toNat

def groupDates (localtime : ℤ → Gateway.LocalTime) (table : List DBEventCommon) (name : String) :
    List (List ℕ) :=
  (table.filter fun e => e.typeId = 11 ∧ e.argument3 = name).map (registerDateText localtime)

/-- The rows of the query: those of the table joined with the greatest date of each `Argument3`. -/
def newestRows (localtime : ℤ → Gateway.LocalTime) (table : List DBEventCommon) :
    List DBEventCommon :=
  table.filter fun e =>
    (groupDates localtime table e.argument3).max? = some (registerDateText localtime e)

/-- `sqlite3_column_double` of a text that holds an unsigned number. -/
def columnDouble (text : String) : ℕ := Nat.ofDigitChars 10 (text.toList.takeWhile Char.isDigit) 0

def assignSetting (values : SettingValues) (e : DBEventCommon) : SettingValues :=
  match allSettings.findIdx? fun row => row.name == e.argument3 with
  | some i => Function.update values i ⟨BitVec.ofNat 16 (columnDouble e.argument1), true⟩
  | none => values

/-- `UpdateSettingsValues`, with the rows in the order in which the query returns them. -/
def updateSettingsValues (rows : List DBEventCommon) (values : SettingValues) : SettingValues :=
  rows.foldl assignSetting values

theorem columnDouble_itoa (n : ℕ) : columnDouble (itoa n) = n := by
  have hlist : (itoa n).toList = Nat.toDigits 10 n := Nat.toList_repr
  have hdigits : ∀ c ∈ Nat.toDigits 10 n, c.isDigit = true :=
    fun c hc => Nat.isDigit_of_mem_toDigits (by omega) (by omega) hc
  rw [columnDouble, hlist, List.takeWhile_eq_self_iff.mpr hdigits, Nat.ofDigitChars_ten_toDigits]

theorem ofNat_columnDouble_itoa (v : Word) : BitVec.ofNat 16 (columnDouble (itoa v.toNat)) = v := by
  rw [columnDouble_itoa, BitVec.ofNat_toNat, BitVec.setWidth_eq]

theorem settingIndex_name {i : ℕ} {row : Setting} (hrow : allSettings[i]? = some row) :
    (allSettings.findIdx? fun row' => row'.name == row.name) = some i := by
  obtain ⟨hlt, hget⟩ := List.getElem?_eq_some_iff.mp hrow
  refine List.findIdx?_eq_some_iff_getElem.mpr ⟨hlt, by simp [hget], fun j hj => ?_⟩
  have hjlt : j < allSettings.length := by omega
  rw [beq_iff_eq, settingName_inj (List.getElem?_eq_getElem hjlt) hrow]
  omega

/-! ### Rows of a setting -/

section Rows

variable {i : ℕ} {row : Setting} {values : SettingValues} {e : DBEventCommon}
  {rows : List DBEventCommon}

theorem assignSetting_of_eq (hrow : allSettings[i]? = some row) (he : e.argument3 = row.name) :
    assignSetting values e i = ⟨BitVec.ofNat 16 (columnDouble e.argument1), true⟩ := by
  rw [assignSetting, he, settingIndex_name hrow]
  exact Function.update_self i _ values

theorem assignSetting_of_ne (hrow : allSettings[i]? = some row) (he : e.argument3 ≠ row.name) :
    assignSetting values e i = values i := by
  cases hindex : allSettings.findIdx? fun row => row.name == e.argument3 with
  | none => rw [assignSetting, hindex]
  | some j =>
    obtain ⟨hlt, hname, -⟩ := List.findIdx?_eq_some_iff_getElem.mp hindex
    have hij : i ≠ j := by
      rintro rfl
      obtain ⟨_, hget⟩ := List.getElem?_eq_some_iff.mp hrow
      rw [hget, beq_iff_eq] at hname
      exact he hname.symm
    rw [assignSetting, hindex]
    exact Function.update_of_ne hij _ _

theorem updateSettingsValues_snoc (rows : List DBEventCommon) (e : DBEventCommon)
    (values : SettingValues) : updateSettingsValues (rows ++ [e]) values =
      assignSetting (updateSettingsValues rows values) e :=
  List.foldl_append

/-- Rows of a setting that all carry one value leave it with that value. -/
theorem updateSettingsValues_eq (hrow : allSettings[i]? = some row) {v : Word}
    (hsame : ∀ e ∈ rows, e.argument3 = row.name → e.argument1 = itoa v.toNat)
    (hsome : ∃ e ∈ rows, e.argument3 = row.name) : updateSettingsValues rows values i = ⟨v, true⟩ := by
  induction rows using List.reverseRecOn with
  | nil => simp at hsome
  | append_singleton rows e ih =>
    rw [updateSettingsValues_snoc]
    by_cases he : e.argument3 = row.name
    · rw [assignSetting_of_eq hrow he, hsame e (by simp) he, ofNat_columnDouble_itoa]
    · rw [assignSetting_of_ne hrow he]
      refine ih (fun e' he' => hsame e' (List.mem_append_left _ he')) ?_
      obtain ⟨e', hmem, he'⟩ := hsome
      rcases List.mem_append.mp hmem with hmem | hmem
      · exact ⟨e', hmem, he'⟩
      · rw [List.mem_singleton.mp hmem] at he'
        exact absurd he' he

end Rows

/-! ### Events of a run -/

def SettingsOp.systemTime : SettingsOp → ℤ
  | .check _ _ _ systemTime => systemTime
  | .reply _ _ _ _ systemTime => systemTime

theorem TellsHow.argument1 {values values' : SettingValues} {events : List DBEventCommon}
    (h : TellsHow values events values') {e : DBEventCommon} (he : e ∈ events) :
    e.typeId = 11 ∧ ∃ v : Word, e.argument1 = itoa v.toNat := by
  obtain ⟨log, htells, -⟩ := h
  obtain ⟨c, -, hc⟩ : ∃ c ∈ log, Tells e c := by
    induction htells with
    | nil => cases he
    | cons hec _ ih =>
      rcases List.mem_cons.mp he with rfl | he
      · exact ⟨_, List.mem_cons_self, hec⟩
      · obtain ⟨c, hc, hec⟩ := ih he
        exact ⟨c, List.mem_cons_of_mem _ hc, hec⟩
  exact ⟨hc.typeId, c.newValue, hc.argument1⟩

theorem SettingHistory.last {v v' : Word} {events : List DBEventCommon}
    (h : SettingHistory v events v') {last : DBEventCommon} (hlast : events.getLast? = some last) :
    last.argument1 = itoa v'.toNat := by
  induction h generalizing last with
  | nil v => cases hlast
  | @cons e events v newValue v' _ hnew hrest ih =>
    rw [List.getLast?_cons] at hlast
    cases hlater : events.getLast? with
    | none =>
      rw [List.getLast?_eq_none_iff] at hlater
      subst hlater
      cases hrest
      cases hlast
      exact hnew
    | some e' =>
      rw [hlater] at hlast
      cases hlast
      exact ih hlater

/-! ### Restarts -/

/-- The event has the greatest date of the setting. -/
def NewestDate (localtime : ℤ → Gateway.LocalTime) (row : Setting) (events : List DBEventCommon)
    (e : DBEventCommon) : Prop :=
  ∀ e' ∈ eventsOf row events, registerDateText localtime e' ≤ registerDateText localtime e

/-- The events of the setting with its greatest date all carry its last value. -/
def NewestDateAgrees (localtime : ℤ → Gateway.LocalTime) (row : Setting)
    (events : List DBEventCommon) : Prop :=
  ∀ last, (eventsOf row events).getLast? = some last → ∀ e ∈ eventsOf row events,
    NewestDate localtime row events e → e.argument1 = last.argument1

/-- The setting has its value again, and a first packet with this value is not reported. -/
structure Survives (filter : ParameterFilter) (i : ℕ) (row : Setting)
    (before after : SettingValues) : Prop where
  value : (after i).value = (before i).value
  unreported : ∀ (f : SettingsFrame) writeMode beyond systemTime,
    packetValue f.1.payload row = (before i).value → eventsOf row
      ((⟨after, true⟩ : DeviceSettings).apply filter (.check f writeMode beyond systemTime)).2 = []

theorem groupDates_max_iff {localtime : ℤ → Gateway.LocalTime} {events : List DBEventCommon}
    {row : Setting} {e : DBEventCommon} (he : e ∈ eventsOf row events) :
    (groupDates localtime events row.name).max? = some (registerDateText localtime e) ↔
      NewestDate localtime row events e := by
  have hdates : groupDates localtime events row.name =
      (eventsOf row events).map (registerDateText localtime) := rfl
  rw [List.max?_eq_some_iff, hdates, List.forall_mem_map]
  exact and_iff_right (List.mem_map_of_mem he)

theorem exists_newestDate (localtime : ℤ → Gateway.LocalTime) {events : List DBEventCommon}
    {row : Setting} (h : eventsOf row events ≠ []) :
    ∃ e ∈ eventsOf row events, NewestDate localtime row events e := by
  obtain ⟨date, hmax⟩ := Option.isSome_iff_exists.mp (List.isSome_max?_of_ne_nil
    (List.map_eq_nil_iff.not.mpr h : (eventsOf row events).map (registerDateText localtime) ≠ []))
  obtain ⟨e, he, rfl⟩ := List.mem_map.mp (List.max?_mem hmax)
  exact ⟨e, he, (groupDates_max_iff he).mp hmax⟩

/-- The rows of the query for a setting are its events with its greatest date. -/
theorem mem_newestRows {localtime : ℤ → Gateway.LocalTime} {events : List DBEventCommon}
    {row : Setting} {e : DBEventCommon} (htype : e.typeId = 11) (hname : e.argument3 = row.name) :
    e ∈ newestRows localtime events ↔ e ∈ eventsOf row events ∧ NewestDate localtime row events e := by
  rw [newestRows, List.mem_filter, hname, decide_eq_true_iff]
  have hof : e ∈ eventsOf row events ↔ e ∈ events := by
    rw [eventsOf, List.mem_filter]
    exact and_iff_left (decide_eq_true ⟨htype, hname⟩)
  rw [hof]
  exact and_congr_right fun he => groupDates_max_iff (hof.mpr he)

theorem eventsOf_check_eq_nil {filter : ParameterFilter} {i : ℕ} {row : Setting}
    (hrow : allSettings[i]? = some row) {values : SettingValues} {f : SettingsFrame}
    (hset : (values i).isValueSet = true) (hvalue : packetValue f.1.payload row = (values i).value)
    (writeMode : BitVec 32) (beyond : ℕ → Byte) (systemTime : ℤ) :
    eventsOf row ((⟨values, true⟩ : DeviceSettings).apply filter
      (.check f writeMode beyond systemTime)).2 = [] := by
  rw [eventsOf, List.filter_eq_nil_iff]
  intro e he hof
  obtain ⟨row', i', hmem, hview, hreported, rfl⟩ := mem_checkSettigs zipIdx_snd_nodup he
  have hrow' := List.mem_zipIdx_iff_getElem?.mp hmem
  have hname : row'.name = row.name := (of_decide_eq_true hof).2
  obtain rfl := (settingName_inj hrow' hrow).mp hname
  obtain rfl : row' = row := Option.some.inj (hrow'.symm.trans hrow)
  rw [f.value writeMode systemTime beyond (List.mem_of_getElem? hrow) hview] at hreported
  simp [hset, hvalue] at hreported

/-- Whatever the local clock shows, the setting survives a restart for every order in which the query
returns its rows exactly if its events with its greatest date all carry its last value. -/
theorem restart_survives_iff (localtime : ℤ → Gateway.LocalTime) (filter : ParameterFilter)
    (s : DeviceSettings) (ops : List SettingsOp) (values : SettingValues) {i : ℕ} {row : Setting}
    (hrow : allSettings[i]? = some row) (hevent : eventsOf row (s.run filter ops).2 ≠ []) :
    (∀ rows, rows.Perm (newestRows localtime (s.run filter ops).2) →
      Survives filter i row (s.run filter ops).1.values (updateSettingsValues rows values)) ↔
      NewestDateAgrees localtime row (s.run filter ops).2 := by
  have htells := s.run_tellsHow filter ops
  generalize s.run filter ops = r at *
  obtain ⟨after, events⟩ := r
  obtain ⟨last, hlast⟩ : ∃ last, (eventsOf row events).getLast? = some last :=
    ⟨_, List.getLast?_eq_some_getLast hevent⟩
  have hvalue := (htells.history hrow).last hlast
  have hof : ∀ e ∈ eventsOf row events, e.typeId = 11 ∧ e.argument3 = row.name :=
    fun e he => of_decide_eq_true (List.mem_filter.mp he).2
  constructor
  · intro hall last' hlast' e he hdate
    obtain rfl : last = last' := Option.some.inj (hlast.symm.trans hlast')
    obtain ⟨htype, hname⟩ := hof e he
    obtain ⟨-, v, hv⟩ := htells.argument1 (List.mem_filter.mp he).1
    have hmem : e ∈ newestRows localtime events := (mem_newestRows htype hname).mpr ⟨he, hdate⟩
    -- The query may return this row last.
    have hperm : ((newestRows localtime events).erase e ++ [e]).Perm (newestRows localtime events) :=
      List.perm_append_comm.trans (List.perm_cons_erase hmem).symm
    have hrestored := (hall _ hperm).value
    rw [updateSettingsValues_snoc, assignSetting_of_eq hrow hname, hv] at hrestored
    rw [hvalue, ← hrestored, hv]
    exact congrArg (fun v : Word => itoa v.toNat) (ofNat_columnDouble_itoa v).symm
  · intro hagrees rows hperm
    obtain ⟨newest, hnewest, hdate⟩ := exists_newestDate localtime hevent
    obtain ⟨htype, hname⟩ := hof newest hnewest
    have hmem : newest ∈ rows :=
      hperm.mem_iff.mpr ((mem_newestRows htype hname).mpr ⟨hnewest, hdate⟩)
    have hsame : ∀ e ∈ rows, e.argument3 = row.name → e.argument1 = itoa (after.values i).value.toNat := by
      intro e he hname
      have hrows := hperm.mem_iff.mp he
      have htype := (htells.argument1 (List.mem_filter.mp hrows).1).1
      obtain ⟨heOf, hdate⟩ := (mem_newestRows htype hname).mp hrows
      rw [hagrees last hlast e heOf hdate, hvalue]
    have hrestored : updateSettingsValues rows values i = ⟨(after.values i).value, true⟩ :=
      updateSettingsValues_eq hrow hsame ⟨newest, hmem, hname⟩
    have hset : (updateSettingsValues rows values i).isValueSet = true := by rw [hrestored]
    have hback : (updateSettingsValues rows values i).value = (after.values i).value := by
      rw [hrestored]
    refine ⟨hback, fun f writeMode beyond systemTime hf => ?_⟩
    exact eventsOf_check_eq_nil hrow hset (hf.trans hback.symm) writeMode beyond systemTime

def setRotation (value : Word) : { c : CmdExternal // c.cmdId = reqSettingSet } where
  val :=
    { template := ⟨reqSettingSet, 31⟩
      param2 := value
      sourceRaw := ""
      cmdIdRaw := ""
      template_mem := by decide +kernel }
  property := rfl

def twiceInOneSecond : List SettingsOp :=
  [.reply (setRotation 5) ⟨settingsFrame, by decide⟩ 0 (fun _ => 0) 0,
   .reply (setRotation 7) ⟨settingsFrame, by decide⟩ 0 (fun _ => 0) 0]

def unsetSettings : DeviceSettings := ⟨fun _ => {}, false⟩

theorem restart_survives_iff_twice :
    (∀ rows, rows.Perm (newestRows Gateway.summerTimeEnd (unsetSettings.run [] twiceInOneSecond).2) →
      Survives [] 0 ⟨"Частота вращения", 31, 0, 2, true⟩
        (unsetSettings.run [] twiceInOneSecond).1.values
        (updateSettingsValues rows unsetSettings.values)) ↔
      NewestDateAgrees Gateway.summerTimeEnd ⟨"Частота вращения", 31, 0, 2, true⟩
        (unsetSettings.run [] twiceInOneSecond).2 :=
  restart_survives_iff Gateway.summerTimeEnd [] unsetSettings twiceInOneSecond
    unsetSettings.values rfl (by decide +kernel)

/-- Of two changes within one second the first may come back. -/
theorem restart_survives_false : ¬ ∀ (localtime : ℤ → Gateway.LocalTime) (filter : ParameterFilter)
    (s : DeviceSettings) (ops : List SettingsOp),
    (ops.Pairwise fun op op' => op.systemTime ≤ op'.systemTime) →
    ∀ (values : SettingValues) (i : ℕ) (row : Setting), allSettings[i]? = some row →
    eventsOf row (s.run filter ops).2 ≠ [] →
    ∀ rows, rows.Perm (newestRows localtime (s.run filter ops).2) →
      Survives filter i row (s.run filter ops).1.values (updateSettingsValues rows values) := by
  intro hall
  have hsurvives := hall Gateway.summerTimeEnd [] unsetSettings twiceInOneSecond
    (by simp [twiceInOneSecond, SettingsOp.systemTime]) unsetSettings.values 0 _ rfl
    (by decide +kernel) _ (List.reverse_perm _)
  exact absurd hsurvives.value (by decide +kernel)

end Ritex
