import Ritex.Reports

/-! The settings of the station: the table `all_Settings`, its current values and the events
that report a change. -/
namespace Ritex

/-- The constant columns of `setting_t_d`. -/
structure Setting where
  name : String
  id : ℤ
  offset : ℤ
  size : ℕ
  isVisible : Bool
  deriving DecidableEq, Repr

def allSettings : List Setting :=
  [⟨"Частота вращения", 31, 0, 2, true⟩,
   ⟨"Ток ВД при перегрузе", 32, 2, 1, true⟩,
   ⟨"Защита по перегрузу", 33, 3, 1, true⟩,
   ⟨"Время блокировки защиты по перегрузке", 34, 4, 2, true⟩,
   ⟨"Время блокировки АПВ по перегрузке", 35, 6, 1, true⟩,
   ⟨"Количество перезапусков", 36, 7, 1, true⟩,
   ⟨"Время,  в течение которого разрешены перезапуски", 37, 8, 2, true⟩,
   ⟨"Ток ВД при недогрузе", 38, 10, 1, true⟩,
   ⟨"Защита по недогрузу", 39, 11, 1, true⟩,
   ⟨"Время блокировки защиты по недогрузу", 40, 12, 2, true⟩,
   ⟨"Время блокировки АПВ по недогрузу", 41, 14, 2, true⟩,
   ⟨"Куст", 42, 16, 2, true⟩,
   ⟨"Скважина", 43, 18, 2, true⟩,
   ⟨"Пароль", 44, 20, 2, true⟩,
   ⟨"Служебный режим", 45, 22, 1, false⟩,
   ⟨"Время работы", 46, 23, 2, true⟩,
   ⟨"Время паузы", 47, 25, 2, true⟩,
   ⟨"Шаг регистрации параметров", 48, 27, 2, true⟩,
   ⟨"Время (часы, минуты)", 49, -1, 2, true⟩,
   ⟨"Дата (число, месяц)", 50, -1, 2, true⟩,
   ⟨"Год", 51, -1, 2, true⟩,
   ⟨"Напряжение вторичной обмотки трансформатора", 52, 29, 2, true⟩,
   ⟨"Время блокировки запуска после включения питания", 53, 31, 1, true⟩,
   ⟨"Защита по Rиз", 54, 32, 1, true⟩,
   ⟨"Дисбаланс по U вх.   лин.", 55, 33, 1, true⟩,
   ⟨"Время срабатывания защиты по дисбалансу U вх.  лин.", 56, 34, 1, true⟩,
   ⟨"Дисбаланс по U вых. лин.", 57, 35, 1, true⟩,
   ⟨"Время срабатывания защиты по дисбалансу U вых. лин.", 58, 36, 1, true⟩,
   ⟨"Дисбаланс по  I  вых. фаз.", 59, 37, 1, true⟩,
   ⟨"Время срабатывания защиты по дисбалансу I  вых. фаз", 60, 38, 1, true⟩,
   ⟨"Дополнительная настройка", 61, 39, 2, true⟩,
   ⟨"Работа с ТМС", 62, 41, 1, true⟩,
   ⟨"Предельная температура ВД", 63, 42, 1, true⟩,
   ⟨"Давление жидкости на приеме насоса", 64, 43, 1, true⟩,
   ⟨"Изменение скорости вращения ВД при регулировании по давлению жидкости на приеме насоса", 65, 44, 1, true⟩,
   ⟨"Предел снижения скорости вращения ВД", 66, 45, 2, true⟩,
   ⟨"Номинальная мощность ЭД", 152, -1, 2, true⟩,
   ⟨"Номинальный напор УЭЦН", 155, -1, 2, true⟩,
   ⟨"Номинальная производительность насоса", 156, -1, 2, true⟩,
   ⟨"Дебит жидкости(режим)", 157, -1, 2, true⟩,
   ⟨"Дебит жидкости(АГЗУ)", 158, -1, 2, true⟩,
   ⟨"Буферное давление(СТМ-У)", 159, -1, 2, true⟩,
   ⟨"Затрубное давление(СТМ-У)", 160, -1, 2, true⟩,
   ⟨"Линейное давление(СТМ-У)", 161, -1, 2, true⟩]

/-- `m_value` and `m_isValueSet` of a row. -/
structure SettingValue where
  value : Word := 0
  isValueSet : Bool := false
  deriving DecidableEq, Repr

abbrev SettingValues := ℕ → SettingValue

/-- The assertion on a setting number: between the first and the last row of the table. -/
def settingIdInRange (id : ℤ) : Bool :=
  decide ((allSettings.head (by decide)).id ≤ id ∧ id ≤ (allSettings.getLast (by decide)).id)

def settingIndex (id : ℤ) : Option ℕ := allSettings.findIdx? fun row => row.id == id

/-- `SetCurrentSettingValue`: the old value if a new one is applied. `none` is a failed
assertion. -/
def setCurrentSettingValue (values : SettingValues) (id : ℤ) (newValue : Word) :
    Option (Option Word × SettingValues) :=
  if !settingIdInRange id then none
  else match settingIndex id with
    | none => some (none, values)
    | some i =>
      if (values i).value ≠ newValue then
        some (some (values i).value,
          Function.update values i { values i with value := newValue })
      else some (none, values)

/-- `getSettingName`; `none` is a failed assertion. -/
def getSettingName (id : ℤ) : Option String :=
  if !settingIdInRange id then none
  else match allSettings.find? fun row => row.id == id with
    | some row => some row.name
    | none => some ""

/-- `GetSettingFromPacket`; a wrong offset is logged and read all the same. -/
def getSettingFromPacket (offset size : ℕ) : PayloadReader Word :=
  if size = 1 then do return (← PayloadReader.byte offset).setWidth 16
  else PayloadReader.word offset

def settingEvent (filter : ParameterFilter) (time : ℤ) (newValue oldValue : Word)
    (name src : String) : DBEventCommon where
  typeId := 11
  channelId := getDeviceStateChannelId filter
  registerTimeDate := time
  argument1 := itoa newValue.toNat
  argument2 := itoa oldValue.toNat
  argument3 := name
  argument4 := src

def changeSource (isFirst : Bool) : String := if isFirst then "INIT" else "HND"

/-- The loop of `CheckSettigsChanged` over the rows that are left. -/
def checkSettigs (filter : ParameterFilter) (isFirst : Bool) (systemTime : ℤ) :
    List (Setting × ℕ) → SettingValues → PayloadReader (SettingValues × List DBEventCommon)
  | [], values => return (values, [])
  | (row, i) :: rows, values =>
    if !row.isVisible || row.offset == -1 then checkSettigs filter isFirst systemTime rows values
    else do
      let newValue ← getSettingFromPacket row.offset.toNat row.size
      let oldValue := (values i).value
      if isFirst && !(values i).isValueSet || newValue != oldValue then
        let event := settingEvent filter systemTime newValue oldValue row.name
          (changeSource isFirst)
        let (values, events) ← checkSettigs filter isFirst systemTime rows
          (Function.update values i { values i with value := newValue })
        return (values, event :: events)
      else checkSettigs filter isFirst systemTime rows values

def checkSettigsChanged (filter : ParameterFilter) (isFirst : Bool) (systemTime : ℤ)
    (values : SettingValues) : PayloadReader (SettingValues × List DBEventCommon) :=
  checkSettigs filter isFirst systemTime allSettings.zipIdx values

/-! ### The length of a settings packet -/

theorem allSettings_inside : ∀ row ∈ allSettings, row.isVisible = true → row.offset ≠ -1 →
    (row.size = 1 ∨ row.size = 2) ∧ 0 ≤ row.offset ∧ row.offset.toNat + row.size ≤ 0x2F := by
  decide

theorem checkSettigs_inside (filter : ParameterFilter) (isFirst : Bool) (systemTime : ℤ)
    {rows : List (Setting × ℕ)} (hrows : ∀ r ∈ rows, r.1 ∈ allSettings) (values : SettingValues) :
    (checkSettigs filter isFirst systemTime rows values).Inside 0x2F := by
  induction rows generalizing values with
  | nil => intro memory i hi; simp [checkSettigs] at hi
  | cons r rows ih =>
    have hrows' : ∀ r ∈ rows, r.1 ∈ allSettings := fun r hr => hrows r (List.mem_cons_of_mem _ hr)
    intro memory i hi
    rw [checkSettigs] at hi
    split at hi
    · exact ih hrows' values memory i hi
    · rename_i hskip
      have hview : r.1.isVisible = true ∧ r.1.offset ≠ -1 := by simpa using hskip
      obtain ⟨hsize, -, hend⟩ :=
        allSettings_inside r.1 (hrows r List.mem_cons_self) hview.1 hview.2
      rw [PayloadReader.reads_bind, List.mem_append] at hi
      rcases hi with hi | hi
      · rcases hsize with h1 | h2
        · simp [getSettingFromPacket, h1] at hi
          omega
        · simp [getSettingFromPacket, h2] at hi
          omega
      · dsimp only at hi
        split at hi
        · rw [PayloadReader.reads_bind, List.mem_append] at hi
          rcases hi with hi | hi
          · exact ih hrows' _ memory i hi
          · simp at hi
        · exact ih hrows' values memory i hi

/-- A settings packet of the length in the table holds every byte that the comparison reads. -/
theorem checkSettigsChanged_inside (filter : ParameterFilter) (isFirst : Bool) (systemTime : ℤ)
    (values : SettingValues) :
    (checkSettigsChanged filter isFirst systemTime values).Inside 0x2F :=
  checkSettigs_inside filter isFirst systemTime
    (fun _ hr => List.fst_mem_of_mem_zipIdx hr) values

end Ritex
