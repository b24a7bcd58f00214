import Ritex.DecimalText
import Ritex.DeviceCommands
import Ritex.SettingsHistory

/-! The value of a setting on its way from the message of a command to the station and to the log:
it passes through `atof`, an `unsigned short` and the two bytes of the payload. -/
namespace Ritex

/-- `(unsigned short)atof(s)` is the integer that an `unsigned short` holds. For other numbers the
conversion is undefined. -/
structure ConvertsIntegers (atof : Text → Word) : Prop where
  toNat_eq : ∀ {s v}, IntegerText s v → 0 ≤ v → v < 2 ^ 16 → ((atof s).toNat : ℤ) = v

/-- A command of type 24 whose message asks for a value of the setting. -/
structure AsksFor (cmd : CompiledCommand) (row : Setting) (value : Text) : Prop where
  type : cmd.cmdLineCommandType = .command
  cmdType : cmd.cmdType = some 24
  row_mem : row ∈ allSettings
  message : ∃ id : Text, '~' ∉ id ∧ strtol id = row.id ∧ cmd.raw.messageRaw = id ++ '~' :: value

/-- What the command puts in the queue. -/
def Queues (atof : Text → Word) (cmd : CompiledCommand) (device : DeviceState) (x : Circumstances)
    (c : CustomCommand) : Prop :=
  ∃ command, createCommand atof cmd = .created command ∧ (execute device x command).1 = .queued c

/-- The reply stores the value and reports a change to it. -/
structure Adopts (values : SettingValues) (i : ℕ) (v : ℤ) (reply : ExternalReply) : Prop where
  stored : ((reply.values i).value.toNat : ℤ) = v
  reported : ∀ e ∈ reply.events, e.argument1 = itoa v
  told : ((values i).value.toNat : ℤ) ≠ v → reply.events ≠ []

/-- The frame carries the value, and so does what follows from the settings that answer it. -/
structure SentAsAsked (row : Setting) (v : ℤ) (c : CustomCommand) : Prop where
  cmd : c.dataPacket.cmd = reqSettingSet
  payload : ∃ id h l : Byte, c.dataPacket.data = [id, h, l] ∧ (id.toNat : ℤ) = row.id ∧
    ((256 * h.toNat + l.toNat : ℕ) : ℤ) = v
  adopted : ∃ e, c.parentCommand.commandClass = .external e ∧ ∀ i, allSettings[i]? = some row →
    ∀ filter values now packet memory, packet.cmd = ackAllSettings →
      ∃ reply, (externalReply filter e values now packet).value memory = some reply ∧
        Adopts values i v reply

/-! ### From the message to the queue -/

theorem IntegerText.sep_notMem {s : Text} {v : ℤ} (h : IntegerText s v) : '~' ∉ s := by
  have hdigits : ∀ s : Text, (∀ c ∈ s, c.isDigit = true) → '~' ∉ s := by
    intro s hs hmem
    have hsep := hs _ hmem
    cases hsep
  cases h with
  | digits _ hd => exact hdigits _ hd
  | plus _ hd => simpa using hdigits _ hd
  | minus _ hd => simpa using hdigits _ hd

theorem split_two {d : Char} {first second : Text} (hfirst : d ∉ first) (hsecond : d ∉ second)
    (hne : second ≠ []) : split d (first ++ d :: second) = [first, second] := by
  have hfields : (first ++ d :: second).splitOn d = [first, second] := by
    rw [List.splitOn_append_cons_self_of_not_mem hfirst, List.splitOn_eq_singleton hsecond]
  rw [split, hfields, if_neg (by simpa using hne)]

theorem findTemplate_setting : ∀ row ∈ allSettings, ∃ h,
    findTemplate changeSetting row.id = some ⟨⟨reqSettingSet, BitVec.ofInt 8 row.id⟩, h⟩ := by
  have htable : ∀ row ∈ allSettings, (findTemplate changeSetting row.id).map Subtype.val =
      some ⟨reqSettingSet, BitVec.ofInt 8 row.id⟩ := by decide +kernel
  intro row hrow
  obtain ⟨⟨template, h⟩, hfind, rfl⟩ := Option.map_eq_some_iff.mp (htable row hrow)
  exact ⟨h, hfind⟩

theorem createCommand_setting (atof : Text → Word) {cmd : CompiledCommand} {row : Setting}
    {value : Text} {v : ℤ} (h : AsksFor cmd row value) (hv : IntegerText value v) :
    ∃ e : CmdExternal, ∃ commport speed, createCommand atof cmd = .created (.external e commport speed) ∧
      e.template = ⟨reqSettingSet, BitVec.ofInt 8 row.id⟩ ∧ e.param2 = atof value := by
  obtain ⟨id, hsep, hid, hmessage⟩ := h.message
  have hsplit : split '~' cmd.raw.messageRaw = [id, value] := by
    rw [hmessage]
    exact split_two hsep hv.sep_notMem hv.ne_nil
  obtain ⟨hmem, htemplate⟩ := findTemplate_setting row h.row_mem
  have hfind : externaCommandList.find? (fun command => command.cmdType == cmd.cmdType.getD 0) =
      some changeSetting := by
    rw [h.cmdType]
    rfl
  have hargs : changeSetting.args.length = 2 := rfl
  obtain ⟨e, he, hrow, hvalue⟩ := createExternalCommand_known atof hfind (by rw [hsplit, hargs]; rfl)
    (by rwa [hsplit, List.getD_cons_zero, hid])
  rw [createCommand, h.type]
  refine ⟨e, _, _, he, hrow, ?_⟩
  rw [hvalue, hsplit, hargs]
  rfl

theorem executeCustomCommand_setting {e : CmdExternal} {row : Setting}
    (he : e.template = ⟨reqSettingSet, BitVec.ofInt 8 row.id⟩) (device : DeviceState)
    (x : Circumstances) : ∃ packet : DataPacket, packet.cmd = reqSettingSet ∧
      packet.data = [BitVec.ofInt 8 row.id, msb e.param2, lsb e.param2] ∧
      executeCustomCommand device x e =
        if device.isRunning then (some (customCommand (.external e) packet), device)
        else (if (device.create x true).1 then some (customCommand (.external e) packet) else none,
          (device.create x true).2) := by
  have hparam : e.param1 = BitVec.ofInt 8 row.id := congrArg CmdTemplate.param he
  refine ⟨⟨.cmd, ksuAddress, reqSettingSet, x.now, [e.param1, msb e.param2, lsb e.param2],
    three_length_lt _ _ _⟩, rfl, by rw [hparam], ?_⟩
  have hpacket : customCommandPacket (e.cmdId.setWidth 8) e.param1 e.param2 x.now =
      some ⟨.cmd, ksuAddress, reqSettingSet, x.now, [e.param1, msb e.param2, lsb e.param2],
        three_length_lt _ _ _⟩ := by
    rw [show e.cmdId = reqSettingSet from congrArg CmdTemplate.cmd he]
    rfl
  rw [executeCustomCommand, hpacket]

theorem execute_setting {e : CmdExternal} {row : Setting}
    (he : e.template = ⟨reqSettingSet, BitVec.ofInt 8 row.id⟩) (commport : Text) (speed : Option ℤ)
    {device : DeviceState} {x : Circumstances} {c : CustomCommand}
    (h : (execute device x (.external e commport speed)).1 = .queued c) :
    c.parentCommand.commandClass = .external e ∧ c.dataPacket.cmd = reqSettingSet ∧
      c.dataPacket.data = [BitVec.ofInt 8 row.id, msb e.param2, lsb e.param2] := by
  obtain ⟨packet, hcmd, hdata, hexecute⟩ := executeCustomCommand_setting he device x
  simp only [execute, hexecute] at h
  split at h
  next c' hc =>
    cases h
    suffices hcommand : c = customCommand (.external e) packet by
      rw [hcommand]
      exact ⟨rfl, hcmd, hdata⟩
    split_ifs at hc <;> cases hc <;> rfl
  next => cases h

theorem execute_running {e : CmdExternal} {row : Setting}
    (he : e.template = ⟨reqSettingSet, BitVec.ofInt 8 row.id⟩) (commport : Text) (speed : Option ℤ)
    (device : DeviceState) (hrunning : device.isRunning = true) (x : Circumstances) :
    ∃ c, (execute device x (.external e commport speed)).1 = .queued c := by
  obtain ⟨packet, -, -, hexecute⟩ := executeCustomCommand_setting he device x
  rw [if_pos hrunning] at hexecute
  refine ⟨customCommand (.external e) packet, ?_⟩
  simp only [execute, hexecute]

theorem msb_lsb_toNat (w : Word) : 256 * (msb w).toNat + (lsb w).toNat = w.toNat := by
  have hw := w.isLt
  simp only [msb, lsb, BitVec.toNat_setWidth, BitVec.toNat_ushiftRight, Nat.shiftRight_eq_div_pow]
  omega

/-! ### From the settings to the log -/

theorem allSettings_param : ∀ row ∈ allSettings,
    ((BitVec.ofInt 8 row.id).toNat : ℤ) = row.id := by decide

theorem settingIndex_row {i : ℕ} {row : Setting} (h : allSettings[i]? = some row) :
    settingIndex row.id = some i := by
  have htable : ∀ i < allSettings.length, (allSettings[i]?.bind fun row => settingIndex row.id) = some i := by
    decide +kernel
  obtain ⟨hlt, -⟩ := List.getElem?_eq_some_iff.mp h
  have hi := htable i hlt
  rwa [h] at hi

theorem settingReply_adopts (filter : ParameterFilter) {e : CmdExternal} {row : Setting} {i : ℕ}
    (he : e.template = ⟨reqSettingSet, BitVec.ofInt 8 row.id⟩) (hi : allSettings[i]? = some row)
    (values : SettingValues) (now : ℤ) :
    ∃ reply, settingReply filter e values now = some reply ∧
      Adopts values i e.param2.toNat reply := by
  have hcmd : e.cmdId = reqSettingSet := congrArg CmdTemplate.cmd he
  have hindex : settingIndex e.param1.toNat = some i := by
    rw [show e.param1 = BitVec.ofInt 8 row.id from congrArg CmdTemplate.param he,
      allSettings_param row (List.mem_of_getElem? hi)]
    exact settingIndex_row hi
  obtain ⟨row', -, hreply⟩ := settingReply_eq filter hcmd hindex values now
  rw [hreply]
  split
  next => exact ⟨_, rfl, by simp, by simp [settingEvent], by simp⟩
  next hsame =>
    have hvalue : (values i).value = e.param2 := not_not.mp hsame
    exact ⟨_, rfl, by simp [hvalue], by simp, by simp [hvalue]⟩

/-! ### The value -/

theorem SentAsAsked.range {row : Setting} {v : ℤ} {c : CustomCommand} (h : SentAsAsked row v c) :
    0 ≤ v ∧ v < 2 ^ 16 := by
  obtain ⟨id, h', l, -, -, hv⟩ := h.payload
  have hhigh := h'.isLt
  have hlow := l.isLt
  omega

/-- The value that is asked for is sent, stored and reported, if an `unsigned short` holds it. -/
theorem setting_sent_iff {atof : Text → Word} (hatof : ConvertsIntegers atof) {cmd : CompiledCommand}
    {row : Setting} {value : Text} {v : ℤ} (h : AsksFor cmd row value) (hv : IntegerText value v) :
    (∀ device x c, Queues atof cmd device x c → SentAsAsked row v c) ↔ 0 ≤ v ∧ v < 2 ^ 16 := by
  obtain ⟨e, commport, speed, hcreate, htemplate, hparam⟩ := createCommand_setting atof h hv
  constructor
  · intro hsent
    obtain ⟨c, hqueued⟩ := execute_running htemplate commport speed ⟨true, false, 0⟩ rfl
      ⟨0, 0, [], false, false⟩
    exact (hsent _ _ c ⟨_, hcreate, hqueued⟩).range
  · rintro ⟨hnonneg, hlt⟩ device x c ⟨command, hcommand, hqueued⟩
    rw [hcreate] at hcommand
    cases hcommand
    obtain ⟨hclass, hcmd, hdata⟩ := execute_setting htemplate commport speed hqueued
    have hvalue : (e.param2.toNat : ℤ) = v := hparam ▸ hatof.toNat_eq hv hnonneg hlt
    refine ⟨hcmd, ⟨_, _, _, hdata, allSettings_param row h.row_mem, ?_⟩, e, hclass, ?_⟩
    · rw [msb_lsb_toNat]
      exact hvalue
    · intro i hi filter values now packet memory hpacket
      obtain ⟨reply, hreply, hadopts⟩ := settingReply_adopts filter htemplate hi values now
      have hset : e.cmdId = reqSettingSet := congrArg CmdTemplate.cmd htemplate
      have hack : packet.cmd ≠ ackAck := by
        rw [hpacket]
        decide
      refine ⟨reply, ?_, hvalue ▸ hadopts⟩
      rw [externalReply, if_pos hset, if_neg hack, if_pos hpacket]
      exact hreply

/-- The number of a text that holds nothing but an integer, cut to an `unsigned short`. -/
def decimalWord (s : Text) : Word :=
  match s with
  | '-' :: digits => BitVec.ofInt 16 (-leadingNumber digits)
  | '+' :: digits => BitVec.ofInt 16 (leadingNumber digits)
  | digits => BitVec.ofInt 16 (leadingNumber digits)

theorem decimalWord_converts : ConvertsIntegers decimalWord := by
  have hword : ∀ v : ℤ, 0 ≤ v → v < 2 ^ 16 → ((BitVec.ofInt 16 v).toNat : ℤ) = v := by
    intro v hnonneg hlt
    rw [BitVec.toNat_ofInt, Int.toNat_of_nonneg (Int.emod_nonneg _ (by decide))]
    exact Int.emod_eq_of_lt hnonneg hlt
  refine ⟨fun {s v} h hnonneg hlt => ?_⟩
  cases h with
  | digits hs h =>
    have heq : decimalWord s = BitVec.ofInt 16 (leadingNumber s) := by
      unfold decimalWord
      split
      next =>
        have hminus := h '-' List.mem_cons_self
        cases hminus
      next =>
        have hplus := h '+' List.mem_cons_self
        cases hplus
      next => rfl
    rw [heq]
    exact hword _ hnonneg hlt
  | plus => exact hword _ hnonneg hlt
  | minus => exact hword _ hnonneg hlt

def settingCommand (value : Text) : CompiledCommand where
  raw := { cmdLineCommandType := some .command, messageRaw := ['3', '1', '~'] ++ value }
  cmdLineCommandType := .command
  additionalParameters := []
  cmdType := some 24

def speedSetting : Setting := ⟨"Частота вращения", 31, 0, 2, true⟩

theorem settingCommand_asksFor (value : Text) : AsksFor (settingCommand value) speedSetting value :=
  ⟨rfl, rfl, by decide +kernel, ['3', '1'], by decide, by decide, rfl⟩

theorem setting_sent_iff_fifty :
    (∀ device x c, Queues decimalWord (settingCommand ['5', '0']) device x c →
      SentAsAsked speedSetting 50 c) ↔ (0 : ℤ) ≤ 50 ∧ (50 : ℤ) < 2 ^ 16 :=
  setting_sent_iff decimalWord_converts (settingCommand_asksFor _)
    (.of_digits (by decide) (by simp) (by decide : leadingNumber ['5', '0'] = 50))

theorem setting_sent_false : ¬∀ (atof : Text → Word), ConvertsIntegers atof →
    ∀ (cmd : CompiledCommand) (row : Setting) (value : Text) (v : ℤ), AsksFor cmd row value →
      IntegerText value v → ∀ device x c, Queues atof cmd device x c → SentAsAsked row v c := by
  intro hall
  have hvalue : IntegerText ['7', '0', '0', '0', '0'] 70000 :=
    .of_digits (by decide) (by simp) (by decide : leadingNumber ['7', '0', '0', '0', '0'] = 70000)
  have hasks := settingCommand_asksFor ['7', '0', '0', '0', '0']
  obtain ⟨e, commport, speed, hcreate, htemplate, -⟩ :=
    createCommand_setting decimalWord hasks hvalue
  obtain ⟨c, hqueued⟩ := execute_running htemplate commport speed ⟨true, false, 0⟩ rfl
    ⟨0, 0, [], false, false⟩
  have hrange := (hall decimalWord decimalWord_converts _ _ _ _ hasks hvalue _ _ c
    ⟨_, hcreate, hqueued⟩).range
  omega

end Ritex
