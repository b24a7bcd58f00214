import Ritex.DecimalText

/-! The rendezvous of `Adapter::Run`: the client and the daemon of a device find each other by names
that one makes of the text of the device id and the other of its number. -/
namespace Ritex

def adapterName : Text := "Ritex".toList

/-- `snprintf` into an array of this size. -/
def snprintf (size : ℕ) (s : Text) : Text := s.take (size - 1)

/-- `%d`. -/
def decimal (i : ℤ) : Text := (itoa i).toList

/-- `m_socket` once the id is appended. -/
def adapterSocket (deviceIdRaw : Text) : Text := adapterName ++ "_socket".toList ++ deviceIdRaw

/-- `GeneratePidFileName`. -/
def generatePidFileName (deviceId : ℤ) : Text :=
  snprintf 32 (adapterName ++ "-lock-".toList ++ decimal deviceId)

/-- The name in `DaemonCommServer::Create`. -/
def serverSocket (deviceId : ℤ) : Text := snprintf 32 ("Ritex_socket".toList ++ decimal deviceId)

def sunPathSize : ℕ := 108

/-- The abstract address of a name, behind its first zero byte: `strncpy` fills the array with zeros
and the length is that of the name. A length that does not fit is refused. -/
def abstractAddress (name : Text) : Option Text :=
  if name.length + 1 ≤ sunPathSize then
    some (name.take (sunPathSize - 2) ++ List.replicate (name.length - (sunPathSize - 2)) '\x00')
  else none

/-- `isHWCommand` of the command that `CreateCommand` makes. -/
def CommandType.isHWCommand : CommandType → Bool
  | .getMesurements => true
  | .testDevice => true
  | .command => true
  | _ => false

structure AdapterRun where
  deviceId : ℤ
  socket : Text
  pidFileName : Text
  deriving DecidableEq

/-- What `Run` prepares for a hardware command, before it becomes a client or a daemon. -/
def adapterRun (cmd : CompiledCommand) : Option AdapterRun :=
  match cmd.deviceId with
  | some deviceId =>
    if deviceId < 0 then none
    else some ⟨deviceId, adapterSocket cmd.raw.deviceIdRaw, generatePidFileName deviceId⟩
  | none => none

/-- A command with an id of the caller's gets as far as that. -/
structure Runs (c : CmdLineCommand) (r : AdapterRun) : Prop where
  prepared : ∃ fakeId cmd, c.compile additionalParameterMap fakeId = some cmd ∧
    cmd.cmdLineCommandType.isHWCommand = true ∧ cmd.cmdLineCommandType ≠ .testDevice ∧
    adapterRun cmd = some r

/-- The client connects to the address that the daemon binds, and the daemon does not abort. -/
structure MeetsDaemon (r : AdapterRun) : Prop where
  address : abstractAddress r.socket = abstractAddress (serverSocket r.deviceId)
  positive : 0 < r.deviceId

/-- Each of two clients meets the daemon of its device, which is the same for both. -/
structure MeetOneDaemon (r r' : AdapterRun) : Prop where
  first : MeetsDaemon r
  second : MeetsDaemon r'
  lock : r.pidFileName = r'.pidFileName
  socket : r.socket = r'.socket

theorem decimal_natCast (n : ℕ) : decimal n = Nat.toDigits 10 n := itoa_natCast n

theorem decimal_length {n : ℕ} (h : n < 2 ^ 31) : (decimal n).length ≤ 10 := by
  rw [decimal_natCast, Nat.length_toDigits_le_iff (by omega) (by omega)]
  omega

/-- No number of a device is cut. -/
theorem serverSocket_eq {n : ℕ} (h : n < 2 ^ 31) :
    serverSocket n = adapterSocket (decimal n) := by
  have hlength : ("Ritex_socket".toList ++ decimal n).length ≤ 31 := by
    have := decimal_length h
    rw [List.length_append]
    have : "Ritex_socket".toList.length = 12 := by decide
    omega
  exact List.take_of_length_le hlength

theorem abstractAddress_short {name : Text} (h : name.length + 2 ≤ sunPathSize) :
    abstractAddress name = some name := by
  have hzeros : name.length - (sunPathSize - 2) = 0 := by omega
  rw [abstractAddress, if_pos (by omega), hzeros, List.take_of_length_le (by omega)]
  simp

theorem abstractAddress_length {name address : Text} (h : abstractAddress name = some address) :
    address.length = name.length := by
  unfold abstractAddress at h
  obtain ⟨hfits, haddress⟩ := Option.ite_none_right_eq_some.mp h
  rw [← Option.some.inj haddress, List.length_append, List.length_take, List.length_replicate]
  omega

theorem abstractAddress_eq_iff {name name' : Text} (h : name'.length + 2 ≤ sunPathSize) :
    abstractAddress name = abstractAddress name' ↔ name = name' := by
  rw [abstractAddress_short h]
  constructor
  · intro haddress
    have hlength := abstractAddress_length haddress
    rw [abstractAddress_short (by omega)] at haddress
    exact Option.some.inj haddress
  · rintro rfl
    exact abstractAddress_short h

theorem compile_deviceId {map : AdditionalParameterMap} {fakeId : ℤ} {c : CmdLineCommand}
    {cmd : CompiledCommand} (h : c.compile map fakeId = some cmd) :
    cmd.raw = c ∧ (cmd.cmdLineCommandType.isHWCommand = true →
      cmd.cmdLineCommandType ≠ .testDevice → cmd.deviceId = compileInt c.deviceIdRaw) := by
  have hcompiled := CmdLineCommand.compile_compiled h
  refine ⟨hcompiled.raw, fun hhardware htest => ?_⟩
  have hnumber := congrArg Prod.fst hcompiled.numbers
  cases htype : cmd.cmdLineCommandType <;> simp_all [CmdLineCommand.compiledNumbers, CommandType.isHWCommand]

theorem Runs.compiled {c : CmdLineCommand} {r : AdapterRun} (h : Runs c r) :
    compileInt c.deviceIdRaw = some r.deviceId ∧ 0 ≤ r.deviceId ∧
      r.socket = adapterSocket c.deviceIdRaw ∧ r.pidFileName = generatePidFileName r.deviceId := by
  obtain ⟨fakeId, cmd, hcompile, hhardware, htest, hrun⟩ := h.prepared
  obtain ⟨hraw, hid⟩ := compile_deviceId hcompile
  unfold adapterRun at hrun
  split at hrun
  next deviceId heq =>
    split at hrun
    next => cases hrun
    next hnegative =>
      cases hrun
      exact ⟨(hid hhardware htest).symm.trans heq, not_lt.mp hnegative, by rw [hraw], rfl⟩
  next => cases hrun

/-! ### The texts with which they meet -/

theorem Runs.number {c : CmdLineCommand} {r : AdapterRun} (h : Runs c r) :
    ∃ n : ℕ, r.deviceId = n ∧ n < 2 ^ 31 ∧ strtol c.deviceIdRaw = n := by
  obtain ⟨hcompile, hnonneg, -, -⟩ := h.compiled
  have hstrtol := compileInt_eq_some hcompile
  have hlt : r.deviceId < 2 ^ 31 := hstrtol ▸ strtol_lt _
  obtain ⟨n, hn⟩ := Int.eq_ofNat_of_zero_le hnonneg
  exact ⟨n, hn, by omega, hstrtol.trans hn⟩

theorem Runs.address_iff {c : CmdLineCommand} {r : AdapterRun} (h : Runs c r) :
    abstractAddress r.socket = abstractAddress (serverSocket r.deviceId) ↔
      c.deviceIdRaw = decimal r.deviceId := by
  obtain ⟨n, hn, hlt, -⟩ := h.number
  have hshort : (adapterSocket (decimal n)).length + 2 ≤ sunPathSize := by
    have hlength := decimal_length hlt
    have hprefix : (adapterName ++ "_socket".toList).length = 12 := by decide
    rw [adapterSocket, List.length_append, hprefix, sunPathSize]
    omega
  rw [h.compiled.2.2.1, hn, serverSocket_eq hlt, abstractAddress_eq_iff hshort]
  exact List.append_right_inj _

theorem Runs.meets_iff {c : CmdLineCommand} {r : AdapterRun} (h : Runs c r) :
    MeetsDaemon r ↔ IsDecimal c.deviceIdRaw ∧ leadingNumber c.deviceIdRaw < 2 ^ 31 := by
  obtain ⟨n, hn, hlt, hstrtol⟩ := h.number
  constructor
  · intro hmeets
    have hpos : 0 < n := by
      have := hmeets.positive
      omega
    rw [h.address_iff.mp hmeets.address, hn, decimal_natCast, leadingNumber_toDigits]
    exact ⟨isDecimal_toDigits hpos, hlt⟩
  · rintro ⟨hdecimal, hsmall⟩
    have hpos := hdecimal.leadingNumber_pos
    have hvalue : n = leadingNumber c.deviceIdRaw := by
      rw [strtol_digits hdecimal.digits] at hstrtol
      unfold clampLong at hstrtol
      omega
    refine ⟨h.address_iff.mpr ?_, by omega⟩
    rw [hn, hvalue, decimal_natCast, hdecimal.toDigits_leadingNumber]

/-- Two clients of one number meet its daemon, if both give the number in plain digits. -/
theorem client_daemon_meet_iff {c c' : CmdLineCommand} {r r' : AdapterRun} (h : Runs c r)
    (h' : Runs c' r') (hid : r.deviceId = r'.deviceId) :
    MeetOneDaemon r r' ↔ (IsDecimal c.deviceIdRaw ∧ leadingNumber c.deviceIdRaw < 2 ^ 31) ∧
      IsDecimal c'.deviceIdRaw ∧ leadingNumber c'.deviceIdRaw < 2 ^ 31 := by
  rw [← h.meets_iff, ← h'.meets_iff]
  constructor
  · intro hmeets
    exact ⟨hmeets.first, hmeets.second⟩
  · rintro ⟨hmeets, hmeets'⟩
    obtain ⟨-, -, hsocket, hlock⟩ := h.compiled
    obtain ⟨-, -, hsocket', hlock'⟩ := h'.compiled
    have hraw := h.address_iff.mp hmeets.address
    have hraw' := h'.address_iff.mp hmeets'.address
    exact ⟨hmeets, hmeets', by rw [hlock, hlock', hid], by rw [hsocket, hsocket', hraw, hraw', hid]⟩

def measurementsCommand (deviceId : Text) : CmdLineCommand where
  cmdLineCommandType := some .getMesurements
  deviceIdRaw := deviceId
  scriptPathRaw := "script".toList
  additionalParametersRaw := [(comdevice, "/dev/ttySC0".toList), (baudrate, "9600".toList)]

def measurementsTokens (deviceId : Text) : List OptionToken :=
  [.short 'r', .argument deviceId, .long optIndexSp, .argument "script".toList,
   .short 'a', .argument comdevice, .argument "/dev/ttySC0".toList,
   .short 'a', .argument baudrate, .argument "9600".toList]

def measurementsCompiled (deviceId : Text) (id : ℤ) : CompiledCommand where
  raw := measurementsCommand deviceId
  cmdLineCommandType := .getMesurements
  additionalParameters := [(comdevice, .string "/dev/ttySC0".toList), (baudrate, .int 9600)]
  deviceId := some id

theorem measurements_runs (deviceId : Text) (id : ℤ) (hid : 0 ≤ id)
    (h : (measurementsCommand deviceId).compile additionalParameterMap 0 =
      some (measurementsCompiled deviceId id)) :
    Runs (measurementsCommand deviceId) ⟨id, adapterSocket deviceId, generatePidFileName id⟩ :=
  ⟨0, measurementsCompiled deviceId id, h, rfl, by simp [measurementsCompiled],
    if_neg (not_lt.mpr hid)⟩

/-- Two clients of device 5. -/
theorem client_daemon_meet_iff_five : ∃ r, r.deviceId = 5 ∧
    (MeetOneDaemon r r ↔ (IsDecimal ['5'] ∧ leadingNumber ['5'] < 2 ^ 31) ∧
      IsDecimal ['5'] ∧ leadingNumber ['5'] < 2 ^ 31) := by
  have hruns := measurements_runs ['5'] 5 (by omega) (by decide +kernel)
  exact ⟨_, rfl, client_daemon_meet_iff hruns hruns rfl⟩

/-- A leading zero leads the client to another name. -/
theorem client_daemon_meet_false : ¬∀ (getopt : List Text → List OptionToken) (args args' : List Text)
    (c c' : CmdLineCommand) (r r' : AdapterRun), parse getopt args = some c →
    parse getopt args' = some c' → Runs c r → Runs c' r' → r.deviceId = r'.deviceId →
    MeetOneDaemon r r' := by
  intro hall
  have hruns := measurements_runs ['0', '5'] 5 (by omega) (by decide +kernel)
  have hparse : parse (fun _ => measurementsTokens ['0', '5']) [] =
      some (measurementsCommand ['0', '5']) := by decide +kernel
  have hmeets := hall _ _ _ _ _ _ _ hparse hparse hruns hruns rfl
  exact absurd hmeets.first.address (by decide +kernel)

end Ritex
