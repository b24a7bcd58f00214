import Ritex.ProcessorEffects
import Ritex.History

/-! What the processor writes to the port and when: nothing in the traffic, and in a capture no
frame before the station has granted what the frame needs. -/
namespace Ritex
open Interaction

abbrev History := List (Event Op Res)

/-- A frame on the bus, or a wait for one that has ended. -/
inductive BusEvent
  | written (writer : Writer) (packet : DataPacket)
  | received (w : Wait)

/-- The state that was entered last and what was on the bus since. -/
structure Visit where
  state : Option KsuState
  bus : List BusEvent

def Visit.next (v : Visit) : Event Op Res → Visit
  | ⟨.enter state, _⟩ => ⟨some state, []⟩
  | ⟨.write writer packet, _⟩ => { v with bus := v.bus ++ [.written writer packet] }
  | ⟨.wait _, r⟩ => { v with bus := v.bus ++ [.received r.1] }
  | _ => v

def visit (h : History) : Visit := h.foldl Visit.next ⟨none, []⟩

theorem visit_snoc (h : History) (e : Event Op Res) : visit (h ++ [e]) = (visit h).next e := by
  rw [visit, List.foldl_append]
  rfl

/-! ### What has to come first -/

/-- `REQ_DEVICE_REQ` and an `ACK_ACK` with code 150. -/
def CaptureExchange (bus : List BusEvent) : Prop :=
  ∃ now ack, bus = [.written .captureDevice (captureDevicePacket now), .received (.ok ack)] ∧
    ack.cmd.setWidth 16 = ackAck ∧ ack.payload = [150]

/-- `REQ_PASSWORD_GET` and an `ACK_PASSWORDS` with these bytes 2 and 3. -/
def PasswordExchange (passHi passLow : Byte) (bus : List BusEvent) : Prop :=
  ∃ now passwords first second,
    bus = [.written .getPasswords (getPasswordsPacket now), .received (.ok passwords)] ∧
    passwords.cmd.setWidth 16 = ackPasswords ∧
    passwords.payload = [first, second, passHi, passLow]

/-- `REQ_SETTING_SET` of setting 44 with these bytes and an `ACK_ALL_SETTINGS`. -/
def SettingExchange (passHi passLow : Byte) (bus : List BusEvent) : Prop :=
  ∃ request settings, bus = [.written .setPassword request, .received (.ok settings)] ∧
    request.cmd = reqSettingSet ∧ request.data = [44, passHi, passLow] ∧
    settings.cmd.setWidth 16 = ackAllSettings

def Captured (bus : List BusEvent) : Prop := ∃ capture, CaptureExchange capture ∧ capture <+: bus

def Unlocked (bus : List BusEvent) : Prop :=
  ∃ capture passHi passLow password setting, CaptureExchange capture ∧
    PasswordExchange passHi passLow password ∧ SettingExchange passHi passLow setting ∧
    capture ++ (password ++ setting) <+: bus

/-- What a write needs of the visit it is made in. -/
structure Allowed (v : Visit) (writer : Writer) (packet : DataPacket) : Prop where
  state : v.state = some .captureDevice
  initial : writer = .captureDevice → v.bus = [] ∧ packet.cmd = reqDeviceReq
  captured : writer ≠ .captureDevice → Captured v.bus
  unlocked : writer = .processCommand ∨ writer = .changeMode ∨ writer = .requestCurrentData →
    Unlocked v.bus

def Disciplined (h : History) : Prop :=
  ∀ before writer packet r after, h = before ++ ⟨.write writer packet, r⟩ :: after →
    Allowed (visit before) writer packet

theorem disciplined_nil : Disciplined [] := by
  intro before writer packet r after h
  simp at h

theorem Disciplined.snoc {h : History} (hd : Disciplined h) {e : Event Op Res}
    (he : ∀ writer packet r, e = ⟨.write writer packet, r⟩ → Allowed (visit h) writer packet) :
    Disciplined (h ++ [e]) := by
  have hsplit := (forall_split_snoc (P := fun before e => ∀ writer packet r,
    e = ⟨.write writer packet, r⟩ → Allowed (visit before) writer packet) h e).mpr
      ⟨fun before e' after heq writer packet r he' =>
        hd before writer packet r after (he' ▸ heq), he⟩
  exact fun before writer packet r after heq =>
    hsplit before _ after heq writer packet r rfl

/-! ### Specifications of the operations -/

/-- A disciplined history that has come to this point of a visit. -/
structure At (v : Visit) (h : History) : Prop where
  disciplined : Disciplined h
  visit_eq : visit h = v

abbrev Keeps {α : Type} (x : ProcessorM α) (Q : α → History → Prop) (h : History) : Prop :=
  x.Safe (historyEnv Op Res) Disciplined Q h

def Op.Unseen (o : Op) : Prop := ∀ (v : Visit) (r : Res o), v.next ⟨o, r⟩ = v

theorem At.unseen {v : Visit} {h : History} (hat : At v h) {o : Op} (ho : o.Unseen) (r : Res o) :
    At v (h ++ [⟨o, r⟩]) := by
  constructor
  · refine hat.disciplined.snoc fun writer packet r' heq => ?_
    cases heq
    have hlen := congrArg (fun v => v.bus.length) (ho ⟨none, []⟩ ())
    simp [Visit.next] at hlen
  · rw [visit_snoc, ho, hat.visit_eq]

theorem At.only {v : Visit} {h : History} (hat : At v h) {α : Type} {x : ProcessorM α}
    (hx : x.Only Op.Unseen) : Keeps x (fun _ h' => At v h') h :=
  hx.safe_history (fun _ hat => hat.disciplined) (fun _ ho _ hat r => hat.unseen ho r) hat

theorem At.readData {v : Visit} {h : History} (hat : At v h) {α : Type} (packet : DataPacket)
    (x : PayloadReader α) :
    Keeps (Processor.readData packet x)
      (fun a h' => At v h' ∧ ∃ beyond, a = x.value (packet.memory beyond)) h :=
  Prog.safe_history_op fun beyond =>
    have hat' := hat.unseen (o := .heap) (fun _ _ => rfl) beyond
    ⟨hat'.disciplined, hat', beyond, rfl⟩

theorem At.write {v : Visit} {h : History} (hat : At v h) {writer : Writer} {packet : DataPacket}
    (ha : Allowed v writer packet) :
    Keeps (Processor.write writer packet)
      (fun _ h' => At { v with bus := v.bus ++ [.written writer packet] } h') h := by
  refine Prog.safe_history_op fun r => ?_
  have hd : Disciplined (h ++ [⟨.write writer packet, r⟩]) := by
    refine hat.disciplined.snoc fun writer' packet' r' heq => ?_
    cases heq
    rw [hat.visit_eq]
    exact ha
  refine ⟨hd, hd, ?_⟩
  rw [visit_snoc, hat.visit_eq]
  rfl

theorem At.wait {v : Visit} {h : History} (hat : At v h) (p : Processor) (timeout : ℕ) :
    Keeps (p.waitForKsuActivity timeout)
      (fun received h' => ∃ w now, received = Wait.received p.writeMode now w ∧
        At { v with bus := v.bus ++ [.received w] } h') h := by
  refine Prog.safe_history_op fun r => ?_
  obtain ⟨w, now⟩ := r
  have hd : Disciplined (h ++ [⟨.wait timeout, (w, now)⟩]) := by
    refine hat.disciplined.snoc fun writer packet r heq => ?_
    cases heq
  refine ⟨hd, w, now, rfl, hd, ?_⟩
  rw [visit_snoc, hat.visit_eq]
  rfl

/-! ### Frames of the exchanges -/

theorem Frame.getCmd_packet (f : Frame) (writeMode : BitVec 32) (now : ℤ) :
    getCmd (f.packet writeMode now).cmd = f.cmd.setWidth 16 := by
  rw [getCmd_eq]
  exact congrArg _ (lsb_longCmd writeMode f.cmd)

theorem Frame.payload_length {f : Frame} {cmd : Word} {n : ℕ} (hf : f.cmd.setWidth 16 = cmd)
    (hrows : ∀ row ∈ cmdParams ++ ackParams, getCmd row.cmd = cmd → row.length.toNat = n + 1) :
    f.payload.length = n := by
  obtain ⟨row, hrow, hcmd, hlen⟩ := f.exists_row
  have hn := hrows row hrow (hcmd.trans hf)
  omega

theorem Frame.memory_packet (f : Frame) (writeMode : BitVec 32) (now : ℤ) (beyond : ℕ → Byte)
    (i : ℕ) : (f.packet writeMode now).memory beyond i = f.payload.getD i (beyond i) := rfl

namespace Processor

/-! ### The exchanges -/

theorem captureDevice_keeps {h : History} (p : Processor)
    (hat : At ⟨some .captureDevice, []⟩ h) :
    Keeps p.captureDevice (fun result h' => ∃ bus, At ⟨some .captureDevice, bus⟩ h' ∧
      (result = true → CaptureExchange bus)) h := by
  unfold captureDevice
  refine (hat.only (x := time) ⟨fun _ _ => rfl, fun _ => trivial⟩).bind fun now h₁ hat₁ => ?_
  have hallowed : Allowed ⟨some .captureDevice, []⟩ .captureDevice (captureDevicePacket now) :=
    ⟨rfl, fun _ => ⟨rfl, rfl⟩, fun hne => absurd rfl hne, by simp⟩
  refine (hat₁.write hallowed).bind fun _ h₂ hat₂ => ?_
  refine (hat₂.wait p _).bind ?_
  rintro _ h₃ ⟨w, received, rfl, hat₃⟩
  cases w with
  | error e => cases e <;> exact ⟨_, hat₃, by simp⟩
  | ok f =>
    show Keeps (if getCmd (f.packet p.writeMode received).cmd = ackAck then _ else _) _ h₃
    split
    next hack =>
      rw [f.getCmd_packet] at hack
      have hlen : f.payload.length = 1 := f.payload_length hack (by decide)
      obtain ⟨code, hcode⟩ := List.length_eq_one_iff.mp hlen
      refine (hat₃.readData _ _).bind ?_
      rintro _ h₄ ⟨hat₄, beyond, rfl⟩
      refine ⟨_, hat₄, fun hresult => ⟨now, f, rfl, hack, ?_⟩⟩
      have hmem : (f.packet p.writeMode received).memory beyond 0 = 150 :=
        of_decide_eq_true hresult
      rw [f.memory_packet, hcode] at hmem
      rw [hcode]
      exact congrArg (fun b => [b]) hmem
    next => exact ⟨_, hat₃, by simp⟩

theorem getPasswords_keeps {h : History} (p : Processor) {bus : List BusEvent}
    (hat : At ⟨some .captureDevice, bus⟩ h) (hc : CaptureExchange bus) :
    Keeps p.getPasswords (fun passwords h' => ∃ exchange,
      At ⟨some .captureDevice, bus ++ exchange⟩ h' ∧
      ∀ passHi passLow, passwords = some (passHi, passLow) →
        PasswordExchange passHi passLow exchange) h := by
  unfold getPasswords
  refine (hat.only (x := time) ⟨fun _ _ => rfl, fun _ => trivial⟩).bind fun now h₁ hat₁ => ?_
  have hallowed : Allowed ⟨some .captureDevice, bus⟩ .getPasswords (getPasswordsPacket now) :=
    ⟨rfl, by simp, fun _ => ⟨bus, hc, List.prefix_rfl⟩, by simp⟩
  refine (hat₁.write hallowed).bind fun _ h₂ hat₂ => ?_
  refine (hat₂.wait p _).bind ?_
  rintro _ h₃ ⟨w, received, rfl, hat₃⟩
  simp only [List.append_assoc] at hat₃
  cases w with
  | error e => cases e <;> exact ⟨_, hat₃, by simp⟩
  | ok f =>
    show Keeps (if getCmd (f.packet p.writeMode received).cmd = ackPasswords then _ else _) _ h₃
    split
    next hack =>
      rw [f.getCmd_packet] at hack
      have hlen : f.payload.length = 4 := f.payload_length hack (by decide)
      refine (hat₃.readData _ _).bind ?_
      rintro _ h₄ ⟨hat₄, beyond₁, rfl⟩
      refine (hat₄.readData _ _).bind ?_
      rintro _ h₅ ⟨hat₅, beyond₂, rfl⟩
      refine ⟨_, hat₅, fun passHi passLow heq => ?_⟩
      obtain ⟨first, second, third, fourth, hpayload⟩ := List.length_eq_four.mp hlen
      obtain ⟨rfl, rfl⟩ := Prod.mk.inj (Option.some.inj heq)
      refine ⟨now, f, first, second, rfl, hack, ?_⟩
      show f.payload = [first, second, (f.packet p.writeMode received).memory beyond₁ 2,
        (f.packet p.writeMode received).memory beyond₂ 3]
      rw [f.memory_packet, f.memory_packet, hpayload]
      rfl
    next => exact ⟨_, hat₃, by simp⟩

theorem setPassword_keeps {h : History} (p : Processor) {bus : List BusEvent}
    {passHi passLow : Byte} (hat : At ⟨some .captureDevice, bus⟩ h) (hc : Captured bus) :
    Keeps (p.setPassword (passHi.setWidth 16 <<< 8 ||| passLow.setWidth 16))
      (fun result h' => ∃ exchange, At ⟨some .captureDevice, bus ++ exchange⟩ h' ∧
        ∀ settings, result.2 = some settings → settings.cmd = ackAllSettings ∧
          SettingExchange passHi passLow exchange) h := by
  unfold setPassword
  refine (hat.only (x := Prog.perform Op.uninitialised) ⟨fun _ _ => rfl, fun _ => trivial⟩).bind
    fun result h₁ hat₁ => ?_
  refine (hat₁.only (x := time) ⟨fun _ _ => rfl, fun _ => trivial⟩).bind fun now h₂ hat₂ => ?_
  have hallowed : Allowed ⟨some .captureDevice, bus⟩ .setPassword
      (setSettingPacket 44 (passHi.setWidth 16 <<< 8 ||| passLow.setWidth 16) now) :=
    ⟨rfl, by simp, fun _ => hc, by simp⟩
  refine (hat₂.write hallowed).bind fun _ h₃ hat₃ => ?_
  refine (hat₃.wait p _).bind ?_
  rintro _ h₄ ⟨w, received, rfl, hat₄⟩
  simp only [List.append_assoc] at hat₄
  cases w with
  | error e => cases e <;> exact ⟨_, hat₄, by simp⟩
  | ok f =>
    show Keeps (if (f.packet p.writeMode received).cmd = ackAck then _ else _) _ h₄
    split
    next =>
      refine (hat₄.readData _ _).bind ?_
      rintro _ h₅ ⟨hat₅, -⟩
      exact ⟨_, hat₅, by simp⟩
    next =>
      split
      next hack =>
        have hcmd : f.cmd.setWidth 16 = ackAllSettings := by
          rw [← f.getCmd_packet p.writeMode received, hack]
          decide
        have hdata : (setSettingPacket 44 (passHi.setWidth 16 <<< 8 ||| passLow.setWidth 16)
            now).data = [44, passHi, passLow] := by
          simp only [setSettingPacket, msb_shiftLeft_or, lsb_shiftLeft_or]
        refine ⟨_, hat₄, fun settings hsettings => ⟨?_, _, f, rfl, rfl, hdata, hcmd⟩⟩
        cases hsettings
        exact hack
      next => exact ⟨_, hat₄, by simp⟩

end Processor

end Ritex
