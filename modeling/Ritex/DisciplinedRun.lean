import Ritex.BusDiscipline

/-! Every run of the processor keeps the discipline of the bus. -/
namespace Ritex
open Interaction

/-! ### The visit once the settings have come -/

theorem Unlocked.captured {bus : List BusEvent} (h : Unlocked bus) : Captured bus := by
  obtain ⟨capture, passHi, passLow, password, setting, hcapture, -, -, hprefix⟩ := h
  exact ⟨capture, hcapture, (List.prefix_append _ _).trans hprefix⟩

theorem Unlocked.append {bus : List BusEvent} (h : Unlocked bus) (more : List BusEvent) :
    Unlocked (bus ++ more) := by
  obtain ⟨capture, passHi, passLow, password, setting, hc, hp, hs, hprefix⟩ := h
  exact ⟨capture, passHi, passLow, password, setting, hc, hp, hs,
    hprefix.trans (List.prefix_append _ _)⟩

def AtUnlocked (h : History) : Prop := ∃ bus, At ⟨some .captureDevice, bus⟩ h ∧ Unlocked bus

def Op.KeepsUnlocked (o : Op) : Prop := ∀ h, AtUnlocked h → ∀ r, AtUnlocked (h ++ [⟨o, r⟩])

theorem keepsUnlocked_of_unseen {o : Op} (ho : o.Unseen) : o.KeepsUnlocked := by
  rintro h ⟨bus, hat, hu⟩ r
  exact ⟨bus, hat.unseen ho r, hu⟩

theorem keepsUnlocked_wait (timeout : ℕ) : Op.KeepsUnlocked (.wait timeout) := by
  rintro h ⟨bus, hat, hu⟩ ⟨w, now⟩
  refine ⟨bus ++ [.received w], ⟨?_, ?_⟩, hu.append _⟩
  · exact hat.disciplined.snoc fun writer packet r heq => by cases heq
  · rw [visit_snoc, hat.visit_eq]
    rfl

theorem keepsUnlocked_write {writer : Writer} (hw : writer ≠ .captureDevice)
    (packet : DataPacket) : Op.KeepsUnlocked (.write writer packet) := by
  rintro h ⟨bus, hat, hu⟩ r
  refine ⟨bus ++ [.written writer packet], ⟨?_, ?_⟩, hu.append _⟩
  · refine hat.disciplined.snoc fun writer' packet' r' heq => ?_
    cases heq
    rw [hat.visit_eq]
    exact ⟨rfl, fun hinitial => absurd hinitial hw, fun _ => hu.captured, fun _ => hu⟩
  · rw [visit_snoc, hat.visit_eq]
    rfl

theorem keepsUnlocked_local (o : Op) (ho : o.Local) : o.KeepsUnlocked := by
  cases o with
  | wait timeout => exact keepsUnlocked_wait timeout
  | time | uninitialised | heap | timeDiviation | reportEvent | enqueData | crash =>
    exact keepsUnlocked_of_unseen fun _ _ => rfl
  | _ => exact ho.elim

def Op.KeepsDisciplined (o : Op) : Prop :=
  ∀ h, Disciplined h → ∀ r : Res o, Disciplined (h ++ [⟨o, r⟩])

theorem keepsDisciplined {o : Op} (ho : ∀ writer packet, o ≠ .write writer packet) :
    o.KeepsDisciplined := by
  intro h hd r
  refine hd.snoc fun writer packet r' heq => ?_
  cases heq
  exact absurd rfl (ho writer packet)

theorem keepsDisciplined_local (o : Op) (ho : o.Local) : o.KeepsDisciplined := by
  refine keepsDisciplined fun writer packet heq => ?_
  rw [heq] at ho
  exact ho

theorem only_keeps {α : Type} {x : ProcessorM α} (hx : x.Only Op.KeepsDisciplined) {h : History}
    (hd : Disciplined h) : Keeps x (fun _ => Disciplined) h :=
  hx.safe_history (fun _ => id) (fun _ ho => ho) hd

theorem perform_keeps {o : Op} (ho : ∀ writer packet, o ≠ .write writer packet) {h : History}
    (hd : Disciplined h) : Keeps (Prog.perform o) (fun _ => Disciplined) h :=
  only_keeps (x := Prog.perform o) ⟨keepsDisciplined ho, fun _ => trivial⟩ hd

namespace Processor

theorem captured_keeps {h : History} (cfg : ProcessorConfig) (fuel : ℕ) (p : Processor)
    {settings : DataPacket} (hsettings : settings.cmd = ackAllSettings) (hu : AtUnlocked h) :
    Keeps (p.captured cfg fuel settings) (fun _ => Disciplined) h := by
  have honly : (p.captured cfg fuel settings).Only Op.KeepsUnlocked :=
    captured_only (Op.ordinary_of_local keepsUnlocked_local) (keepsUnlocked_local _ trivial) (fun _ => keepsUnlocked_of_unseen (fun _ _ => rfl))
      (keepsUnlocked_write (by simp)) (keepsUnlocked_write (by simp))
      (keepsUnlocked_write (by simp)) (keepsUnlocked_of_unseen (fun _ _ => rfl))
      (keepsUnlocked_of_unseen (fun _ _ => rfl)) (keepsUnlocked_of_unseen (fun _ _ => rfl))
      cfg fuel p hsettings
  have hsafe : Keeps (p.captured cfg fuel settings) (fun _ => AtUnlocked) h :=
    honly.safe_history (fun h ⟨_, hat, _⟩ => hat.disciplined) (fun _ ho => ho) hu
  exact hsafe.mono fun _ _ ⟨_, hat, _⟩ => hat.disciplined

theorem processCapture_keeps {h : History} (cfg : ProcessorConfig) (fuel : ℕ) (p : Processor)
    (hat : At ⟨some .captureDevice, []⟩ h) :
    Keeps (p.processCapture cfg fuel) (fun _ => Disciplined) h := by
  unfold processCapture
  refine (captureDevice_keeps p hat).bind ?_
  rintro result h₁ ⟨capture, hat₁, hcapture⟩
  split
  next hresult =>
    refine (getPasswords_keeps p hat₁ (hcapture hresult)).bind ?_
    rintro passwords h₂ ⟨password, hat₂, hpassword⟩
    cases passwords with
    | none => exact hat₂.disciplined
    | some passwords =>
      obtain ⟨passHi, passLow⟩ := passwords
      have hcaptured : Captured (capture ++ password) :=
        ⟨capture, hcapture hresult, List.prefix_append _ _⟩
      refine (setPassword_keeps p hat₂ hcaptured).bind ?_
      rintro ⟨result, settings⟩ h₃ ⟨setting, hat₃, hsetting⟩
      dsimp only
      split
      next =>
        cases settings with
        | none => exact hat₃.disciplined
        | some settings =>
          obtain ⟨hcmd, hexchange⟩ := hsetting settings rfl
          refine captured_keeps cfg fuel p hcmd ⟨_, hat₃, ?_⟩
          rw [List.append_assoc]
          exact ⟨capture, passHi, passLow, password, setting, hcapture hresult,
            hpassword passHi passLow rfl, hexchange, List.prefix_rfl⟩
      next => exact hat₃.disciplined
  next => exact hat₁.disciplined

/-! ### The thread -/

theorem processState_keeps {h : History} (cfg : ProcessorConfig) (fuel : ℕ) (p : Processor)
    (hat : At ⟨some p.state, []⟩ h) :
    Keeps (p.processState cfg fuel) (fun _ => Disciplined) h := by
  unfold processState
  split
  next =>
    refine only_keeps (processTraffic_only (Op.ordinary_of_local keepsDisciplined_local) ?_ cfg p) hat.disciplined
    exact keepsDisciplined (by simp)
  next hstate =>
    rw [hstate] at hat
    exact processCapture_keeps cfg fuel p hat

theorem runRound_keeps {h : History} (cfg : ProcessorConfig) (fuel : ℕ) (p : Processor)
    (hd : Disciplined h) : Keeps (p.runRound cfg fuel) (fun _ => Disciplined) h := by
  unfold runRound
  refine (perform_keeps (by simp) hd).bind fun doRun h₁ hd₁ => ?_
  split
  · have henter : Keeps (Prog.perform (Op.enter p.nextState))
        (fun _ h' => At ⟨some p.nextState, []⟩ h') h₁ := by
      refine Prog.safe_history_op fun r => ?_
      have hd₂ : Disciplined (h₁ ++ [⟨.enter p.nextState, r⟩]) :=
        keepsDisciplined (by simp) h₁ hd₁ r
      refine ⟨hd₂, hd₂, ?_⟩
      rw [visit_snoc]
      rfl
    refine henter.bind fun _ h₂ hat₂ => ?_
    refine (processState_keeps cfg fuel _ hat₂).bind fun p h₃ hd₃ => ?_
    split
    · exact (perform_keeps (by simp) hd₃).bind fun _ _ hd₄ => hd₄
    · refine (perform_keeps (by simp) hd₃).bind fun empty h₄ hd₄ => ?_
      exact (perform_keeps (by simp) hd₄).bind fun _ _ hd₅ => hd₅
  · exact hd₁

theorem run_keeps (cfg : ProcessorConfig) (fuel : ℕ) (p : Processor) :
    Keeps (p.run cfg fuel) (fun _ => Disciplined) [] := by
  unfold run
  have hstart : (waitForStart cfg fuel).Only Op.KeepsDisciplined :=
    waitForStart_only (keepsDisciplined (by simp)) (keepsDisciplined (by simp))
      (keepsDisciplined (by simp)) (keepsDisciplined (by simp)) (keepsDisciplined (by simp)) cfg fuel
  refine (only_keeps hstart disciplined_nil).bind fun _ h₁ hd₁ => ?_
  refine (perform_keeps (by simp) hd₁).bind fun now h₂ hd₂ => ?_
  refine (Prog.Safe.loop (J := fun _ => Disciplined) (Q := fun _ => Disciplined)
    (fun p h hd => (runRound_keeps cfg fuel p hd).mono fun x _ hd => ?_) fuel hd₂).bind
    fun _ h₃ hd₃ => ?_
  · cases x <;> exact hd
  refine (perform_keeps (by simp) hd₃).bind fun _ h₄ hd₄ => ?_
  refine (only_keeps (Prog.Only.loop (fun _ => clearRound_only ?_) fuel ()) hd₄).bind
    fun _ h₅ hd₅ => ?_
  · exact keepsDisciplined (by simp)
  refine (perform_keeps (by simp) hd₅).bind fun _ h₆ hd₆ => ?_
  exact (perform_keeps (by simp) hd₆).bind fun _ _ hd₇ => hd₇

end Processor

/-- In every run, whatever the station sends and the clock shows, whatever is queued and whatever
`SetPassword` finds in its result, every write is allowed where it is made. -/
theorem run_disciplined (cfg : ProcessorConfig) (fuel : ℕ) (p : Processor)
    {c : ProcessorM Unit × History}
    (h : (historyEnv Op Res).Reaches (p.run cfg fuel, []) c) : Disciplined c.2 :=
  (Processor.run_keeps cfg fuel p).reaches disciplined_nil
    (fun _ _ _ hd => (historyEnv_drift hd).elim) h

/-- A visit with a command, a change of the mode and a request for information. -/
def visitScript : List (Event Op Res) :=
  noticeScript ++ captureScript ++ unansweredScript ++ cycleScript

theorem run_disciplined_capture : Disciplined visitScript := by
  obtain ⟨x, hreaches⟩ := Prog.exists_reaches_of_answers visitScript
    (p := knownProcessor.run (unfilteredConfig true) 2) (h := []) (by decide +kernel)
  exact run_disciplined (unfilteredConfig true) 2 knownProcessor hreaches

end Ritex
