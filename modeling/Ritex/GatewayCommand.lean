import Ritex.PacketRoundTrip

/-! Commands of the gateway protocol (`gateway/command.cpp`): a type mark, a packet and the end
of command. -/
namespace Ritex.Gateway
open Streams

inductive Command
  | wrp (samples : List Sample)
  | wre (events : List Event)
  | rdp (channels : List Channel)
  | rde (channels : List Channel)
  | rds (names : List VString)
  deriving DecidableEq

namespace Command

def wrpMark : Mark := .ofBytes 4 (ascii "WRP")
def wreMark : Mark := .ofBytes 4 (ascii "WRE")
def rdpMark : Mark := .ofBytes 4 (ascii "RDP")
def rdeMark : Mark := .ofBytes 4 (ascii "RDE")
def rdsMark : Mark := .ofBytes 4 (ascii "RDS")
def eoc : Mark := .ofBytes 4 [0x24, 0x2F, 0x80, 0x80]

def type : Command → Mark
  | wrp _ => wrpMark
  | wre _ => wreMark
  | rdp _ => rdpMark
  | rde _ => rdeMark
  | rds _ => rdsMark

/-- `_bin_write` of the command's class. -/
def writePayload : Command → Except GatewayError (List Byte)
  | wrp samples => writePacket samples true
  | wre events => writePacket events true
  | rdp channels => writePacket channels false
  | rde channels => writePacket channels false
  | rds names => writePacket names true

def readPayload (fuel : ℕ) : Command → GatewayM Command
  | wrp _ => do return wrp (← readPacket true fuel)
  | wre _ => do return wre (← readPacket true fuel)
  | rdp _ => do return rdp (← readPacket false fuel)
  | rde _ => do return rde (← readPacket false fuel)
  | rds _ => do return rds (← readPacket true fuel)

/-- The object that `bin_read` makes for a mark; `RDE` gets an `rdp_command_t`. -/
def ofMark (type : Mark) : Except GatewayError Command :=
  if type = wrpMark then .ok (wrp [])
  else if type = wreMark then .ok (wre [])
  else if type = rdpMark then .ok (rdp [])
  else if type = rdeMark then .ok (rdp [])
  else if type = rdsMark then .ok (rds [])
  else .error (.unknownType type)

def binWrite (c : Command) : Except GatewayError (List Byte) := do
  let payload ← c.writePayload
  return c.type.write ++ (payload ++ eoc.write)

def binRead (fuel : ℕ) : GatewayM Command := do
  let type ← FString.read 4
  let command ← ofMark type
  let command ← command.readPayload fuel
  let terminator ← FString.read 4
  if terminator ≠ eoc then throw (.terminatorExpected eoc terminator)
  return command

/-! ### Round trip -/

def PayloadRoundTrips : Command → Prop
  | wrp samples => ∃ body, PacketRoundTrips true samples body
  | wre events => ∃ body, PacketRoundTrips true events body
  | rdp channels => ∃ body, PacketRoundTrips false channels body
  | rde channels => ∃ body, PacketRoundTrips false channels body
  | rds names => ∃ body, PacketRoundTrips true names body

def recordCount : Command → ℕ
  | wrp samples => samples.length
  | wre events => events.length
  | rdp channels => channels.length
  | rde channels => channels.length
  | rds names => names.length

/-- The command read back is the command written, and what follows is left unread. -/
def RoundTrips (c : Command) : Prop :=
  ∃ bytes, c.binWrite = .ok bytes ∧ ∀ fuel > c.recordCount, Consumes (binRead fuel) bytes c

def readsAs : Command → Command
  | rde channels => rdp channels
  | c => c

/-- The command as its constructor leaves it. -/
def cleared : Command → Command
  | wrp _ => wrp []
  | wre _ => wre []
  | rdp _ => rdp []
  | rde _ => rde []
  | rds _ => rds []

theorem ofMark_type (c : Command) : ofMark c.type = .ok c.readsAs.cleared := by
  cases c <;> rfl

theorem reads_payload {c : Command} (h : c.PayloadRoundTrips) :
    ∃ payload, c.writePayload = .ok payload ∧
      ∀ fuel > c.recordCount, Consumes (c.readsAs.cleared.readPayload fuel) payload c.readsAs := by
  cases c with
  | wrp samples =>
    obtain ⟨body, hp⟩ := h
    exact ⟨_, hp.write, fun fuel hf => (hp.read fuel hf).map (Consumes.pure (wrp samples))⟩
  | wre events =>
    obtain ⟨body, hp⟩ := h
    exact ⟨_, hp.write, fun fuel hf => (hp.read fuel hf).map (Consumes.pure (wre events))⟩
  | rdp channels =>
    obtain ⟨body, hp⟩ := h
    exact ⟨_, hp.write, fun fuel hf => (hp.read fuel hf).map (Consumes.pure (rdp channels))⟩
  | rde channels =>
    obtain ⟨body, hp⟩ := h
    exact ⟨_, hp.write, fun fuel hf => (hp.read fuel hf).map (Consumes.pure (rdp channels))⟩
  | rds names =>
    obtain ⟨body, hp⟩ := h
    exact ⟨_, hp.write, fun fuel hf => (hp.read fuel hf).map (Consumes.pure (rds names))⟩

theorem consumes_ok (c : Command) :
    Consumes (liftM (Except.ok c : Except GatewayError Command) : GatewayM Command) [] c :=
  Consumes.pure c

theorem binRead_binWrite {c : Command} (h : c.PayloadRoundTrips) :
    ∃ bytes, c.binWrite = .ok bytes ∧
      ∀ fuel > c.recordCount, Consumes (binRead fuel) bytes c.readsAs := by
  obtain ⟨payload, hwrite, hread⟩ := reads_payload h
  refine ⟨c.type.write ++ (payload ++ eoc.write), ?_, fun fuel hf => ?_⟩
  · unfold binWrite
    rw [hwrite]
    rfl
  · unfold binRead
    refine (FString.consumes_read c.type).bind ?_
    rw [ofMark_type]
    refine (consumes_ok c.readsAs.cleared).after ?_
    refine (hread fuel hf).bind ?_
    refine (FString.consumes_read eoc).map ?_
    rw [if_neg (by simp)]
    exact Consumes.pure c.readsAs

theorem roundTrips_iff_readsAs {c : Command} (h : c.PayloadRoundTrips) :
    c.RoundTrips ↔ c.readsAs = c := by
  obtain ⟨bytes, hwrite, hread⟩ := binRead_binWrite h
  constructor
  · rintro ⟨bytes', hwrite', hread'⟩
    have heq : bytes' = bytes := by
      rw [hwrite] at hwrite'
      exact (Except.ok.inj hwrite').symm
    rw [heq] at hread'
    exact (hread _ (Nat.lt_succ_self _)).unique (hread' _ (Nat.lt_succ_self _))
  · intro hself
    rw [hself] at hread
    exact ⟨bytes, hwrite, hread⟩

theorem readsAs_eq_self_iff (c : Command) : c.readsAs = c ↔ c.type ≠ rdeMark := by
  have hne : wrpMark ≠ rdeMark ∧ wreMark ≠ rdeMark ∧ rdpMark ≠ rdeMark ∧ rdsMark ≠ rdeMark := by
    decide
  obtain ⟨hwrp, hwre, hrdp, hrds⟩ := hne
  cases c with
  | wrp samples => exact iff_of_true rfl hwrp
  | wre events => exact iff_of_true rfl hwre
  | rdp channels => exact iff_of_true rfl hrdp
  | rde channels => simp [readsAs, type]
  | rds names => exact iff_of_true rfl hrds

/-- Every command reads back as itself, except that an `rde` command becomes an `rdp` command. -/
theorem roundTrips_iff (c : Command) (h : c.PayloadRoundTrips) :
    c.RoundTrips ↔ c.type ≠ rdeMark :=
  (roundTrips_iff_readsAs h).trans (readsAs_eq_self_iff c)

/-- A temperature before and after a change. -/
def twoSamples : List Sample :=
  [⟨1, ⟨7⟩, .ofBytes 20 (ascii "2010-01-15 10:20:30"), 0x41A00000⟩,
    ⟨2, ⟨7⟩, .ofBytes 20 (ascii "2010-01-15 10:20:40"), 0x41A80000⟩]

theorem roundTrips_iff_wrp : (wrp twoSamples).RoundTrips ↔ (wrp twoSamples).type ≠ rdeMark :=
  roundTrips_iff (wrp twoSamples)
    (packet_roundTrips_of_encode Sample.write (fun s _ => sample_roundTrips s) (by decide))

/-- A request for events of no channel does not come back. -/
theorem roundTrips_rde_false : ¬∀ c : Command, c.PayloadRoundTrips → c.RoundTrips := by
  intro h
  have hpayload : (rde []).PayloadRoundTrips :=
    ⟨[], packet_roundTrips List.Forall₂.nil (by decide)⟩
  have hself : (rde []).readsAs = rde [] := (roundTrips_iff_readsAs hpayload).mp (h _ hpayload)
  cases hself

end Command

end Ritex.Gateway
