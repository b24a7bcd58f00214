import Ritex.LoggerThread
import Ritex.RelyGuarantee

/-! What a connection to the gateway carries: the commands of the records, one after the other, and a mark
at the end. Repeated calls of `bin_read` get them back. -/
namespace Ritex.Gateway
open Interaction Streams

/-- `bin_read`, `n` times. -/
def binReads (fuel : ℕ) : ℕ → GatewayM (List Command)
  | 0 => return []
  | n + 1 => do
    let command ← Command.binRead fuel
    let commands ← binReads fuel n
    return command :: commands

/-- The records that were passed to `BindParams` since the connection was opened, and the bytes that
`write()` has taken. -/
structure Upload (ρ : Type) where
  bound : List ρ
  wire : List Byte

namespace Upload

variable {ρ : Type}

def next (u : Upload ρ) : Interaction.Event (LoggerOp ρ) LoggerRes → Upload ρ
  | ⟨.socket, _⟩ => ⟨[], []⟩
  | ⟨.bindParams data, _⟩ => { u with bound := u.bound ++ [data] }
  | ⟨.write _ data, written⟩ => { u with wire := u.wire ++ data.take (Option.getD written 0).toNat }
  | _ => u

/-- `write()` takes all it is given, unless the thread is cancelled there. -/
def Whole (_ : Upload ρ) : Interaction.Event (LoggerOp ρ) LoggerRes → Prop
  | ⟨.write _ data, written⟩ => written = none ∨ written = some (data.length : ℤ)
  | _ => True

end Upload

def upload {ρ : Type} (h : List (Interaction.Event (LoggerOp ρ) LoggerRes)) : Upload ρ :=
  h.foldl Upload.next ⟨[], []⟩

/-- `write()` took all it was given on every connection. -/
def WholeWrites {ρ : Type} (h : List (Interaction.Event (LoggerOp ρ) LoggerRes)) : Prop :=
  Monitored Upload.next Upload.Whole ⟨[], []⟩ h

namespace LoggerClass

variable {ρ : Type} (cls : LoggerClass ρ)

def encoded (data : ρ) : List Byte := (cls.command data).binWrite.toOption.getD []

/-- The commands of the first `n` records are on the wire, and of the last record perhaps not; behind
all of them perhaps the mark. -/
def Framed (u : Upload ρ) : Prop :=
  (∃ n, n ≤ u.bound.length ∧ u.bound.length ≤ n + 1 ∧ u.wire = (u.bound.take n).flatMap cls.encoded) ∨
    u.wire = u.bound.flatMap cls.encoded ++ eot.bulk

def uploads : RelyGuarantee (LoggerOp ρ) LoggerRes (Upload ρ) where
  next := Upload.next
  relies := Upload.Whole
  guarantees := cls.Framed

/-- No record is in hand. -/
def Complete (u : Upload ρ) : Prop := u.wire = u.bound.flatMap cls.encoded

variable {cls} {u : Upload ρ}

theorem Complete.framed (h : cls.Complete u) : cls.Framed u :=
  .inl ⟨u.bound.length, le_refl _, Nat.le_succ _, by rw [List.take_length]; exact h⟩

theorem Complete.bind (h : cls.Complete u) (data : ρ) :
    cls.Framed { u with bound := u.bound ++ [data] } := by
  refine .inl ⟨u.bound.length, ?_, ?_, ?_⟩
  · simp
  · simp
  · rw [List.take_left]
    exact h

theorem Complete.sent (h : cls.Complete u) {data : ρ} {bytes : List Byte}
    (hbytes : (cls.command data).binWrite = .ok bytes) :
    cls.Complete ⟨u.bound ++ [data], u.wire ++ bytes⟩ := by
  have hencoded : cls.encoded data = bytes := by
    rw [encoded, hbytes]
    rfl
  rw [Complete, List.flatMap_append, List.flatMap_singleton, hencoded]
  exact congrArg (· ++ bytes) h

end LoggerClass

/-! ### The operations of a round -/

/-- Operations that neither open a connection nor bind nor write. -/
def LoggerOp.Idle {ρ : Type} : LoggerOp ρ → Prop
  | .socket => False
  | .bindParams _ => False
  | .write _ _ => False
  | _ => True

theorem LoggerOp.Idle.next {ρ : Type} {o : LoggerOp ρ} (ho : o.Idle) (u : Upload ρ) (r : LoggerRes o) :
    u.next ⟨o, r⟩ = u := by
  cases o with
  | socket | bindParams | write => exact ho.elim
  | _ => rfl

section
variable {ρ : Type} {cls : LoggerClass ρ} {u : Upload ρ}

abbrev Uploads (cls : LoggerClass ρ) {α : Type} (p : LoggerProg ρ α) (Q : α → Upload ρ → Prop)
    (u : Upload ρ) : Prop :=
  p.Meets cls.uploads Q u

/-- A program of idle operations does not change what was uploaded. -/
theorem only_uploads {J : Upload ρ → Prop} (hJ : ∀ u, J u → cls.Framed u) {α : Type} {p : LoggerProg ρ α}
    (hp : p.Only LoggerOp.Idle) (hu : J u) : Uploads cls p (fun _ u' => J u') u := by
  refine (hp.meets (G := cls.uploads) p.ensures_trivial hJ (fun o ho u hu r _ => ?_) hu).mono
    fun _ _ h => h.2
  show J (u.next ⟨o, r⟩)
  rwa [ho.next]

theorem orStop_idle {α : Type} {p : LoggerProg ρ (Option α)} (hp : p.Only LoggerOp.Idle) :
    (orStop p).Only LoggerOp.Idle :=
  hp.bind fun r => by cases r <;> trivial

theorem log_idle : (log : LoggerProg ρ Unit).Only LoggerOp.Idle :=
  orStop_idle ⟨trivial, fun _ => trivial⟩

theorem onlyIf_idle (c : Bool) {p : LoggerProg ρ Unit} (hp : p.Only LoggerOp.Idle) :
    (onlyIf c p).Only LoggerOp.Idle := by
  unfold onlyIf
  split
  · exact hp
  · trivial

theorem waitForData_idle (tm : ℤ) (waits : ℕ) :
    (waitForData tm waits : LoggerProg ρ ℤ).Only LoggerOp.Idle := by
  refine Prog.Only.loop (fun rc => ?_) waits 0
  refine Prog.Only.bind ⟨trivial, fun _ => trivial⟩ fun empty => ?_
  split
  · refine Prog.Only.bind ⟨trivial, fun _ => trivial⟩ fun _ => ?_
    exact (orStop_idle (p := LoggerOp.wake.perform) ⟨trivial, fun _ => trivial⟩).bind fun _ => trivial
  · trivial

namespace LoggerClass

theorem Complete.only (h : cls.Complete u) {α : Type} {p : LoggerProg ρ α} (hp : p.Only LoggerOp.Idle) :
    Uploads cls p (fun _ u' => cls.Complete u') u :=
  only_uploads (fun _ h => h.framed) hp h

/-- All bytes are taken, or the thread is cancelled before a byte is. -/
theorem write_uploads {sock : ℤ} {data : List Byte} (hbefore : cls.Framed u)
    (hafter : cls.Framed { u with wire := u.wire ++ data }) :
    Uploads cls (orStop (LoggerOp.write sock data).perform)
      (fun _ u' => u' = { u with wire := u.wire ++ data }) u := by
  intro written hwhole
  rcases hwhole with rfl | rfl
  · refine ⟨?_, trivial⟩
    show cls.Framed { u with wire := u.wire ++ data.take 0 }
    rwa [List.take_zero, List.append_nil]
  · have hall : cls.uploads.next u ⟨.write sock data, some (data.length : ℤ)⟩ =
        { u with wire := u.wire ++ data } := by
      show ({ u with wire := u.wire ++ data.take (data.length : ℤ).toNat } : Upload ρ) = _
      rw [Int.toNat_natCast, List.take_length]
    exact ⟨hall ▸ hafter, hall⟩

theorem transmit_uploads (h : cls.Complete u) (data : ρ) (sock : ℤ) :
    Uploads cls (cls.transmit sock (cls.command data).binWrite) (fun _ u' => cls.Complete u')
      { u with bound := u.bound ++ [data] } := by
  cases hbytes : (cls.command data).binWrite with
  | error e => exact fun never _ => nomatch never
  | ok bytes =>
    have hsent := h.sent hbytes
    refine (write_uploads (h.bind data) hsent.framed).bind ?_
    rintro _ _ rfl
    refine (hsent.only log_idle).bind fun _ u₂ h₂ => ?_
    refine (h₂.only (orStop_idle (p := (LoggerOp.read sock).perform) ⟨trivial, fun _ => trivial⟩)).bind
      fun _ u₃ h₃ => ?_
    exact h₃.only (onlyIf_idle _ log_idle)

theorem passOn_uploads (h : cls.Complete u) (sock : ℤ) (pData : Option ρ) :
    Uploads cls (cls.passOn sock pData) (fun _ u' => cls.Complete u') u := by
  cases pData with
  | none => exact h
  | some data =>
    unfold LoggerClass.passOn
    refine (h.only log_idle).bind fun _ u₁ h₁ => ?_
    have hbound := h₁.bind data
    refine fun _ _ => ⟨hbound, ?_⟩
    have hbefore : Uploads cls (onlyIf cls.logsBefore log)
        (fun _ u' => u' = { u₁ with bound := u₁.bound ++ [data] })
        { u₁ with bound := u₁.bound ++ [data] } :=
      only_uploads (fun _ hu => hu ▸ hbound) (onlyIf_idle _ log_idle) rfl
    have hsends : Uploads cls (cls.bindParams data sock) (fun _ u' => cls.Complete u')
        { u₁ with bound := u₁.bound ++ [data] } := by
      refine hbefore.bind ?_
      rintro _ _ rfl
      exact (transmit_uploads h₁ data sock).bind fun _ _ h₂ => h₂
    exact hsends.bind fun _ u₂ h₂ => h₂.only (p := (LoggerOp.delete data).perform) ⟨trivial, fun _ => trivial⟩

theorem sendItems_uploads (h : cls.Complete u) (sock : ℤ) (transactionSize : ℕ) :
    Uploads cls (cls.sendItems sock transactionSize) (fun _ u' => cls.Complete u') u := by
  induction transactionSize generalizing u with
  | zero => exact h
  | succ transactionSize ih =>
    unfold LoggerClass.sendItems
    refine (h.only log_idle).bind fun _ u₁ h₁ => ?_
    refine (h₁.only (p := LoggerOp.lock.perform) ⟨trivial, fun _ => trivial⟩).bind fun _ u₂ h₂ => ?_
    refine (h₂.only (p := (LoggerOp.empty .sending).perform) ⟨trivial, fun _ => trivial⟩).bind
      fun empty u₃ h₃ => ?_
    split
    · exact h₃
    · refine (h₃.only (p := LoggerOp.front.perform) ⟨trivial, fun _ => trivial⟩).bind
        fun pData u₄ h₄ => ?_
      refine (h₄.only (p := LoggerOp.pop.perform) ⟨trivial, fun _ => trivial⟩).bind fun _ u₅ h₅ => ?_
      refine (h₅.only (p := LoggerOp.unlock.perform) ⟨trivial, fun _ => trivial⟩).bind fun _ u₆ h₆ => ?_
      exact (passOn_uploads h₆ sock pData).bind fun _ u₇ h₇ => ih h₇

theorem round_uploads (cls : LoggerClass ρ) (waits : ℕ) :
    Uploads cls (cls.round waits) (fun _ u' => cls.Framed u') ⟨[], []⟩ := by
  have h : cls.Complete ⟨[], []⟩ := rfl
  unfold LoggerClass.round
  refine (h.only (p := LoggerOp.lock.perform) ⟨trivial, fun _ => trivial⟩).bind fun _ u₁ h₁ => ?_
  refine (h₁.only (p := LoggerOp.clockGettime.perform) ⟨trivial, fun _ => trivial⟩).bind
    fun now u₂ h₂ => (h₂.only log_idle).bind fun _ u₃ h₃ => ?_
  refine (h₃.only (waitForData_idle _ waits)).bind fun rc u₄ h₄ => ?_
  refine (h₄.only (p := LoggerOp.size.perform) ⟨trivial, fun _ => trivial⟩).bind
    fun size u₅ h₅ => ?_
  generalize toInt32 size = transactionSize
  refine (h₅.only log_idle).bind fun _ u₆ h₆ => ?_
  refine (h₆.only (p := LoggerOp.unlock.perform) ⟨trivial, fun _ => trivial⟩).bind fun _ u₇ h₇ => ?_
  split
  · exact (h₇.only log_idle).mono fun _ _ h => h.framed
  · intro sock _
    refine ⟨h.framed, ?_⟩
    have hconnect : (orStop (LoggerOp.connect sock).perform : LoggerProg ρ ℤ).Only LoggerOp.Idle :=
      orStop_idle ⟨trivial, fun _ => trivial⟩
    have hclose : (orStop (LoggerOp.close sock).perform : LoggerProg ρ ℤ).Only LoggerOp.Idle :=
      orStop_idle ⟨trivial, fun _ => trivial⟩
    refine (h.only log_idle).bind fun _ u₈ h₈ => (h₈.only log_idle).bind fun _ u₉ h₉ => ?_
    refine (h₉.only hconnect).bind fun _ u₁ h₁ => ?_
    refine (h₁.only log_idle).bind fun _ u₂ h₂ => (h₂.only log_idle).bind fun _ u₃ h₃ => ?_
    refine (sendItems_uploads h₃ sock transactionSize.toNat).bind fun _ u₄ h₄ => ?_
    refine (h₄.only log_idle).bind fun _ u₅ h₅ => ?_
    have hended : cls.Framed { u₅ with wire := u₅.wire ++ eot.bulk } := .inr (congrArg (· ++ eot.bulk) h₅)
    refine (write_uploads h₅.framed hended).bind ?_
    rintro _ _ rfl
    exact (only_uploads (fun _ h => h) hclose hended).bind fun _ _ h => h

end LoggerClass

/-! ### Reading back -/

theorem consumes_binReads {commands : List Command} (h : ∀ c ∈ commands, c.PayloadRoundTrips) {fuel : ℕ}
    (hfuel : ∀ c ∈ commands, c.recordCount < fuel) :
    Consumes (binReads fuel commands.length)
      (commands.flatMap fun c => c.binWrite.toOption.getD []) (commands.map Command.readsAs) := by
  induction commands with
  | nil => exact Consumes.pure []
  | cons c commands ih =>
    obtain ⟨hc, hrest⟩ := List.forall_mem_cons.mp h
    obtain ⟨hcfuel, hrestfuel⟩ := List.forall_mem_cons.mp hfuel
    obtain ⟨bytes, hwrite, hread⟩ := Command.binRead_binWrite hc
    rw [List.flatMap_cons, hwrite]
    unfold binReads
    exact (hread fuel hcfuel).bind ((ih hrest hrestfuel).map (Consumes.pure _))

theorem data_payloadRoundTrips (timeToString : ℤ → List Byte) (floatBits : ℕ → BitVec 32)
    (packet : DBDataPacket) :
    ((dataLoggerThread timeToString floatBits).command packet).PayloadRoundTrips :=
  packet_roundTrips_of_encode Sample.write (fun s _ => sample_roundTrips s) (by
    simp [encodedSize, PacketItem.size, FString.size, intMax])

theorem event_payloadRoundTrips (timeToString : ℤ → List Byte) {event : DBEventCommon} {e : Event}
    (he : (eventLoggerThread timeToString).command event = .wre [e]) (ht : e.Trimmed)
    (hsize : encodedSize true [e] ≤ intMax) :
    ((eventLoggerThread timeToString).command event).PayloadRoundTrips := by
  rw [he]
  refine packet_roundTrips_of_encode Event.encoded (fun e' he' => ?_) hsize
  obtain rfl := List.mem_singleton.mp he'
  exact event_roundTrips ht ((size_le_encodedSize he').trans hsize)

/-- As long as `write()` takes what it is given, repeated calls of `bin_read` get the commands of the
records back from a connection, in the order of the calls of `BindParams` and without the last command
at most, and leave the mark that ends a round. -/
theorem session_decodes (cls : LoggerClass ρ) (waits : ℕ)
    {c : LoggerProg ρ Unit × List (Interaction.Event (LoggerOp ρ) LoggerRes)}
    (h : (historyEnv (LoggerOp ρ) LoggerRes).Reaches (cls.round waits, []) c) (hwhole : WholeWrites c.2)
    (hrecords : ∀ data ∈ (upload c.2).bound, (cls.command data).PayloadRoundTrips) :
    ∃ n body tail, n ≤ (upload c.2).bound.length ∧ (upload c.2).bound.length ≤ n + 1 ∧
      (upload c.2).wire = body ++ tail ∧
      (tail = [] ∨ tail = eot.bulk ∧ n = (upload c.2).bound.length) ∧
      ∀ fuel, (∀ data ∈ (upload c.2).bound, (cls.command data).recordCount < fuel) →
        Consumes (binReads fuel n) body
          (((upload c.2).bound.take n).map fun data => (cls.command data).readsAs) := by
  have hstart : cls.Framed ⟨[], []⟩ := LoggerClass.Complete.framed rfl
  have hframed : cls.Framed (upload c.2) :=
    (LoggerClass.round_uploads cls waits).reaches hstart h hwhole
  generalize upload c.2 = u at hframed hrecords
  have hreads : ∀ n ≤ u.bound.length, ∀ fuel, (∀ data ∈ u.bound, (cls.command data).recordCount < fuel) →
      Consumes (binReads fuel n) ((u.bound.take n).flatMap cls.encoded)
        ((u.bound.take n).map fun data => (cls.command data).readsAs) := by
    intro n hn fuel hfuel
    have htaken : ∀ c ∈ (u.bound.take n).map cls.command, ∃ data ∈ u.bound, cls.command data = c := by
      intro c hc
      obtain ⟨data, hdata, rfl⟩ := List.mem_map.mp hc
      exact ⟨data, List.mem_of_mem_take hdata, rfl⟩
    have hsendable : ∀ c ∈ (u.bound.take n).map cls.command, c.PayloadRoundTrips := by
      intro c hc
      obtain ⟨data, hdata, rfl⟩ := htaken c hc
      exact hrecords data hdata
    have henough : ∀ c ∈ (u.bound.take n).map cls.command, c.recordCount < fuel := by
      intro c hc
      obtain ⟨data, hdata, rfl⟩ := htaken c hc
      exact hfuel data hdata
    have hcommands := consumes_binReads hsendable henough
    rw [List.length_map, List.length_take_of_le hn, List.flatMap_map, List.map_map] at hcommands
    exact hcommands
  rcases hframed with ⟨n, hn, hle, hwire⟩ | hwire
  · exact ⟨n, _, [], hn, hle, by rw [hwire, List.append_nil], .inl rfl, hreads n hn⟩
  · refine ⟨u.bound.length, _, eot.bulk, le_refl _, Nat.le_succ _, ?_, .inr ⟨rfl, rfl⟩,
      hreads _ (le_refl _)⟩
    rw [hwire, List.take_length]

/-- Times are not written, and a value is its number. -/
def plainLogger : LoggerClass DBDataPacket := dataLoggerThread (fun _ => []) (BitVec.ofNat 32)

def plainPacket : DBDataPacket := ⟨1, 2, 3, 4⟩

/-- A round that sends the packet and the mark. -/
def packetScript : List (Interaction.Event (LoggerOp DBDataPacket) LoggerRes) :=
  [⟨.lock, ()⟩, ⟨.clockGettime, (0 : ℤ)⟩, ⟨.log, some ()⟩, ⟨.empty .waiting, false⟩, ⟨.size, (1 : ℕ)⟩,
   ⟨.log, some ()⟩, ⟨.unlock, ()⟩, ⟨.socket, (3 : ℤ)⟩, ⟨.log, some ()⟩, ⟨.log, some ()⟩,
   ⟨.connect 3, some (0 : ℤ)⟩, ⟨.log, some ()⟩, ⟨.log, some ()⟩, ⟨.log, some ()⟩, ⟨.lock, ()⟩,
   ⟨.empty .sending, false⟩, ⟨.front, some plainPacket⟩, ⟨.pop, ()⟩, ⟨.unlock, ()⟩, ⟨.log, some ()⟩,
   ⟨.bindParams plainPacket, ()⟩, ⟨.write 3 (plainLogger.encoded plainPacket), some (48 : ℤ)⟩,
   ⟨.log, some ()⟩, ⟨.read 3, some none⟩, ⟨.log, some ()⟩, ⟨.delete plainPacket, ()⟩, ⟨.log, some ()⟩,
   ⟨.write 3 eot.bulk, some (4 : ℤ)⟩, ⟨.close 3, some (0 : ℤ)⟩]

theorem session_decodes_packet : ∃ n body tail, n ≤ 1 ∧ 1 ≤ n + 1 ∧
    (upload packetScript).wire = body ++ tail ∧ (tail = [] ∨ tail = eot.bulk ∧ n = 1) ∧
    ∀ fuel, (∀ data ∈ [plainPacket], (plainLogger.command data).recordCount < fuel) →
      Consumes (binReads fuel n) body
        (([plainPacket].take n).map fun data => (plainLogger.command data).readsAs) := by
  obtain ⟨x, hreaches⟩ := Prog.exists_reaches_of_answers packetScript
    (p := plainLogger.round 1) (h := []) (by decide +kernel)
  have hbound : (upload packetScript).bound = [plainPacket] := rfl
  have hwhole : WholeWrites packetScript := by
    simp [WholeWrites, packetScript, Monitored, Upload.Whole]
    decide +kernel
  have hdecodes := session_decodes plainLogger 1 hreaches hwhole fun data _ =>
    data_payloadRoundTrips _ _ data
  rwa [List.nil_append, hbound] at hdecodes

end

end Ritex.Gateway
