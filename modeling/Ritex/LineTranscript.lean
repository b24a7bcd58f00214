import Ritex.CorruptedFrames
import Ritex.EchoLedger
import Ritex.Simulation

/-! The line as a queue: what the station says comes out of `ReadPacket` piece by piece, whatever the
adapter writes in between and however damaged a piece is behind its header. -/
namespace Ritex
open BinaryPolynomial Interaction Transition

/-- A frame, a frame that an error has changed behind its header, or a header without a row. -/
inductive Piece
  | intact (f : Frame)
  | damaged (f : Frame) (pattern : List Byte) (hlength : pattern.length = f.payload.length + 2)
      (herror : DetectedError (wordsBits pattern))
  | unknown (high low cmd : Byte) (hrow : isLengthMatches cmd (high ++ low) = none)

namespace Piece

def bytes : Piece → List Byte
  | intact f => f.raw
  | damaged f pattern _ _ => corrupt f.raw pattern
  | unknown high low cmd _ => [ksuAddress, high, low, cmd]

def answer (writeMode : BitVec 32) (now : ℤ) : Piece → Received
  | intact f => (some (f.packet writeMode now), .noError)
  | damaged .. => (none, .badCrc)
  | unknown .. => (none, .badPacket)

end Piece

/-- A piece behind noise. -/
structure Utterance where
  noise : List Byte
  notMem : ksuAddress ∉ noise
  piece : Piece

def Utterance.bytes (u : Utterance) : List Byte := u.noise ++ u.piece.bytes

inductive LineTurn
  | write (packet : DataPacket)
  | say (u : Utterance)
  | hear (writeMode : BitVec 32) (now : ℤ) (fuel : ℕ) (polls : List Poll)

namespace LineTurn

/-- What the turn adds to the line. -/
def length : LineTurn → ℕ
  | write packet => packet.createRawPacket.length
  | say u => u.bytes.length
  | hear .. => 0

def lineLength (ts : List LineTurn) : ℕ := (ts.map length).sum

/-- The line does not fail, and the turns of the loops suffice for `n` bytes. -/
def Served (n : ℕ) : LineTurn → Prop
  | hear _ _ fuel polls => (∀ q ∈ polls, q.Quiet) ∧ n ≤ dataPolls polls ∧ n + 2 ≤ fuel
  | _ => True

end LineTurn

/-- What was said and not heard yet, and what was heard. -/
structure Dialogue where
  queue : List Utterance
  heard : List Received

/-- The adapter writes when it has heard all that was said. -/
def Dialogue.turn (d : Dialogue) : LineTurn → Option Dialogue
  | .write _ => if d.queue.isEmpty then some d else none
  | .say u => some { d with queue := d.queue ++ [u] }
  | .hear writeMode now _ _ =>
    match d.queue with
    | [] => none
    | u :: queue => some ⟨queue, d.heard ++ [u.piece.answer writeMode now]⟩

/-- The port, and what `ReadPacket` has returned. -/
structure Listener where
  wire : Wire
  heard : List Received

def Listener.turn (s : Listener) : LineTurn → Option Listener
  | .write packet =>
    some { s with wire := s.wire.writePacket packet (some packet.createRawPacket.length) }
  | .say u => some { s with wire := s.wire.sends u.bytes }
  | .hear writeMode now fuel polls =>
    match s.wire.readPacket writeMode now fuel polls with
    | (some r, wire) => some ⟨wire, s.heard ++ [r]⟩
    | (none, _) => none

/-! ### One call of `ReadPacket` -/

theorem Utterance.eval_readPacket (u : Utterance) {p : Port} {rest : List Byte}
    (hp : p.incoming = p.echoFifo ++ (u.bytes ++ rest)) (hquiet : ∀ q ∈ p.polls, q.Quiet)
    (hpolls : p.incoming.length ≤ dataPolls p.polls) (writeMode : BitVec 32) (now : ℤ) {fuel : ℕ}
    (hfuel : u.noise.length + 2 ≤ fuel) :
    ∃ p', (readPacket writeMode now fuel).eval read p = (some (u.piece.answer writeMode now), p') ∧
      p'.incoming = rest := by
  obtain ⟨noise, hn, piece⟩ := u
  cases piece with
  | intact f =>
    exact readPacket_behind_echo hp hquiet hpolls
      (eval_readPacket_of_frame f hn rest writeMode now hfuel)
  | damaged f pattern hlength herror =>
    exact (f.corrupt_rejected hlength herror).returns noise rest p ⟨hn, hp⟩ hquiet hpolls
      writeMode now fuel hfuel
  | unknown high low cmd hrow =>
    have htable : TableAnswer isLengthMatches writeMode now (high :: low :: cmd :: rest)
        (none, .badPacket) rest := .badPacket hrow
    have hanswer := eval_readPacket_of_answer hn htable hfuel
    refine readPacket_behind_echo hp hquiet hpolls ?_
    rw [Utterance.bytes, List.append_assoc]
    exact hanswer

/-- When `ReadPacket` returns on a quiet line, no echo is awaited. -/
theorem echoFifo_of_eval_readPacket {writeMode : BitVec 32} {now : ℤ} {fuel : ℕ} {p p' : Port}
    {line : List Byte} {r : Received} (hp : p.incoming = p.echoFifo ++ line)
    (hquiet : ∀ q ∈ p.polls, q.Quiet)
    (h : (readPacket writeMode now fuel).eval read p = (some r, p')) : p'.echoFifo = [] := by
  obtain ⟨echo, incoming, polls⟩ := p
  obtain rfl : incoming = echo ++ line := hp
  have honly := readPacket_only writeMode now fuel
  cases fuel with
  | zero => simp [readPacket, skipToAddress, Prog.loop, Prog.eval] at h
  | succ fuel =>
    obtain ⟨k, hk⟩ := readPacket_eq_op writeMode now fuel
    rw [hk] at h honly
    obtain ⟨polls', hquiet', -, heval⟩ | ⟨hnone, -⟩ := eval_drains k hquiet echo line
    · rw [heval] at h
      exact (eval_quiet_some honly ⟨rfl, hquiet'⟩ h).2.echoFifo
    · rw [h] at hnone
      cases hnone

/-! ### The port and the dialogue -/

/-- On the line are the echo that is awaited and then what was said and not heard yet. -/
structure Listener.Follows (n : ℕ) (ts : List LineTurn) (s : Listener) (d : Dialogue) : Prop where
  heard : s.heard = d.heard
  line : s.wire.line.map Prod.snd = s.wire.echoFifo ++ d.queue.flatMap Utterance.bytes
  length : s.wire.line.length + LineTurn.lineLength ts ≤ n
  served : ∀ t ∈ ts, t.Served n
  inStep : s.wire.InStep

/-- All that is on the line is echo if all that was said was heard. -/
theorem Wire.InStep.forall_echo {s : Wire} (h : s.InStep) (hline : s.line.map Prod.snd = s.echoFifo) :
    ∀ b ∈ s.line, b.1 = .echo := by
  obtain ⟨rest, hrest, -⟩ := h.line
  have hnil : rest = [] := by
    have hlength := congrArg List.length hline
    rw [hrest] at hlength
    simpa using hlength
  rw [hnil, List.append_nil] at hrest
  rw [hrest]
  exact Wire.allFrom_map .echo s.echoFifo

namespace Listener.Follows

variable {n : ℕ} {ts : List LineTurn} {s : Listener} {d d' : Dialogue}

theorem length_cons {t : LineTurn} (h : s.Follows n (t :: ts) d) :
    s.wire.line.length + t.length + LineTurn.lineLength ts ≤ n := by
  have hlength := h.length
  rw [LineTurn.lineLength, List.map_cons, List.sum_cons] at hlength
  rw [LineTurn.lineLength]
  omega

theorem served_tail {t : LineTurn} (h : s.Follows n (t :: ts) d) : ∀ t ∈ ts, t.Served n :=
  (List.forall_mem_cons.mp h.served).2

theorem write {packet : DataPacket} (h : s.Follows n (.write packet :: ts) d)
    (hd : d.turn (.write packet) = some d') :
    ∃ s', s.turn (.write packet) = some s' ∧ s'.Follows n ts d' := by
  obtain ⟨hempty, hsame⟩ := Option.ite_none_right_eq_some.mp hd
  obtain rfl := Option.some.inj hsame
  have hline := h.line
  rw [List.isEmpty_iff.mp hempty, List.flatMap_nil, List.append_nil] at hline
  have hlength := h.length_cons
  refine ⟨_, rfl, h.heard, ?_, ?_, h.served_tail, ?_⟩
  · rw [List.isEmpty_iff.mp hempty]
    simp [Wire.writePacket, hline]
  · simp only [Wire.writePacket, Option.getD_some, List.take_length, List.length_append, List.length_map]
    exact hlength
  · exact h.inStep.writePacket ⟨rfl, h.inStep.forall_echo hline⟩

theorem say {u : Utterance} (h : s.Follows n (.say u :: ts) d) (hd : d.turn (.say u) = some d') :
    ∃ s', s.turn (.say u) = some s' ∧ s'.Follows n ts d' := by
  obtain rfl := Option.some.inj hd
  have hlength := h.length_cons
  refine ⟨_, rfl, h.heard, ?_, ?_, h.served_tail, h.inStep.sends u.bytes⟩
  · simp [Wire.sends, h.line]
  · simp only [Wire.sends, List.length_append, List.length_map]
    exact hlength

theorem hear {writeMode : BitVec 32} {now : ℤ} {fuel : ℕ} {polls : List Poll}
    (h : s.Follows n (.hear writeMode now fuel polls :: ts) d)
    (hd : d.turn (.hear writeMode now fuel polls) = some d') :
    ∃ s', s.turn (.hear writeMode now fuel polls) = some s' ∧ s'.Follows n ts d' := by
  obtain ⟨hquiet, hpolls, hfuel⟩ := (List.forall_mem_cons.mp h.served).1
  obtain ⟨queue, heard⟩ := d
  cases queue with
  | nil => cases hd
  | cons u queue =>
    obtain rfl := Option.some.inj hd
    have hline := h.line
    rw [List.flatMap_cons] at hline
    have hbytes := congrArg List.length hline
    have hlength := h.length_cons
    simp only [List.length_map, List.length_append, Utterance.bytes] at hbytes
    have hshort : ({ s.wire with polls := polls } : Wire).port.incoming.length ≤ dataPolls polls := by
      simp only [Wire.port, List.length_map]
      omega
    obtain ⟨p', heval, hrest⟩ := u.eval_readPacket (p := ({ s.wire with polls := polls } : Wire).port)
      hline hquiet hshort writeMode now (show u.noise.length + 2 ≤ fuel by omega)
    have hfifo := echoFifo_of_eval_readPacket hline hquiet heval
    rw [Wire.readPacket_port] at heval
    obtain ⟨hanswer, rfl⟩ := Prod.mk.inj heval
    have hinStep := h.inStep.readPacket writeMode now fuel polls
    rcases hread : s.wire.readPacket writeMode now fuel polls with ⟨r, wire⟩
    rw [hread] at hanswer hrest hfifo hinStep
    obtain rfl : r = some (u.piece.answer writeMode now) := hanswer
    refine ⟨⟨wire, s.heard ++ [u.piece.answer writeMode now]⟩, ?_, ?_, ?_, ?_, h.served_tail, hinStep⟩
    · simp only [Listener.turn, hread]
    · rw [h.heard]
    · have hfifo' : wire.echoFifo = [] := hfifo
      rw [hfifo', List.nil_append]
      exact hrest
    · have hleft := congrArg List.length hrest
      simp only [Wire.port, List.length_map] at hleft
      dsimp only
      omega

theorem turn (t : LineTurn) (ts : List LineTurn) (s : Listener) (d d' : Dialogue)
    (h : s.Follows n (t :: ts) d) (hd : d.turn t = some d') :
    ∃ s', s.turn t = some s' ∧ s'.Follows n ts d' := by
  cases t with
  | write packet => exact h.write hd
  | say u => exact h.say hd
  | hear writeMode now fuel polls => exact h.hear hd

end Listener.Follows

/-- Whatever is written and said in a dialogue, `ReadPacket` returns what was said, piece by piece: the
packet of a frame, `ERROR_READ_BAD_CRC` for a frame that an error has changed behind its header and
`ERROR_READ_BAD_PACKET` for a header without a row. No byte of the next piece is lost. -/
theorem dialogue_heard (ts : List LineTurn) {d : Dialogue}
    (hd : takes Dialogue.turn ts ⟨[], []⟩ = some d)
    (hserved : ∀ t ∈ ts, t.Served (LineTurn.lineLength ts)) :
    ∃ s, takes Listener.turn ts ⟨.initial, []⟩ = some s ∧ s.heard = d.heard ∧ s.wire.Exact ∧
      s.wire.line.map Prod.snd = s.wire.echoFifo ++ d.queue.flatMap Utterance.bytes := by
  have hstart : Listener.Follows (LineTurn.lineLength ts) ts ⟨.initial, []⟩ ⟨[], []⟩ :=
    ⟨rfl, rfl, by simp [Wire.initial], hserved, Wire.inStep_initial⟩
  obtain ⟨s, hs, h⟩ := takes_of_follows Listener.Follows.turn hstart hd
  exact ⟨s, hs, h.heard, h.inStep.exact, h.line⟩

/-- An acknowledgement that was damaged and comes once more. -/
def ackTwice : List LineTurn :=
  let ack : Frame := ⟨.ack, 0x0B, [0x01], by decide, by decide⟩
  let polls := List.replicate 40 (Poll.data 4 0)
  [.write (getAllSettingsPacket 0),
    .say ⟨[0x00], by decide, .damaged ack [0x80, 0x00, 0x01] rfl (.inr (.inr (by decide)))⟩,
    .say ⟨[], by decide, .intact ack⟩, .hear 0 0 42 polls, .hear 0 1 42 polls]

theorem dialogue_heard_twice : ∃ s, takes Listener.turn ackTwice ⟨.initial, []⟩ = some s ∧
    s.heard = [(none, .badCrc), (some ⟨.ack, ksuAddress, 0x0B, 1, [0x01], by decide⟩, .noError)] ∧
    s.wire.Exact ∧ s.wire.line.map Prod.snd = s.wire.echoFifo ++ [] := by
  have hheard : takes Dialogue.turn ackTwice ⟨[], []⟩ = some ⟨[],
      [(none, .badCrc), (some ⟨.ack, ksuAddress, 0x0B, 1, [0x01], by decide⟩, .noError)]⟩ := rfl
  have hserved : ∀ t ∈ ackTwice, t.Served (LineTurn.lineLength ackTwice) := by
    have hlength : LineTurn.lineLength ackTwice = 21 := by decide +kernel
    rw [hlength]
    simp only [ackTwice, List.forall_mem_cons, List.not_mem_nil, false_implies, implies_true, and_true,
      LineTurn.Served, true_and]
    decide
  exact dialogue_heard ackTwice hheard hserved

end Ritex
