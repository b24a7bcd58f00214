import Ritex.QuietLine

/-! What `ReadPacket` makes of the bytes behind the first address byte: its answer is that of the rows of
`m_cmdParams` and `m_ackParams`, the last row aside. -/
namespace Ritex
open Interaction

/-- All rows of both tables. -/
def tableType (cmd : Byte) (length : Word) : Option PacketType :=
  if hasRow cmdParams cmdParams.length cmd length then some .cmd
  else if hasRow ackParams ackParams.length cmd length then some .ack
  else none

/-- `ACK_STORED_INFO`, the row behind `MAX_ACK_INDEX`. -/
def IsStoredInfo (cmd : Byte) (length : Word) : Prop := cmd = 0x68 ∧ length = 0x213

theorem isLengthMatches_eq_tableType (cmd : Byte) (length : Word) :
    isLengthMatches cmd length = tableType cmd length ↔ ¬IsStoredInfo cmd length := by
  constructor
  · rintro heq ⟨rfl, rfl⟩
    revert heq
    decide
  · intro hstored
    have hlast : ackParams = ackParams.take maxAckIndex ++ [⟨ackStoredInfo, 0x213, idxAckNone⟩] := rfl
    have hrow : hasRow ackParams ackParams.length cmd length =
        hasRow ackParams maxAckIndex cmd length := by
      rw [hasRow, List.take_length, hlast, List.any_append, ← hlast]
      have hnone : (getCmd ackStoredInfo == cmd.setWidth 16 && (0x213 : Word) == length) = false := by
        rw [Bool.and_eq_false_iff, beq_eq_false_iff_ne, beq_eq_false_iff_ne, ← not_and_or]
        rintro ⟨hcmd, hlength⟩
        have hlsb := congrArg lsb hcmd
        rw [lsb_setWidth] at hlsb
        exact hstored ⟨hlsb.symm, hlength.symm⟩
      rw [List.any_cons, hnone, List.any_nil, Bool.or_false, Bool.or_false]
      rfl
    rw [isLengthMatches, tableType, hrow]
    rfl

theorem TableAnswer.congr {table table' : Byte → Word → Option PacketType} {writeMode : BitVec 32}
    {now : ℤ} {s rest : List Byte} {r : Received} (h : TableAnswer table writeMode now s r rest)
    (heq : ∀ high low cmd rest, s = high :: low :: cmd :: rest →
      table cmd (high ++ low) = table' cmd (high ++ low)) :
    TableAnswer table' writeMode now s r rest := by
  cases h with
  | badPacket h => exact .badPacket ((heq _ _ _ _ rfl).symm.trans h)
  | badCrc h hlength hcrc => exact .badCrc ((heq _ _ _ _ rfl).symm.trans h) hlength hcrc
  | packet h hlength hlt hcrc => exact .packet ((heq _ _ _ _ rfl).symm.trans h) hlength hlt hcrc

theorem TableAnswer.unique {writeMode : BitVec 32} {now : ℤ} {s rest rest' : List Byte} {r r' : Received}
    (h : TableAnswer isLengthMatches writeMode now s r rest)
    (h' : TableAnswer isLengthMatches writeMode now s r' rest') : r = r' ∧ rest = rest' := by
  have heq := (eval_readBody_iff.mpr h).symm.trans (eval_readBody_iff.mpr h')
  obtain ⟨hr, hrest⟩ := Prod.mk.inj heq
  exact ⟨Option.some.inj hr, hrest⟩

/-! ### The whole line -/

theorem first_address_unique {noise noise' s s' : List Byte} (hn : ksuAddress ∉ noise)
    (hn' : ksuAddress ∉ noise') (h : noise ++ ksuAddress :: s = noise' ++ ksuAddress :: s') :
    noise = noise' ∧ s = s' := by
  induction noise generalizing noise' with
  | nil =>
    cases noise' with
    | nil => exact ⟨rfl, (List.cons.inj h).2⟩
    | cons x noise' =>
      have hx : ksuAddress = x := (List.cons.inj h).1
      exact absurd (hx ▸ List.mem_cons_self) hn'
  | cons y noise ih =>
    rw [List.mem_cons, not_or] at hn
    cases noise' with
    | nil => exact absurd (List.cons.inj h).1.symm hn.1
    | cons x noise' =>
      rw [List.mem_cons, not_or] at hn'
      obtain ⟨rfl, hrest⟩ := List.cons.inj h
      obtain ⟨rfl, rfl⟩ := ih hn.2 hn'.2 hrest
      exact ⟨rfl, rfl⟩

/-- The port delivers the bytes without a time-out or a failure, and no echo is awaited. -/
structure Delivers (p : Port) (bytes : List Byte) : Prop where
  quiet : p.Quiet
  incoming : p.incoming = bytes

theorem eval_readPacket_of_answer {noise s rest : List Byte} (hn : ksuAddress ∉ noise)
    {writeMode : BitVec 32} {now : ℤ} {r : Received}
    (h : TableAnswer isLengthMatches writeMode now s r rest) {fuel : ℕ}
    (hfuel : noise.length + 2 ≤ fuel) :
    (readPacket writeMode now fuel).eval takeBytes (noise ++ ksuAddress :: s) = (some r, rest) := by
  rw [readPacket, Prog.eval_bind, eval_skip_of_noise hn s hfuel]
  exact eval_readBody_iff.mpr h

theorem answer_of_eval_readPacket {noise s rest : List Byte} (hn : ksuAddress ∉ noise)
    {writeMode : BitVec 32} {now : ℤ} {fuel : ℕ} {r : Received}
    (h : (readPacket writeMode now fuel).eval takeBytes (noise ++ ksuAddress :: s) = (some r, rest)) :
    TableAnswer isLengthMatches writeMode now s r rest := by
  rw [readPacket, Prog.eval_bind] at h
  rcases hskip : (skipToAddress fuel).eval takeBytes (noise ++ ksuAddress :: s) with ⟨_ | x, s₁⟩
  · rw [hskip] at h
    cases h
  · rw [hskip] at h
    obtain ⟨rfl, noise', hn', heq⟩ := noise_of_eval_skip hskip
    obtain ⟨-, rfl⟩ := first_address_unique hn hn' heq
    exact eval_readBody_iff.mp h

theorem readPacket_answers {noise s : List Byte} (hn : ksuAddress ∉ noise) {writeMode : BitVec 32}
    {now : ℤ} {fuel : ℕ} {p p' : Port} (hp : Delivers p (noise ++ ksuAddress :: s)) {r : Received}
    (h : (readPacket writeMode now fuel).eval read p = (some r, p')) :
    TableAnswer isLengthMatches writeMode now s r p'.incoming := by
  obtain ⟨ht, -⟩ := eval_quiet_some (readPacket_only writeMode now fuel) hp.quiet h
  rw [hp.incoming] at ht
  exact answer_of_eval_readPacket hn ht

theorem readPacket_returns {noise s rest : List Byte} (hn : ksuAddress ∉ noise)
    {writeMode : BitVec 32} {now : ℤ} {r : Received}
    (h : TableAnswer isLengthMatches writeMode now s r rest) {fuel : ℕ}
    (hfuel : noise.length + 2 ≤ fuel) {p : Port} (hp : Delivers p (noise ++ ksuAddress :: s))
    (hpolls : p.incoming.length ≤ dataPolls p.polls) :
    ∃ p', (readPacket writeMode now fuel).eval read p = (some r, p') ∧ p'.incoming = rest := by
  have ht : (readPacket writeMode now fuel).eval takeBytes p.incoming = (some r, rest) := by
    rw [hp.incoming]
    exact eval_readPacket_of_answer hn h hfuel
  exact eval_quiet_returns (readPacket_only writeMode now fuel) hp.quiet ht (by omega)

/-- On a line with the first address byte behind `noise`, `ReadPacket` answers as all rows of both tables
say, and nothing else. -/
structure ExactByTables (noise s : List Byte) : Prop where
  returns : ∀ writeMode now r rest, TableAnswer tableType writeMode now s r rest →
    ∀ fuel p, noise.length + 2 ≤ fuel → Delivers p (noise ++ ksuAddress :: s) →
      p.incoming.length ≤ dataPolls p.polls →
        ∃ p', (readPacket writeMode now fuel).eval read p = (some r, p') ∧ p'.incoming = rest
  only : ∀ writeMode now fuel p, Delivers p (noise ++ ksuAddress :: s) → ∀ r p',
    (readPacket writeMode now fuel).eval read p = (some r, p') →
      TableAnswer tableType writeMode now s r p'.incoming
  /-- `Allocate` gets the size of the read that follows it. -/
  allocates : ∀ writeMode now fuel, (readPacket writeMode now fuel).Only (0 < ·)
  decrement : ∀ cmd length type, isLengthMatches cmd length = some type →
    (length - 1).toNat + 1 = length.toNat

theorem exactByTables_of_ne {noise s : List Byte} (hn : ksuAddress ∉ noise)
    (hs : ∀ rest, s ≠ 0x02 :: 0x13 :: 0x68 :: rest) : ExactByTables noise s := by
  have hsame : ∀ high low cmd rest, s = high :: low :: cmd :: rest →
      isLengthMatches cmd (high ++ low) = tableType cmd (high ++ low) := by
    rintro high low cmd rest rfl
    rw [isLengthMatches_eq_tableType]
    rintro ⟨rfl, hlength⟩
    have hhigh := congrArg msb hlength
    have hlow := congrArg lsb hlength
    rw [msb_append] at hhigh
    rw [lsb_append] at hlow
    rw [hhigh, hlow] at hs
    exact hs rest rfl
  constructor
  · intro writeMode now r rest h fuel p hfuel hp hpolls
    have hcode := h.congr fun high low cmd rest heq => (hsame high low cmd rest heq).symm
    exact readPacket_returns hn hcode hfuel hp hpolls
  · intro writeMode now fuel p hp r p' h
    exact (readPacket_answers hn hp h).congr hsame
  · exact readPacket_only
  · exact fun _ _ _ => toNat_sub_one_of_matches

theorem delivers_bytes (bytes : List Byte) :
    Delivers ⟨[], bytes, List.replicate bytes.length (.data 1 0)⟩ bytes ∧
      bytes.length ≤ dataPolls (List.replicate bytes.length (.data 1 0)) := by
  refine ⟨⟨⟨rfl, fun q hq => ?_⟩, rfl⟩, ?_⟩
  · rw [List.eq_of_mem_replicate hq]
    exact Nat.one_pos
  · rw [dataPolls, List.countP_replicate]
    simp [Poll.isData]

/-- The information that `ACK_STORED_INFO` labels is no packet. -/
theorem not_exactByTables {noise : List Byte} (hn : ksuAddress ∉ noise) (rest : List Byte) :
    ¬ExactByTables noise (0x02 :: 0x13 :: 0x68 :: rest) := by
  intro hexact
  obtain ⟨hp, hpolls⟩ := delivers_bytes (noise ++ ksuAddress :: 0x02 :: 0x13 :: 0x68 :: rest)
  have hcode : TableAnswer isLengthMatches 0 0 (0x02 :: 0x13 :: 0x68 :: rest)
      (none, .badPacket) rest := .badPacket (by decide)
  obtain ⟨p', heval, -⟩ := readPacket_returns hn hcode (le_refl _) hp hpolls
  have hanswer := hexact.only _ _ _ _ hp _ _ heval
  cases hanswer with
  | badPacket h => exact absurd h (by decide)

/-- `ReadPacket` accepts what its tables say exactly if the frame is not `ACK_STORED_INFO` with the
length of the last row. -/
theorem read_exact_iff {noise : List Byte} (hn : ksuAddress ∉ noise) (s : List Byte) :
    ExactByTables noise s ↔ ∀ rest, s ≠ 0x02 :: 0x13 :: 0x68 :: rest := by
  constructor
  · rintro hexact rest rfl
    exact not_exactByTables hn rest hexact
  · exact exactByTables_of_ne hn

/-- A motor command behind a byte of noise. -/
theorem read_exact_iff_motor : ExactByTables [0x00] [0x00, 0x01, 0x84, 0x12, 0x34] ↔
    ∀ rest, ([0x00, 0x01, 0x84, 0x12, 0x34] : List Byte) ≠ 0x02 :: 0x13 :: 0x68 :: rest := by
  have hn : ksuAddress ∉ ([0x00] : List Byte) := by decide
  exact read_exact_iff hn _

theorem read_exact_false : ¬∀ noise s, ksuAddress ∉ noise → ExactByTables noise s := by
  intro hall
  have hn : ksuAddress ∉ ([] : List Byte) := by simp
  exact not_exactByTables hn [] (hall [] _ hn)

end Ritex
