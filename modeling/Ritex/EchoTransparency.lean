import Ritex.QuietLine

/-! Echo cancellation: bytes of the own transmission at the head of the line do not change
what `ReadPacket` makes of the bytes behind them. -/
namespace Ritex
open Interaction

/-- The first thing that `ReadPacket` reads is a single byte. -/
theorem readPacket_eq_op (writeMode : BitVec 32) (now : ℤ) (fuel : ℕ) :
    ∃ k, readPacket writeMode now (fuel + 1) = .op 1 k :=
  ⟨_, by
    rw [readPacket, skipToAddress, Prog.loop, skipRound, if_neg (by decide)]
    rfl⟩

variable {α : Type}

/-- A program that starts with a single-byte read runs against pending echo as it would run
without, on what is left of the schedule. -/
theorem eval_drains (k : ReadResult 1 → Reader α) {polls : List Poll}
    (hq : ∀ q ∈ polls, q.Quiet) (echo s : List Byte) :
    (∃ polls', (∀ q ∈ polls', q.Quiet) ∧ dataPolls polls ≤ echo.length + dataPolls polls' ∧
      (Prog.op 1 k : Reader α).eval read ⟨echo, echo ++ s, polls⟩ =
        (Prog.op 1 k : Reader α).eval read ⟨[], s, polls'⟩) ∨
    (((Prog.op 1 k : Reader α).eval read ⟨echo, echo ++ s, polls⟩).1 = none ∧
      dataPolls polls < echo.length) := by
  rcases readLoop_drains hq echo s with ⟨polls', hq', hd, he⟩ | ⟨hn, hd⟩
  · refine .inl ⟨polls', hq', hd, ?_⟩
    have hread : read 1 ⟨echo, echo ++ s, polls⟩ = read 1 ⟨[], s, polls'⟩ := he
    simp only [Prog.eval, hread]
  · refine .inr ⟨?_, hd⟩
    rcases hr : read 1 ⟨echo, echo ++ s, polls⟩ with ⟨o, p⟩
    obtain rfl : o = none := by rw [read] at hr; rw [hr] at hn; exact hn
    rw [Prog.eval_op_none hr]

theorem calls_drains (k : ReadResult 1 → Reader α) {polls : List Poll}
    (hq : ∀ q ∈ polls, q.Quiet) (echo s : List Byte) :
    ∀ call ∈ (Prog.op 1 k : Reader α).calls read ⟨echo, echo ++ s, polls⟩,
      1 < call.1 → call.2.echoFifo = [] := by
  intro call hc hlen
  simp only [Prog.calls, List.mem_cons] at hc
  rcases hc with rfl | hc
  · exact absurd hlen (lt_irrefl 1)
  · rcases hr : read 1 ⟨echo, echo ++ s, polls⟩ with ⟨_ | r, p⟩
    · simp [hr] at hc
    · rw [hr] at hc
      refine calls_empty_fifo (k r) ?_ call hc
      rcases readLoop_drains hq echo s with ⟨polls', hq', -, he⟩ | ⟨hn, -⟩
      · have hread : read 1 ⟨[], s, polls'⟩ = (some r, p) := he.symm.trans hr
        exact (read_quiet_some (by decide) ⟨rfl, hq'⟩ hread).2.1.echoFifo
      · rw [read] at hr
        simp [hr] at hn

/-- On a quiet schedule with a turn for every byte, `ReadPacket` answers behind the pending echo what
the plain bytes say. -/
theorem readPacket_behind_echo {writeMode : BitVec 32} {now : ℤ} {fuel : ℕ} {p : Port}
    {line rest : List Byte} {r : Received} (hp : p.incoming = p.echoFifo ++ line)
    (hquiet : ∀ q ∈ p.polls, q.Quiet) (hpolls : p.incoming.length ≤ dataPolls p.polls)
    (h : (readPacket writeMode now fuel).eval takeBytes line = (some r, rest)) :
    ∃ p', (readPacket writeMode now fuel).eval read p = (some r, p') ∧ p'.incoming = rest := by
  obtain ⟨echo, incoming, polls⟩ := p
  obtain rfl : incoming = echo ++ line := hp
  dsimp only at hquiet hpolls
  rw [List.length_append] at hpolls
  have honly := readPacket_only writeMode now fuel
  cases fuel with
  | zero => simp [readPacket, skipToAddress, Prog.loop, Prog.eval] at h
  | succ fuel =>
    obtain ⟨k, hk⟩ := readPacket_eq_op writeMode now fuel
    rw [hk] at h honly ⊢
    obtain ⟨polls', hquiet', hcount, heval⟩ | ⟨-, hcount⟩ := eval_drains k hquiet echo line
    · have hpolls' : line.length ≤ dataPolls polls' := by omega
      rw [heval]
      exact eval_quiet_returns honly ⟨rfl, hquiet'⟩ h (Nat.le_add_right_of_le hpolls')
    · omega

/-- Echo cancellation is transparent: on a line that first delivers the pending echo,
`ReadPacket` returns what it returns on the station's bytes alone and consumes the same of
them, however the two lines are cut into chunks, and no read of several bytes meets echo. -/
theorem readPacket_echo_transparent (writeMode : BitVec 32) (now : ℤ) (fuel : ℕ)
    (echo station : List Byte) {polls polls₀ : List Poll} (hq : ∀ q ∈ polls, q.Quiet)
    (hq₀ : ∀ q ∈ polls₀, q.Quiet) :
    let withEcho := (readPacket writeMode now fuel).eval read ⟨echo, echo ++ station, polls⟩
    let alone := (readPacket writeMode now fuel).eval read ⟨[], station, polls₀⟩
    (withEcho.1.isSome → alone.1.isSome →
      withEcho.1 = alone.1 ∧ withEcho.2.incoming = alone.2.incoming ∧
        withEcho.2.echoFifo = [] ∧ alone.2.echoFifo = []) ∧
    (echo.length + station.length ≤ dataPolls polls → station.length ≤ dataPolls polls₀ →
      withEcho.1 = alone.1) ∧
    ∀ call ∈ (readPacket writeMode now fuel).calls read ⟨echo, echo ++ station, polls⟩,
      1 < call.1 → call.2.echoFifo = [] := by
  have honly := readPacket_only writeMode now fuel
  rcases fuel with _ | fuel
  · refine ⟨?_, ?_, ?_⟩ <;>
      simp [readPacket, skipToAddress, Prog.loop, Prog.eval, Prog.calls]
  · obtain ⟨k, hk⟩ := readPacket_eq_op writeMode now fuel
    have hplain : ∀ polls', (∀ q ∈ polls', q.Quiet) → ∀ r p,
        (readPacket writeMode now (fuel + 1)).eval read ⟨[], station, polls'⟩ = (some r, p) →
        (readPacket writeMode now (fuel + 1)).eval takeBytes station = (some r, p.incoming) ∧
          p.Quiet :=
      fun polls' h' r p hr => eval_quiet_some honly (p := ⟨[], station, polls'⟩) ⟨rfl, h'⟩ hr
    rw [hk] at hplain honly ⊢
    have hdrains := eval_drains k hq echo station
    refine ⟨fun hecho halone => ?_, fun hample hample₀ => ?_, calls_drains k hq echo station⟩
    · obtain ⟨polls', hq', -, he⟩ | ⟨hn, -⟩ := hdrains
      · rw [he] at hecho ⊢
        rcases h₁ : (Prog.op 1 k).eval read ⟨[], station, polls'⟩ with ⟨_ | r₁, p₁⟩
        · simp [h₁] at hecho
        · rcases h₂ : (Prog.op 1 k).eval read ⟨[], station, polls₀⟩ with ⟨_ | r₂, p₂⟩
          · simp [h₂] at halone
          · obtain ⟨e₁, q₁⟩ := hplain _ hq' r₁ p₁ h₁
            obtain ⟨e₂, q₂⟩ := hplain _ hq₀ r₂ p₂ h₂
            rw [e₁] at e₂
            simp only [Prod.mk.injEq] at e₂
            exact ⟨e₂.1, e₂.2, q₁.echoFifo, q₂.echoFifo⟩
      · simp [hn] at hecho
    · obtain ⟨polls', hq', hd, he⟩ | ⟨-, hd⟩ := hdrains
      · have h₁ := eval_quiet_fst honly (p := ⟨[], station, polls'⟩) ⟨rfl, hq'⟩
          (by dsimp only; omega)
        have h₂ := eval_quiet_fst honly (p := ⟨[], station, polls₀⟩) ⟨rfl, hq₀⟩ hample₀
        rw [he]
        exact h₁.trans h₂.symm
      · omega

/-- The request for the station's state, echoed, in front of its answer. -/
theorem readPacket_echo_transparent_ack :
    let echo : List Byte := [0x36, 0x00, 0x01, 0x94, 0xBD, 0x72]
    let station : List Byte := [0x36, 0x00, 0x02, 0x0B, 0x96, 0x30, 0xCC]
    let polls := Poll.ready :: List.replicate 13 (.data 4 0)
    ((readPacket 0 0 9).eval read ⟨echo, echo ++ station, polls⟩).1 =
      ((readPacket 0 0 9).eval read ⟨[], station, polls⟩).1 :=
  (readPacket_echo_transparent 0 0 9 _ _ (by decide) (by decide)).2.1 (by decide) (by decide)

end Ritex
