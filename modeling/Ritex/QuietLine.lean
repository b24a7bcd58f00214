import Ritex.LineBytes

/-! Schedules without timeouts and failures: with an empty FIFO every chunking of the line
gives the same reads, and pending echo only uses up turns of the schedule. -/
namespace Ritex
open Interaction

/-- A turn of the loop in `Read` that brings at least a byte, or would block until the line is
ready. -/
def Poll.Quiet : Poll → Prop
  | .data count _ => 0 < count
  | .ready => True
  | _ => False

instance : DecidablePred Poll.Quiet := fun q => match q with
  | .data count _ => inferInstanceAs (Decidable (0 < count))
  | .ready => .isTrue trivial
  | .timeout => .isFalse id
  | .selectFailed => .isFalse id
  | .errorFd => .isFalse id
  | .failed => .isFalse id

def Poll.isData : Poll → Bool
  | .data _ _ => true
  | _ => false

theorem Poll.Quiet.cases {q : Poll} (h : q.Quiet) :
    (∃ count pending, q = .data count pending ∧ 0 < count) ∨ q = .ready := by
  cases q with
  | data count pending => exact .inl ⟨count, pending, rfl, h⟩
  | ready => exact .inr rfl
  | timeout => exact h.elim
  | selectFailed => exact h.elim
  | errorFd => exact h.elim
  | failed => exact h.elim

def dataPolls (polls : List Poll) : ℕ := polls.countP Poll.isData

@[simp] theorem dataPolls_nil : dataPolls [] = 0 := rfl

@[simp] theorem dataPolls_data (count pending : ℕ) (polls : List Poll) :
    dataPolls (.data count pending :: polls) = dataPolls polls + 1 := by
  simp [dataPolls, List.countP_cons, Poll.isData]

@[simp] theorem dataPolls_ready (polls : List Poll) :
    dataPolls (.ready :: polls) = dataPolls polls := by
  simp [dataPolls, Poll.isData]

/-! ### Reads with an empty FIFO -/

/-- A read that returns on a quiet schedule has not failed, leaves a quiet schedule and has used
at most one turn for each byte it took. -/
theorem readLoop_quiet_some {length : ℕ} {polls : List Poll} (hq : ∀ q ∈ polls, q.Quiet)
    {incoming buffer : List Byte} (hb : buffer.length < length) {r : ReadResult length} {p : Port}
    (h : readLoop length polls [] incoming buffer = (some r, p)) :
    (∃ b, r = .ok b) ∧ (∀ q ∈ p.polls, q.Quiet) ∧
      dataPolls polls + p.incoming.length ≤ dataPolls p.polls + incoming.length := by
  induction polls generalizing incoming buffer with
  | nil => simp [readLoop] at h
  | cons poll polls ih =>
    obtain ⟨hpoll, hq'⟩ := List.forall_mem_cons.mp hq
    obtain ⟨count, pending, rfl, hcount⟩ | rfl := hpoll.cases
    · rw [readLoop_data_empty] at h
      dsimp only at h
      split at h
      · rename_i hlen
        simp only [Prod.mk.injEq, Option.some.injEq] at h
        obtain ⟨rfl, rfl⟩ := h
        refine ⟨⟨_, rfl⟩, hq', ?_⟩
        simp only [List.length_append, List.length_take] at hlen
        simp only [dataPolls_data, List.length_drop, List.length_take]
        omega
      · rename_i hlen
        have hchunk := List.length_take_le (min count (length - buffer.length)) incoming
        have hb' : (buffer ++ incoming.take (min count (length - buffer.length))).length <
            length := by
          simp only [List.length_append] at hlen ⊢
          omega
        obtain ⟨⟨b, rfl⟩, hp, hd⟩ := ih hq' hb' h
        refine ⟨⟨b, rfl⟩, hp, ?_⟩
        -- the line cannot be empty here: the rest of the read got bytes from it
        obtain ⟨bytes, hbytes, hi, -⟩ := readLoop_empty_ok h
        have hgot := congrArg List.length hbytes
        have hleft := congrArg List.length hi
        rw [b.length_eq] at hgot
        simp only [List.length_append, List.length_drop] at hgot hleft hb'
        simp only [dataPolls_data, List.length_drop, List.length_take] at hd hgot hleft hb' ⊢
        omega
    · simp only [readLoop] at h
      rw [dif_neg (by omega)] at h
      simpa using ih hq' hb h

/-- A quiet schedule with a turn for each byte asked for delivers them, if the line has them. -/
theorem readLoop_quiet_returns {length : ℕ} {polls : List Poll} (hq : ∀ q ∈ polls, q.Quiet)
    {incoming buffer : List Byte} (hb : buffer.length < length)
    (hlen : length ≤ buffer.length + incoming.length)
    (hd : length ≤ buffer.length + dataPolls polls) :
    ∃ r p, readLoop length polls [] incoming buffer = (some r, p) := by
  induction polls generalizing incoming buffer with
  | nil => simp only [dataPolls_nil] at hd; omega
  | cons poll polls ih =>
    obtain ⟨hpoll, hq'⟩ := List.forall_mem_cons.mp hq
    obtain ⟨count, pending, rfl, hcount⟩ | rfl := hpoll.cases
    · rw [readLoop_data_empty]
      dsimp only
      split
      · exact ⟨_, _, rfl⟩
      · rename_i hne
        simp only [dataPolls_data] at hd
        simp only [List.length_append, List.length_take] at hne
        refine ih hq' ?_ ?_ ?_ <;>
          simp only [List.length_append, List.length_take, List.length_drop] <;> omega
    · simp only [readLoop]
      rw [dif_neg (by omega)]
      exact ih hq' hb hlen (by simpa using hd)

/-- No echo is pending and the schedule is quiet. -/
structure Port.Quiet (p : Port) : Prop where
  echoFifo : p.echoFifo = []
  polls : ∀ q ∈ p.polls, q.Quiet

theorem read_quiet_some {n : ℕ} (hn : 0 < n) {p p' : Port} (hp : p.Quiet) {r : ReadResult n}
    (h : read n p = (some r, p')) :
    takeBytes n p.incoming = (some r, p'.incoming) ∧ p'.Quiet ∧
      dataPolls p.polls + p'.incoming.length ≤ dataPolls p'.polls + p.incoming.length := by
  have h' := h
  rw [read, hp.echoFifo] at h'
  obtain ⟨⟨b, rfl⟩, hq, hd⟩ := readLoop_quiet_some hp.polls (by simpa using hn) h'
  obtain ⟨hi, hf⟩ := read_empty_ok hp.echoFifo h
  exact ⟨by rw [hi, takeBytes_append], ⟨hf, hq⟩, hd⟩

theorem read_quiet_returns {n : ℕ} (hn : 0 < n) {p : Port} (hp : p.Quiet) {r : ReadResult n}
    {s : List Byte} (ht : takeBytes n p.incoming = (some r, s)) (hd : n ≤ dataPolls p.polls) :
    ∃ p', read n p = (some r, p') ∧ p'.incoming = s := by
  obtain ⟨b, rfl, hi⟩ := takeBytes_eq_some ht
  have hlen : n ≤ p.incoming.length := by
    rw [hi, List.length_append, b.length_eq]
    omega
  have hempty : ([] : List Byte).length < n := hn
  obtain ⟨r, p', h⟩ : ∃ r p', readLoop n p.polls [] p.incoming [] = (some r, p') :=
    readLoop_quiet_returns hp.polls hempty (by simpa using hlen) (by simpa using hd)
  have hr : read n p = (some r, p') := by rw [read, hp.echoFifo, h]
  obtain ⟨ht', -⟩ := read_quiet_some hn hp hr
  rw [ht] at ht'
  simp only [Prod.mk.injEq, Option.some.injEq] at ht'
  exact ⟨p', by rw [hr, ht'.1], ht'.2.symm⟩

/-! ### Programs on a quiet line -/

variable {α : Type}

theorem eval_takeBytes_length {prog : Reader α} {s s' : List Byte} {a : α}
    (h : prog.eval takeBytes s = (some a, s')) : s'.length ≤ s.length := by
  induction prog generalizing s with
  | ret b => simp only [Prog.eval, Prod.mk.injEq] at h; rw [h.2]
  | cut => simp [Prog.eval] at h
  | op n k ih =>
    rcases ht : takeBytes n s with ⟨_ | r, s₁⟩
    · simp [Prog.eval_op_none ht] at h
    · rw [Prog.eval_op_some ht] at h
      obtain ⟨b, -, rfl⟩ := takeBytes_eq_some ht
      have := ih r h
      rw [List.length_append]
      omega

/-- What a program of reads returns on a quiet line is what it returns on the plain bytes. -/
theorem eval_quiet_some {prog : Reader α} (ho : prog.Only (0 < ·)) {p p' : Port} (hp : p.Quiet)
    {a : α} (h : prog.eval read p = (some a, p')) :
    prog.eval takeBytes p.incoming = (some a, p'.incoming) ∧ p'.Quiet := by
  induction prog generalizing p with
  | ret b =>
    simp only [Prog.eval, Prod.mk.injEq, Option.some.injEq] at h
    obtain ⟨rfl, rfl⟩ := h
    exact ⟨rfl, hp⟩
  | cut => simp [Prog.eval] at h
  | op n k ih =>
    rcases hr : read n p with ⟨_ | r, p₁⟩
    · simp [Prog.eval_op_none hr] at h
    · rw [Prog.eval_op_some hr] at h
      obtain ⟨ht, hq, -⟩ := read_quiet_some ho.1 hp hr
      rw [Prog.eval_op_some ht]
      exact ih r (ho.2 r) hq h

theorem eval_quiet_returns {prog : Reader α} (ho : prog.Only (0 < ·)) {p : Port} (hp : p.Quiet)
    {a : α} {s : List Byte} (h : prog.eval takeBytes p.incoming = (some a, s))
    (hd : p.incoming.length ≤ dataPolls p.polls + s.length) :
    ∃ p', prog.eval read p = (some a, p') ∧ p'.incoming = s := by
  induction prog generalizing p with
  | ret b =>
    simp only [Prog.eval, Prod.mk.injEq, Option.some.injEq] at h
    obtain ⟨rfl, rfl⟩ := h
    exact ⟨p, rfl, rfl⟩
  | cut => simp [Prog.eval] at h
  | op n k ih =>
    rcases ht : takeBytes n p.incoming with ⟨_ | r, s₁⟩
    · simp [Prog.eval_op_none ht] at h
    · rw [Prog.eval_op_some ht] at h
      have hs := eval_takeBytes_length h
      have hn : n ≤ dataPolls p.polls := by
        obtain ⟨b, -, hi⟩ := takeBytes_eq_some ht
        rw [hi, List.length_append, b.length_eq] at hd
        omega
      obtain ⟨p₁, hr, rfl⟩ := read_quiet_returns ho.1 hp ht hn
      obtain ⟨-, hq, hd₁⟩ := read_quiet_some ho.1 hp hr
      rw [Prog.eval_op_some hr]
      exact ih r (ho.2 r) hq h (by omega)

theorem eval_quiet_fst {prog : Reader α} (ho : prog.Only (0 < ·)) {p : Port} (hp : p.Quiet)
    (hd : p.incoming.length ≤ dataPolls p.polls) :
    (prog.eval read p).1 = (prog.eval takeBytes p.incoming).1 := by
  rcases ht : prog.eval takeBytes p.incoming with ⟨_ | a, s⟩
  · rcases hr : prog.eval read p with ⟨_ | a, p'⟩
    · rfl
    · rw [(eval_quiet_some ho hp hr).1] at ht
      simp at ht
  · obtain ⟨p', hr, -⟩ := eval_quiet_returns ho hp ht (by omega)
    rw [hr]

theorem calls_empty_fifo (prog : Reader α) {p : Port} (hp : p.echoFifo = []) :
    ∀ call ∈ prog.calls read p, call.2.echoFifo = [] := by
  induction prog generalizing p with
  | ret b => simp [Prog.calls]
  | cut => simp [Prog.calls]
  | op n k ih =>
    intro call hc
    simp only [Prog.calls, List.mem_cons] at hc
    rcases hc with rfl | hc
    · exact hp
    · have hfifo := read_empty_fifo n hp
      rcases hr : read n p with ⟨_ | r, p'⟩
      · simp [hr] at hc
      · rw [hr] at hc hfifo
        exact ih r hfifo call hc

/-! ### Pending echo -/

/-- While the line starts with the pending echo, a single-byte read throws it away turn by turn:
either the schedule ends before, or the read goes on as if there had been no echo. -/
theorem readLoop_drains {polls : List Poll} (hq : ∀ q ∈ polls, q.Quiet) (echo s : List Byte) :
    (∃ polls', (∀ q ∈ polls', q.Quiet) ∧ dataPolls polls ≤ echo.length + dataPolls polls' ∧
      readLoop 1 polls echo (echo ++ s) [] = readLoop 1 polls' [] s []) ∨
    ((readLoop 1 polls echo (echo ++ s) []).1 = none ∧ dataPolls polls < echo.length) := by
  induction polls generalizing echo with
  | nil =>
    rcases echo with _ | ⟨b, echo⟩
    · exact .inl ⟨[], by simp, by simp, rfl⟩
    · exact .inr ⟨rfl, by simp⟩
  | cons poll polls ih =>
    obtain ⟨hpoll, hq'⟩ := List.forall_mem_cons.mp hq
    rcases echo with _ | ⟨b, echo⟩
    · exact .inl ⟨poll :: polls, hq, by simp, rfl⟩
    · obtain ⟨count, pending, rfl, hcount⟩ | rfl := hpoll.cases
      · have hmin : min count 1 = 1 := Nat.min_eq_right hcount
        have hstep : readLoop 1 (.data count pending :: polls) (b :: echo) (b :: echo ++ s) [] =
            readLoop 1 polls echo (echo ++ s) [] := by
          rw [readLoop_one_echo]
          simp [hmin]
        rw [hstep]
        rcases ih hq' echo with ⟨polls', hq'', hd, he⟩ | ⟨hn, hd⟩
        · exact .inl ⟨polls', hq'', by simp; omega, he⟩
        · exact .inr ⟨hn, by simp; omega⟩
      · have hstep : readLoop 1 (.ready :: polls) (b :: echo) (b :: echo ++ s) [] =
            readLoop 1 polls (b :: echo) (b :: echo ++ s) [] := by
          simp [readLoop]
        rw [hstep]
        rcases ih hq' (b :: echo) with ⟨polls', hq'', hd, he⟩ | ⟨hn, hd⟩
        · exact .inl ⟨polls', hq'', by simpa using hd, he⟩
        · exact .inr ⟨hn, by simpa using hd⟩

end Ritex
