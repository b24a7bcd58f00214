import Ritex.IStream

/-! Programs on streams that end too early. -/
namespace Ritex.Streams

variable {ε α β : Type}

/-- The program is not cut, whatever the stream. -/
def Ends (p : StreamM ε α) : Prop := ∀ s, p s ≠ none

def IStream.extend (s : IStream) (rest : List Byte) : IStream :=
  { s with unread := s.unread ++ rest }

/-- A run that leaves the stream good has found it good, and is the same on a longer stream. -/
def Framed (p : StreamM ε α) : Prop :=
  ∀ s a s', p s = some (.ok (a, s')) → s'.failed = false →
    s.failed = false ∧ ∀ rest, p (s.extend rest) = some (.ok (a, s'.extend rest))

/-- Nothing is put back into the stream. -/
def Shrinks (p : StreamM ε α) : Prop :=
  ∀ s a s', p s = some (.ok (a, s')) → s'.unread.length ≤ s.unread.length

structure Tame (p : StreamM ε α) : Prop where
  ends : Ends p
  framed : Framed p
  shrinks : Shrinks p

/-! ### Sequences -/

theorem run_bind_error {p : StreamM ε α} {f : α → StreamM ε β} {s : IStream} {e : ε}
    (h : p s = some (.error e)) : (p >>= f) s = some (.error e) := by
  simp only [bind, StateT.bind, ExceptT.bind, ExceptT.mk]
  rw [h]
  rfl

theorem run_bind_none {p : StreamM ε α} {f : α → StreamM ε β} {s : IStream}
    (h : p s = none) : (p >>= f) s = none := by
  simp only [bind, StateT.bind, ExceptT.bind, ExceptT.mk]
  rw [h]
  rfl

theorem run_bind_eq_ok {p : StreamM ε α} {f : α → StreamM ε β} {s s'' : IStream} {b : β}
    (h : (p >>= f) s = some (.ok (b, s''))) :
    ∃ a s', p s = some (.ok (a, s')) ∧ f a s' = some (.ok (b, s'')) := by
  cases hp : p s with
  | none =>
    rw [run_bind_none hp] at h
    cases h
  | some r =>
    cases r with
    | error e =>
      rw [run_bind_error hp] at h
      cases h
    | ok r =>
      rw [run_bind_ok (a := r.1) hp] at h
      exact ⟨r.1, r.2, rfl, h⟩

theorem run_bind_ne_none {p : StreamM ε α} {f : α → StreamM ε β} {s : IStream} (hp : p s ≠ none)
    (hf : ∀ a s', p s = some (.ok (a, s')) → f a s' ≠ none) : (p >>= f) s ≠ none := by
  cases h : p s with
  | none => exact absurd h hp
  | some r =>
    cases r with
    | error e =>
      rw [run_bind_error h]
      simp
    | ok r =>
      rw [run_bind_ok (a := r.1) h]
      exact hf r.1 r.2 h

theorem Framed.bind {p : StreamM ε α} {f : α → StreamM ε β} (hp : Framed p)
    (hf : ∀ a, Framed (f a)) : Framed (p >>= f) := by
  intro s b s'' h hgood
  obtain ⟨a, s', hps, hfs⟩ := run_bind_eq_ok h
  obtain ⟨hgood', hf'⟩ := hf a s' b s'' hfs hgood
  obtain ⟨hgood'', hp'⟩ := hp s a s' hps hgood'
  refine ⟨hgood'', fun rest => ?_⟩
  rw [run_bind_ok (hp' rest), hf' rest]

theorem Tame.bind {p : StreamM ε α} {f : α → StreamM ε β} (hp : Tame p) (hf : ∀ a, Tame (f a)) :
    Tame (p >>= f) where
  ends s := run_bind_ne_none (hp.ends s) fun a s' _ => (hf a).ends s'
  framed := hp.framed.bind fun a => (hf a).framed
  shrinks s b s'' h := by
    obtain ⟨a, s', hps, hfs⟩ := run_bind_eq_ok h
    exact ((hf a).shrinks s' b s'' hfs).trans (hp.shrinks s a s' hps)

/-! ### Single steps -/

theorem Tame.pure (a : α) : Tame (pure a : StreamM ε α) where
  ends s h := by cases h
  framed s b s' h hgood := by
    cases h
    exact ⟨hgood, fun rest => rfl⟩
  shrinks s b s' h := by
    cases h
    exact le_rfl

theorem Tame.throw (e : ε) : Tame (throw e : StreamM ε α) where
  ends s h := by cases h
  framed s a s' h := by cases h
  shrinks s a s' h := by cases h

theorem Framed.ite {c : Prop} [Decidable c] {p q : StreamM ε α} (hp : Framed p) (hq : Framed q) :
    Framed (if c then p else q) := by
  split
  · exact hp
  · exact hq

theorem Tame.ite {c : Prop} [Decidable c] {p q : StreamM ε α} (hp : Tame p) (hq : Tame q) :
    Tame (if c then p else q) := by
  split
  · exact hp
  · exact hq

theorem Tame.uninitialised (n : ℕ) : Tame (StreamM.uninitialised n : StreamM ε (List Byte)) where
  ends s h := by cases h
  framed s memory s' h hgood := by
    cases h
    exact ⟨hgood, fun rest => rfl⟩
  shrinks s memory s' h := by
    cases h
    exact le_rfl

theorem Tame.tellg : Tame (StreamM.tellg : StreamM ε ℤ) where
  ends s h := by cases h
  framed s pos s' h hgood := by
    cases h
    refine ⟨hgood, fun rest => ?_⟩
    rfl
  shrinks s pos s' h := by
    cases h
    exact le_rfl

theorem Framed.cut : Framed (StreamM.cut : StreamM ε α) := by
  intro s a s' h
  cases h

/-! ### Reads -/

def IStream.available (s : IStream) : List Byte := if s.failed then [] else s.unread

def IStream.advance (s : IStream) (n : ℕ) : IStream :=
  if s.failed then s
  else { s with unread := s.unread.drop n, pos := s.pos + min n s.unread.length,
                failed := decide (s.unread.length < n) }

theorem read_eq (n : ℕ) (s : IStream) : (StreamM.read n : StreamM ε (List Byte)) s =
    some (.ok (s.available.take n, s.advance n)) := by
  obtain ⟨unread, pos, failed, garbage⟩ := s
  cases failed with
  | true =>
    simp [StreamM.read, IStream.available, IStream.advance]
    rfl
  | false =>
    by_cases hn : n ≤ unread.length
    · have hgood : ¬ unread.length < n := by omega
      simp [StreamM.read, IStream.available, IStream.advance, hn, hgood]
      rfl
    · have hlt : unread.length < n := by omega
      simp [StreamM.read, IStream.available, IStream.advance, hn, hlt, hlt.le,
        List.take_of_length_le, List.drop_of_length_le]
      rfl

theorem readInto_eq (memory : List Byte) (s : IStream) :
    (StreamM.readInto memory : StreamM ε (List Byte)) s =
      some (.ok (s.available.take memory.length ++ memory.drop s.available.length,
        s.advance memory.length)) := by
  have hdrop : memory.drop (s.available.take memory.length).length =
      memory.drop s.available.length := by
    rw [List.length_take]
    rcases Nat.le_total memory.length s.available.length with h | h
    · rw [Nat.min_eq_left h, List.drop_length, List.drop_of_length_le h]
    · rw [Nat.min_eq_right h]
  unfold StreamM.readInto
  rw [run_bind_ok (read_eq _ s), hdrop]
  rfl

theorem available_good {s : IStream} (h : s.failed = false) : s.available = s.unread := by
  unfold IStream.available
  rw [if_neg (by simp [h])]

theorem available_failed {s : IStream} (h : s.failed = true) : s.available = [] := if_pos h

theorem advance_failed {s : IStream} (h : s.failed = true) (n : ℕ) : s.advance n = s := if_pos h

theorem failed_advance_iff {s : IStream} {n : ℕ} (hn : 0 < n) :
    (s.advance n).failed = true ↔ s.available.length < n := by
  unfold IStream.advance IStream.available
  by_cases hs : s.failed = true
  · simp [hs, hn]
  · simp [hs]

theorem available_advance {s : IStream} {n : ℕ} (hn : 0 < n) :
    (s.advance n).available = s.available.drop n := by
  by_cases hfailed : (s.advance n).failed = true
  · rw [available_failed hfailed, List.drop_of_length_le]
    exact ((failed_advance_iff hn).mp hfailed).le
  · have hgood : s.failed = false := by
      by_contra hs
      rw [advance_failed (by simpa using hs)] at hfailed
      exact hs (by simpa using hfailed)
    rw [available_good (by simpa using hfailed), available_good hgood]
    unfold IStream.advance
    rw [if_neg (by simp [hgood])]

theorem pos_advance {s : IStream} {n : ℕ} (h : n ≤ s.available.length) :
    (s.advance n).pos = s.pos + n := by
  unfold IStream.advance IStream.available at *
  by_cases hs : s.failed = true
  · simp [hs] at h ⊢
    exact h
  · rw [if_neg hs] at h ⊢
    exact congrArg (s.pos + ·) (Nat.min_eq_left h)

@[simp] theorem garbage_advance (s : IStream) (n : ℕ) : (s.advance n).garbage = s.garbage := by
  unfold IStream.advance
  split <;> rfl

theorem Tame.read (n : ℕ) : Tame (StreamM.read n : StreamM ε (List Byte)) where
  ends s := by
    rw [read_eq]
    simp
  framed s bytes s' h hgood := by
    rw [read_eq] at h
    cases h
    cases hs : s.failed with
    | true =>
      rw [advance_failed hs, hs] at hgood
      cases hgood
    | false =>
      have hfailed : ¬ s.unread.length < n := by
        unfold IStream.advance at hgood
        simpa [hs] using hgood
      have hn : n ≤ s.unread.length := by omega
      refine ⟨rfl, fun rest => ?_⟩
      rw [read_eq, available_good hs, available_good (s := s.extend rest) hs]
      have hextended : ¬ s.unread.length + rest.length < n := by omega
      simp [IStream.extend, IStream.advance, hs, List.take_append_of_le_length hn,
        List.drop_append_of_le_length hn, hn, Nat.le_add_right_of_le hn, hfailed, hextended]
  shrinks s bytes s' h := by
    rw [read_eq] at h
    cases h
    unfold IStream.advance
    split
    · exact le_rfl
    · simp

theorem Tame.readInto (memory : List Byte) :
    Tame (StreamM.readInto memory : StreamM ε (List Byte)) :=
  (Tame.read _).bind fun _ => .pure _

/-! ### Loops -/

theorem Framed.loop {body : α → StreamM ε (α ⊕ β)} (h : ∀ a, Framed (body a)) (n : ℕ) (a : α) :
    Framed (StreamM.loop body n a) := by
  induction n generalizing a with
  | zero => exact .cut
  | succ n ih =>
    rw [StreamM.loop]
    refine (h a).bind fun r => ?_
    cases r with
    | inl a' => exact ih a'
    | inr b => exact (Tame.pure b).framed

/-- A loop whose rounds each take something from the stream. -/
theorem loop_ne_none {body : α → StreamM ε (α ⊕ β)} (h : ∀ a, Ends (body a))
    (hshort : ∀ a s a' s', body a s = some (.ok (.inl a', s')) →
      s'.unread.length < s.unread.length)
    (n : ℕ) (a : α) (s : IStream) (hn : s.unread.length < n) :
    StreamM.loop body n a s ≠ none := by
  induction n generalizing a s with
  | zero => omega
  | succ n ih =>
    rw [StreamM.loop]
    refine run_bind_ne_none (h a s) fun r s' hr => ?_
    cases r with
    | inl a' =>
      have hlt := hshort a s a' s' hr
      exact ih a' s' (by omega)
    | inr b => exact (Tame.pure b).ends s'

end Ritex.Streams
