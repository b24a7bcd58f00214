import Mathlib.Data.Nat.Digits.Defs

/-! Bytes that come over a stream in segments, and what a read takes of them: what has come, or all that
it asks for. -/
namespace Ritex.StreamSocket

variable {α : Type*}

structure Segmented (bytes : List α) (segments : List (List α)) : Prop where
  flatten : segments.flatten = bytes
  nonempty : ∀ segment ∈ segments, segment ≠ []

def recv (n : ℕ) : List (List α) → List α × List (List α)
  | [] => ([], [])
  | segment :: segments =>
    (segment.take n, if n < segment.length then segment.drop n :: segments else segments)

/-- With `MSG_WAITALL`. -/
def recvAll (n : ℕ) : List (List α) → List α × List (List α)
  | [] => ([], [])
  | segment :: segments =>
    if segment.length < n then
      let (bytes, rest) := recvAll (n - segment.length) segments
      (segment ++ bytes, rest)
    else recv n (segment :: segments)

theorem Segmented.recv {bytes : List α} {segments : List (List α)} (h : Segmented bytes segments)
    (n : ℕ) : ∃ k ≤ n, (0 < n → bytes ≠ [] → 0 < k) ∧ k ≤ bytes.length ∧
      (StreamSocket.recv n segments).1 = bytes.take k ∧
      Segmented (bytes.drop k) (StreamSocket.recv n segments).2 := by
  obtain ⟨rfl, hnonempty⟩ := h
  cases segments with
  | nil => exact ⟨0, by omega, by simp, by simp, rfl, rfl, by simp [StreamSocket.recv]⟩
  | cons segment segments =>
    have hsegment : 0 < segment.length := List.length_pos_iff.mpr (hnonempty _ List.mem_cons_self)
    have hrest : ∀ s ∈ segments, s ≠ [] := fun s hs => hnonempty s (List.mem_cons_of_mem _ hs)
    refine ⟨min n segment.length, by omega, fun hn _ => by omega, ?_, ?_, ?_⟩
    · rw [List.flatten_cons, List.length_append]
      omega
    · rw [StreamSocket.recv, List.flatten_cons, List.take_append_of_le_length (by omega),
        List.take_eq_take_min]
    · rw [StreamSocket.recv, List.flatten_cons, List.drop_append_of_le_length (by omega)]
      by_cases hn : n < segment.length
      · rw [if_pos hn, Nat.min_eq_left (by omega)]
        refine ⟨rfl, fun s hs => ?_⟩
        rcases List.mem_cons.mp hs with rfl | hs
        · exact List.length_pos_iff.mp (by rw [List.length_drop]; omega)
        · exact hrest s hs
      · rw [if_neg hn, Nat.min_eq_right (by omega), List.drop_length, List.nil_append]
        exact ⟨rfl, hrest⟩

theorem Segmented.recvAll {bytes : List α} {segments : List (List α)} (h : Segmented bytes segments)
    (n : ℕ) : (StreamSocket.recvAll n segments).1 = bytes.take n ∧
      Segmented (bytes.drop n) (StreamSocket.recvAll n segments).2 := by
  induction segments generalizing bytes n with
  | nil =>
    obtain ⟨rfl, hnonempty⟩ := h
    simpa [StreamSocket.recvAll] using Segmented.mk rfl hnonempty
  | cons segment segments ih =>
    have hrest : Segmented segments.flatten segments :=
      ⟨rfl, fun s hs => h.nonempty s (List.mem_cons_of_mem _ hs)⟩
    rw [StreamSocket.recvAll]
    split
    next hshort =>
      obtain ⟨hbytes, hsegmented⟩ := ih hrest (n - segment.length)
      rw [← h.flatten, List.flatten_cons, List.take_append, List.drop_append,
        List.take_of_length_le (by omega), List.drop_eq_nil_of_le (by omega), List.nil_append]
      exact ⟨congrArg (segment ++ ·) hbytes, hsegmented⟩
    next hlong =>
      have hlength : ((StreamSocket.recv n (segment :: segments)).1).length = n := by
        rw [StreamSocket.recv, List.length_take]
        omega
      obtain ⟨k, hk, -, hkbytes, htake, hdrop⟩ := h.recv n
      rw [htake, List.length_take, Nat.min_eq_left hkbytes] at hlength
      rw [hlength] at htake hdrop
      exact ⟨htake, hdrop⟩

end Ritex.StreamSocket
