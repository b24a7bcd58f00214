import Ritex.QuietLine

/-! `Read` while echo is pending, with chunks of any size: the echo is compared with the bytes of a
chunk from its end. -/
namespace Ritex

/-- The read returns `n`, its buffer holds the first bytes of the station, no echo is left, and the
bytes behind them are still on the line. -/
def ReadsStation (n : ℕ) (station : List Byte) (result : Option (ReadResult n) × Port) : Prop :=
  ∃ b, result.1 = some (.ok b) ∧ b.bytes = station.take n ∧ result.2.echoFifo = [] ∧
    result.2.incoming = station.drop n

/-- Every chunk that is read while echo is pending is the same when its station bytes come first and
its echo last and turned round. -/
def Symmetric (n : ℕ) : List Poll → List Byte → List Byte → Prop
  | .data count _ :: polls, echo, station =>
    echo = [] ∨
      (echo.take (min count n) ++ station.take (min count n - echo.length) =
        station.take (min count n - echo.length) ++ (echo.take (min count n)).reverse ∧
      Symmetric n polls (echo.drop (min count n)) station)
  | _ :: polls, echo, station => Symmetric n polls echo station
  | [], _, _ => True

/-! ### The echo loop -/

/-- The echo loop on a buffer given from its end. -/
theorem cancelEcho_reverse {k : ℕ} {fifo r : List Byte} (h : k ≤ r.length) :
    cancelEcho k fifo r.reverse =
      if fifo.take k = r.take (min k fifo.length) then
        some (fifo.drop k, (r.drop (min k fifo.length)).reverse)
      else none := by
  induction k generalizing fifo r with
  | zero => simp [cancelEcho]
  | succ k ih =>
    cases fifo with
    | nil => simp
    | cons echo fifo =>
      cases r with
      | nil => simp at h
      | cons x r =>
        have hr : k ≤ r.length := by simpa using h
        have hmin : min (k + 1) (echo :: fifo).length = min k fifo.length + 1 := by
          rw [List.length_cons]
          omega
        rw [cancelEcho, hmin]
        by_cases hx : x = echo
        · simp [hx, ih hr]
        · simp [hx, Ne.symm hx]

/-- The echo loop on a chunk of echo and station bytes: it wants the echo turned round at the end and
leaves what stands before it. -/
theorem cancelEcho_chunk {k : ℕ} {echo f s : List Byte} (hf : f = echo.take k)
    (hlength : (f ++ s).length = k) : cancelEcho k echo (f ++ s) =
      if (f ++ s).drop s.length = f.reverse then some (echo.drop k, (f ++ s).take s.length)
      else none := by
  have hreverse : k ≤ (f ++ s).reverse.length := by rw [List.length_reverse, hlength]
  have h : cancelEcho k echo (f ++ s).reverse.reverse = _ := cancelEcho_reverse hreverse
  have hmin : min k echo.length = f.length := by rw [hf, List.length_take]
  have hstation : (f ++ s).length - f.length = s.length := by
    rw [List.length_append, Nat.add_sub_cancel_left]
  rw [List.reverse_reverse, hmin, ← hf, List.take_reverse, List.drop_reverse, hstation,
    List.reverse_reverse] at h
  rw [h]
  refine if_congr ?_ rfl rfl
  rw [← List.reverse_eq_iff, eq_comm]

/-- Both at once make the chunk the same as its station bytes with the echo turned round behind. -/
theorem append_symmetric_iff (f s : List Byte) : f ++ s = s ++ f.reverse ↔
    (f ++ s).drop s.length = f.reverse ∧ (f ++ s).take s.length = s := by
  constructor
  · intro h
    rw [h, List.drop_left, List.take_left]
    exact ⟨rfl, rfl⟩
  · rintro ⟨hdrop, htake⟩
    rw [← List.take_append_drop s.length (f ++ s), hdrop, htake]

/-! ### A turn of the loop -/

section Turn

variable {n : ℕ} {polls : List Poll} {station : List Byte}

/-- With the echo gone the rest of the read is the bytes that come next. -/
theorem readLoop_rest (hq : ∀ q ∈ polls, q.Quiet) {buffer : List Byte} (hb : buffer.length < n)
    (hlen : n ≤ buffer.length + station.length) (hd : n ≤ buffer.length + dataPolls polls) :
    ∃ b p, readLoop n polls [] station buffer = (some (.ok b), p) ∧
      b.bytes = buffer ++ station.take (n - buffer.length) ∧ p.echoFifo = [] ∧
      p.incoming = station.drop (n - buffer.length) := by
  obtain ⟨r, p, h⟩ := readLoop_quiet_returns hq hb hlen hd
  obtain ⟨⟨b, rfl⟩, -, -⟩ := readLoop_quiet_some hq hb h
  obtain ⟨bytes, hbytes, rfl, hfifo⟩ := readLoop_empty_ok h
  have hlength : bytes.length = n - buffer.length := by
    have := b.length_eq
    rw [hbytes, List.length_append] at this
    omega
  refine ⟨b, p, h, ?_, hfifo, ?_⟩
  · rw [hbytes, ← hlength, List.take_left]
  · rw [← hlength, List.drop_left]

/-- A turn that brings a chunk while echo is pending. -/
theorem readLoop_chunk {count pending k : ℕ} {echo f s : List Byte} (hn : 0 < n) (hk : k = min count n)
    (hecho : echo ≠ []) (hf : f = echo.take k) (hs : s = station.take (k - echo.length))
    (hlength : (f ++ s).length = k) :
    readLoop n (.data count pending :: polls) echo (echo ++ station) [] =
      if (f ++ s).drop s.length = f.reverse then
        readLoop n polls (echo.drop k) (echo.drop k ++ station.drop (k - echo.length))
          ((f ++ s).take s.length)
      else (some (.error .other), ⟨[], ((echo ++ station).drop k).drop pending, polls⟩) := by
  have hchunk : (echo ++ station).take (min count (n - ([] : List Byte).length)) = f ++ s := by
    rw [List.length_nil, Nat.sub_zero, ← hk, List.take_append, hf, hs]
  rw [readLoop]
  simp only [hchunk, hlength, List.nil_append, cancelEcho_chunk hf hlength]
  split_ifs with hmatch
  · have hleft : ((f ++ s).take s.length).length ≠ n := by
      have hpos := List.length_pos_iff.mpr hecho
      have hflength := congrArg List.length hf
      rw [List.length_take] at hflength ⊢
      rw [List.length_append] at hlength ⊢
      omega
    simp only [dif_neg hleft, List.drop_append]
  · rfl

theorem symmetric_empty (n : ℕ) (polls : List Poll) (station : List Byte) :
    Symmetric n polls [] station := by
  induction polls with
  | nil => trivial
  | cons poll polls ih =>
    cases poll with
    | data count pending => exact Or.inl rfl
    | _ => exact ih

/-- The turn behind which no echo is left: what it leaves in the buffer has to be the first bytes of
the station. -/
theorem readsStation_last (hq : ∀ q ∈ polls, q.Quiet) {buffer : List Byte} {m : ℕ} (hm : m < n)
    (hbuffer : buffer.length = m) (hstation : n ≤ station.length) (hd : n ≤ m + dataPolls polls) :
    ReadsStation n station (readLoop n polls [] (station.drop m) buffer) ↔ buffer = station.take m := by
  have hroom : buffer.length < n := by omega
  have hrest : n ≤ buffer.length + (station.drop m).length := by
    rw [List.length_drop]
    omega
  obtain ⟨b, p, hread, hbytes, hfifo, hincoming⟩ := readLoop_rest hq hroom hrest (by omega)
  have htake : station.take n = station.take m ++ (station.drop m).take (n - m) := by
    rw [← List.take_add]
    congr 1
    omega
  rw [hread]
  constructor
  · rintro ⟨b', hb, hall, -, -⟩
    cases hb
    rw [hbytes, htake, hbuffer] at hall
    exact (List.append_inj hall (by rw [List.length_take]; omega)).1
  · intro hfirst
    refine ⟨b, rfl, ?_, hfifo, ?_⟩
    · rw [hbytes, htake, hbuffer, ← hfirst]
    · rw [hincoming, hbuffer, List.drop_drop]
      congr 1
      omega

/-- A chunk that passes the echo loop; `hrest` is about the rest of the read. -/
theorem readsStation_passed (hq : ∀ q ∈ polls, q.Quiet) {echo f s : List Byte} {k : ℕ} (hkn : k ≤ n)
    (hpos : 0 < echo.length) (hstation : n ≤ station.length) (hd : n ≤ dataPolls polls)
    (hs : s = station.take (k - echo.length)) (hlength : (f ++ s).length = k)
    (hrest : ReadsStation n station (readLoop n polls (echo.drop k) (echo.drop k ++ station) []) ↔
      Symmetric n polls (echo.drop k) station) :
    ReadsStation n station (readLoop n polls (echo.drop k)
      (echo.drop k ++ station.drop (k - echo.length)) ((f ++ s).take s.length)) ↔
    (f ++ s).take s.length = s ∧ Symmetric n polls (echo.drop k) station := by
  have hslength : s.length = k - echo.length := by
    rw [hs, List.length_take]
    omega
  rcases Nat.lt_or_ge echo.length k with hlt | hge
  · -- The chunk ends behind the echo: what is left in the buffer decides.
    have hgone : echo.drop k = [] := List.drop_eq_nil_of_le hlt.le
    have hbuffer : ((f ++ s).take s.length).length = k - echo.length := by
      rw [List.length_take, hlength, hslength]
      omega
    have hlast := readsStation_last hq (by omega) hbuffer hstation (by omega)
    rw [hgone, List.nil_append, hlast, ← hs]
    exact (and_iff_left (symmetric_empty n polls station)).symm
  · -- The chunk is echo only.
    have hnone : s = [] := List.length_eq_zero_iff.mp (by omega)
    have hzero : k - echo.length = 0 := by omega
    rw [hnone, hzero, List.length_nil, List.take_zero, List.drop_zero, and_iff_right rfl]
    exact hrest

theorem readsStation_chunk (hn : 0 < n) (hq : ∀ q ∈ polls, q.Quiet) {count pending : ℕ}
    {echo : List Byte} (hecho : echo ≠ []) (hstation : n ≤ station.length) (hd : n ≤ dataPolls polls)
    (hrest : ReadsStation n station (readLoop n polls (echo.drop (min count n))
        (echo.drop (min count n) ++ station) []) ↔
      Symmetric n polls (echo.drop (min count n)) station) :
    ReadsStation n station (readLoop n (.data count pending :: polls) echo (echo ++ station) []) ↔
      Symmetric n (.data count pending :: polls) echo station := by
  obtain ⟨k, hk⟩ : ∃ k, k = min count n := ⟨_, rfl⟩
  obtain ⟨f, hf⟩ : ∃ f, f = echo.take k := ⟨_, rfl⟩
  obtain ⟨s, hs⟩ : ∃ s, s = station.take (k - echo.length) := ⟨_, rfl⟩
  have hpos := List.length_pos_iff.mpr hecho
  have hlength : (f ++ s).length = k := by
    rw [List.length_append, hf, hs, List.length_take, List.length_take]
    omega
  rw [← hk] at hrest
  rw [readLoop_chunk hn hk hecho hf hs hlength, Symmetric, or_iff_right hecho, ← hk, ← hf, ← hs,
    append_symmetric_iff, and_assoc]
  by_cases hdrop : (f ++ s).drop s.length = f.reverse
  · rw [if_pos hdrop, and_iff_right hdrop]
    exact readsStation_passed hq (by omega) hpos hstation hd hs hlength hrest
  · rw [if_neg hdrop]
    refine iff_of_false ?_ fun h => hdrop h.1
    rintro ⟨b, hb, -⟩
    cases hb

theorem readsStation_iff (hn : 0 < n) (hq : ∀ q ∈ polls, q.Quiet) {echo : List Byte}
    (hstation : n ≤ station.length) (hd : echo.length + n ≤ dataPolls polls) :
    ReadsStation n station (readLoop n polls echo (echo ++ station) []) ↔
      Symmetric n polls echo station := by
  induction polls generalizing echo with
  | nil =>
    rw [dataPolls_nil] at hd
    omega
  | cons poll polls ih =>
    obtain ⟨hpoll, hq'⟩ := List.forall_mem_cons.mp hq
    obtain ⟨count, pending, rfl, hcount⟩ | rfl := hpoll.cases
    · rw [dataPolls_data] at hd
      by_cases hecho : echo = []
      · subst hecho
        have hnil : ([] : List Byte).length = 0 := rfl
        have hlast := readsStation_last hq hn hnil hstation (by simpa using hd)
        rw [List.drop_zero] at hlast
        exact iff_of_true (hlast.mpr rfl) (Or.inl rfl)
      · have hpos := List.length_pos_iff.mpr hecho
        refine readsStation_chunk hn hq' hecho hstation (by omega) (ih hq' ?_)
        rw [List.length_drop]
        omega
    · have hwait : readLoop n (.ready :: polls) echo (echo ++ station) [] =
          readLoop n polls echo (echo ++ station) [] := by
        rw [readLoop, dif_neg]
        exact hn.ne
      rw [hwait]
      exact ih hq' (by simpa using hd)

end Turn

/-- On a line that carries the echo and then the station, `Read` returns the first bytes of the station
if and only if every chunk that meets pending echo is the same with its echo turned round behind its
station bytes. -/
theorem read_station_iff {n : ℕ} (hn : 1 ≤ n) {echo station : List Byte} (hstation : n ≤ station.length)
    {polls : List Poll} (hq : ∀ q ∈ polls, q.Quiet) (hd : echo.length + n ≤ dataPolls polls) :
    ReadsStation n station (read n ⟨echo, echo ++ station, polls⟩) ↔ Symmetric n polls echo station :=
  readsStation_iff hn hq hstation hd

/-! ### Single bytes and pairs -/

/-- A single byte is the same turned round. -/
theorem symmetric_single {n : ℕ} {polls : List Poll} (h : ∀ q ∈ polls, ∃ pending, q = .data 1 pending)
    (echo station : List Byte) : Symmetric n polls echo station := by
  induction polls generalizing echo with
  | nil => trivial
  | cons poll polls ih =>
    obtain ⟨⟨pending, rfl⟩, hpolls⟩ := List.forall_mem_cons.mp h
    cases echo with
    | nil => exact Or.inl rfl
    | cons x echo =>
      refine Or.inr ⟨?_, ih hpolls _⟩
      have hzero : min 1 n - (x :: echo).length = 0 := by
        rw [List.length_cons]
        omega
      rw [hzero, List.take_zero, List.append_nil, List.nil_append]
      rcases Nat.eq_zero_or_pos n with rfl | hn
      · rfl
      · rw [Nat.min_eq_left hn]
        rfl

def echoOfPair : List Byte := [0x10, 0x20]

def stationPair : List Byte := [0x01, 0x02]

theorem read_station_single : ReadsStation 2 stationPair
    (read 2 ⟨echoOfPair, echoOfPair ++ stationPair, List.replicate 4 (.data 1 0)⟩) :=
  (read_station_iff (by decide) (by decide) (by decide) (by decide)).mpr
    (symmetric_single (by simp) echoOfPair stationPair)

/-- Two bytes of echo in one chunk are taken for foreign bytes. -/
theorem read_station_false : ¬∀ (n : ℕ) (echo station : List Byte) (polls : List Poll), 1 ≤ n →
    n ≤ station.length → (∀ q ∈ polls, q.Quiet) → echo.length + n ≤ dataPolls polls →
    ReadsStation n station (read n ⟨echo, echo ++ station, polls⟩) := by
  intro hall
  obtain ⟨b, hb, -⟩ := hall 2 echoOfPair stationPair (List.replicate 4 (.data 2 0)) (by decide)
    (by decide) (by decide) (by decide)
  cases hb

end Ritex
