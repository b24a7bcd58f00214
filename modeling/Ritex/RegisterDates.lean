import Mathlib.Tactic.IntervalCases
import Ritex.DateOrder
import Ritex.DecimalText
import Ritex.FixedWidthDigits
import Ritex.LoggerThread

/-! The register date of a record, which the gateway compares as text, is the local time of its
event. -/
namespace Ritex.Gateway
open Streams FixedWidth

/-- `struct tm`. -/
structure LocalTime where
  year : ℤ
  mon : ℤ
  mday : ℤ
  hour : ℤ
  min : ℤ
  sec : ℤ
  deriving DecidableEq

/-- `%0wd`: the sign takes one of the characters. -/
def padded (w : ℕ) (value : ℤ) : Text :=
  if value < 0 then '-' :: (Nat.toDigits 10 value.natAbs).leftpad (w - 1) '0'
  else (Nat.toDigits 10 value.natAbs).leftpad w '0'

/-- The format `%04d-%02d-%02d %02d:%02d:%02d`. -/
def LocalTime.format (tm : LocalTime) : Text :=
  padded 4 (tm.year + 1900) ++ ['-'] ++ padded 2 (tm.mon + 1) ++ ['-'] ++ padded 2 tm.mday ++
    [' '] ++ padded 2 tm.hour ++ [':'] ++ padded 2 tm.min ++ [':'] ++ padded 2 tm.sec

/-- `TimeToString`; `snprintf` leaves room for the terminating zero in the 32 bytes. -/
def timeToString (localtime : ℤ → LocalTime) (time : ℤ) : List Byte :=
  ((localtime time).format.take 31).map fun c => BitVec.ofNat 8 c.toNat

/-- The ranges of the members, and a year of four digits. -/
structure LocalTime.Valid (tm : LocalTime) : Prop where
  year : -1900 ≤ tm.year ∧ tm.year < 8100
  mon : 0 ≤ tm.mon ∧ tm.mon < 12
  mday : 1 ≤ tm.mday ∧ tm.mday ≤ 31
  hour : 0 ≤ tm.hour ∧ tm.hour < 24
  min : 0 ≤ tm.min ∧ tm.min < 60
  sec : 0 ≤ tm.sec ∧ tm.sec ≤ 60

/-- The members in the order in which they are written. -/
def LocalTime.fields (tm : LocalTime) : List ℤ :=
  [tm.year, tm.mon, tm.mday, tm.hour, tm.min, tm.sec]

/-! ### The text of valid times -/

def digitByte (d : ℕ) : Byte := BitVec.ofNat 8 (Nat.digitChar d).toNat

theorem padded_digits {w n : ℕ} (hn : n < 10 ^ (w + 1)) :
    padded (w + 1) n = (digits 10 (w + 1) n).map Nat.digitChar := by
  have hpos : ¬(n : ℤ) < 0 := by omega
  rw [padded, if_neg hpos, Int.natAbs_natCast]
  induction w generalizing n with
  | zero =>
    have hlt : n < 10 := by simpa using hn
    simp [Nat.toDigits_of_lt_base hlt, digits, Nat.mod_eq_of_lt hlt, List.leftpad]
  | succ w ih =>
    by_cases hlt : n < 10
    · rw [Nat.toDigits_of_lt_base hlt, digits, Nat.div_eq_of_lt hlt, digits_zero,
        Nat.mod_eq_of_lt hlt]
      simp [List.leftpad]
    · have hrest := ih (n := n / 10) (div_lt_pow hn) (by omega)
      rw [Nat.toDigits_of_base_le (by omega) (by omega), digits, List.map_append, ← hrest]
      simp [List.leftpad]

/-- The members as they are written. -/
def LocalTime.written (tm : LocalTime) : List ℕ :=
  [(tm.year + 1900).toNat, (tm.mon + 1).toNat, tm.mday.toNat, tm.hour.toNat, tm.min.toNat,
    tm.sec.toNat]

/-- The fields of a date with what stands behind each; the last is the terminating zero. -/
def dateLayout : List (ℕ × List Byte) :=
  [(4, ascii "-"), (2, ascii "-"), (2, ascii " "), (2, ascii ":"), (2, ascii ":"), (2, [0])]

namespace LocalTime.Valid

variable {tm other : LocalTime}

theorem fits (h : tm.Valid) : Fits 10 dateLayout tm.written := by
  obtain ⟨hyear, hmon, hmday, hhour, hmin, hsec⟩ := h
  simp only [Fits, dateLayout, LocalTime.written, List.forall₂_cons, List.forall₂_nil_left_iff,
    and_true]
  omega

theorem written_lt_iff (h : tm.Valid) (h' : other.Valid) :
    tm.written < other.written ↔ tm.fields < other.fields := by
  obtain ⟨hyear, hmon, hmday, hhour, hmin, hsec⟩ := h
  obtain ⟨hyear', hmon', hmday', hhour', hmin', hsec'⟩ := h'
  simp only [LocalTime.written, LocalTime.fields, List.cons_lt_cons_iff, List.not_lt_nil,
    and_false, or_false]
  omega

theorem format_eq (h : tm.Valid) :
    (tm.format.map fun c => BitVec.ofNat 8 c.toNat) ++ [0] =
      render digitByte 10 dateLayout tm.written := by
  obtain ⟨hyear, hmon, hmday, hhour, hmin, hsec⟩ := h
  have htext {value : ℤ} {w : ℕ} (hvalue : 0 ≤ value) (hlt : value.toNat < 10 ^ (w + 1)) :
      padded (w + 1) value = (digits 10 (w + 1) value.toNat).map Nat.digitChar := by
    rw [← padded_digits hlt, Int.toNat_of_nonneg hvalue]
  have hbytes (w n : ℕ) : ((digits 10 w n).map Nat.digitChar).map (fun c => BitVec.ofNat 8 c.toNat) =
      (digits 10 w n).map digitByte := List.map_map
  rw [LocalTime.format, htext (w := 3) (by omega) (by omega), htext (w := 1) (by omega) (by omega),
    htext (w := 1) (by omega) (by omega), htext (w := 1) (by omega) (by omega),
    htext (w := 1) (by omega) (by omega), htext (w := 1) (by omega) (by omega)]
  simp only [List.map_append, hbytes, dateLayout, LocalTime.written, render, List.append_assoc]
  rfl

theorem length_format (h : tm.Valid) : tm.format.length = 19 := by
  have hlength := congrArg List.length h.format_eq
  simpa [render, dateLayout, LocalTime.written, ascii] using hlength

end LocalTime.Valid

theorem registerDate_bulk {localtime : ℤ → LocalTime} {time : ℤ} (h : (localtime time).Valid) :
    (registerDate (timeToString localtime) time).bulk =
        timeToString localtime time ++ [0] ∧
      (registerDate (timeToString localtime) time).bulk =
        render digitByte 10 dateLayout (localtime time).written := by
  have htext : timeToString localtime time =
      (localtime time).format.map fun c => BitVec.ofNat 8 c.toNat := by
    rw [timeToString, List.take_of_length_le (by rw [h.length_format]; omega)]
  have hlength : (timeToString localtime time).length = 19 := by
    rw [htext, List.length_map, h.length_format]
  have hbulk : (registerDate (timeToString localtime) time).bulk =
      timeToString localtime time ++ [0] := by
    simp [registerDate, List.take_append, hlength]
  rw [← h.format_eq, ← htext]
  exact ⟨hbulk, hbulk⟩

theorem digitValue_strictMonoOn (isSigned : Bool) :
    StrictMonoOn (charValue isSigned ∘ digitByte) (Set.Iio 10) := by
  intro d hd e he h
  rw [Set.mem_Iio] at hd he
  have hdecimal : ∀ e < 10, ∀ d < e, charValue isSigned (digitByte d) <
      charValue isSigned (digitByte e) := by
    cases isSigned <;> decide
  exact hdecimal e he d h

theorem LocalTime.Valid.fits_codes {tm : LocalTime} (h : tm.Valid) (isSigned : Bool) :
    Fits 10 (dateLayout.map fun field => (field.1, field.2.map (charValue isSigned))) tm.written := by
  rw [Fits, List.forall₂_map_left_iff]
  exact h.fits

theorem registerDate_codes_lt_iff {localtime : ℤ → LocalTime} (isSigned : Bool) {time other : ℤ}
    (h : (localtime time).Valid) (h' : (localtime other).Valid) :
    (registerDate (timeToString localtime) time).codes isSigned <
        (registerDate (timeToString localtime) other).codes isSigned ↔
      (localtime time).fields < (localtime other).fields := by
  rw [FString.codes, FString.codes, (registerDate_bulk h).2, (registerDate_bulk h').2, map_render,
    map_render, render_lt_iff (digitValue_strictMonoOn isSigned) (by omega) (h.fits_codes isSigned)
      (h'.fits_codes isSigned), h.written_lt_iff h']

theorem LocalTime.fields_injective : Function.Injective LocalTime.fields := by
  intro tm other h
  cases tm
  cases other
  simpa [LocalTime.fields] using h

/-- The date of a record is the whole text of its local time, and the gateway takes one date for the
later one exactly if its local time is. -/
theorem registerDate_order {localtime : ℤ → LocalTime} {isSigned : Bool} {time other : ℤ}
    (h : (localtime time).Valid) (h' : (localtime other).Valid) :
    (registerDate (timeToString localtime) time).bulk = timeToString localtime time ++ [0] ∧
      ((registerDate (timeToString localtime) time).greater isSigned
          (registerDate (timeToString localtime) other) = true ↔
        (localtime other).fields < (localtime time).fields) ∧
      ((registerDate (timeToString localtime) time).equal
          (registerDate (timeToString localtime) other) = true ↔
        localtime time = localtime other) := by
  have hlt := registerDate_codes_lt_iff isSigned h h'
  have hgt := registerDate_codes_lt_iff isSigned h' h
  refine ⟨(registerDate_bulk h).1, (FString.greater_iff (by decide)).trans hgt,
    (FString.equal_iff (by decide)).trans ⟨fun heq => ?_, fun heq => ?_⟩⟩
  · rw [heq] at hlt hgt
    have hle : ¬(localtime time).fields < (localtime other).fields :=
      fun hfields => lt_irrefl _ (hlt.mpr hfields)
    have hge : ¬(localtime other).fields < (localtime time).fields :=
      fun hfields => lt_irrefl _ (hgt.mpr hfields)
    exact LocalTime.fields_injective (le_antisymm (not_lt.mp hge) (not_lt.mp hle))
  · have htext : timeToString localtime time = timeToString localtime other := by
      rw [timeToString, timeToString, heq]
    apply FString.ext_bulk
    simp only [registerDate, htext]

/-- The local clock around the end of summer time, which puts it back by an hour. -/
def summerTimeEnd (time : ℤ) : LocalTime :=
  ⟨125, 9, 26, 2, if time < 3600 then time / 60 else (time - 3600) / 60, time % 60⟩

/-- The later of two events has the earlier date. -/
theorem registerDate_order_summerTimeEnd :
    (registerDate (timeToString summerTimeEnd) 3599).greater true
      (registerDate (timeToString summerTimeEnd) 3600) = true := by
  have hvalid (time : ℤ) (h : 0 ≤ time ∧ time < 7200) : (summerTimeEnd time).Valid := by
    constructor <;> simp only [summerTimeEnd] <;> omega
  exact (registerDate_order (hvalid 3599 (by decide)) (hvalid 3600 (by decide))).2.1.mpr (by decide)

end Ritex.Gateway
