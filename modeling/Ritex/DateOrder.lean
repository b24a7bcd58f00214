import Ritex.GatewayData

/-! The comparisons of `fstring_t`. Whether `char` is signed is up to the platform, and an integer in
memory is read on a little-endian host. -/
namespace Ritex.Gateway
open Streams

def charValue (isSigned : Bool) (c : Byte) : ℤ := if isSigned then c.toInt else c.toNat

theorem charValue_injective (isSigned : Bool) : Function.Injective (charValue isSigned) := by
  intro a b h
  cases isSigned with
  | false => exact BitVec.eq_of_toNat_eq (Int.ofNat_inj.mp h)
  | true => exact BitVec.eq_of_toInt_eq h

namespace FString

variable {n : ℕ}

/-- `reinterpret_cast< int const & >( bulk )`. -/
def hostInt (s : FString n) : ℤ :=
  (s.bulk.foldr (fun (byte : Byte) (item : BitVec 32) => item <<< 8 ||| byte.setWidth 32) 0).toInt

def sameBytes : List Byte → List Byte → Bool
  | a :: as, b :: bs => if a ≠ b then false else sameBytes as bs
  | _, _ => true

def greaterBytes (isSigned : Bool) : List Byte → List Byte → Bool
  | a :: as, b :: bs =>
    if a ≠ b then decide (charValue isSigned a > charValue isSigned b) else greaterBytes isSigned as bs
  | _, _ => false

/-- `operator ==`; strings of the size of an integer are compared as integers. -/
def equal (s rhs : FString n) : Bool :=
  if n = 4 then s.hostInt = rhs.hostInt else sameBytes s.bulk rhs.bulk

def greater (isSigned : Bool) (s rhs : FString n) : Bool :=
  if n = 4 then s.hostInt > rhs.hostInt else greaterBytes isSigned s.bulk rhs.bulk

/-- The characters of a string, which are compared one by one. -/
def codes (isSigned : Bool) (s : FString n) : List ℤ := s.bulk.map (charValue isSigned)

theorem ext_bulk {s t : FString n} (h : s.bulk = t.bulk) : s = t := by
  cases s
  cases t
  congr

theorem sameBytes_iff {as bs : List Byte} (h : as.length = bs.length) :
    sameBytes as bs = true ↔ as = bs := by
  induction as generalizing bs with
  | nil =>
    cases bs with
    | nil => simp [sameBytes]
    | cons b bs => cases h
  | cons a as ih =>
    cases bs with
    | nil => cases h
    | cons b bs =>
      have hrest := ih (Nat.succ.inj h)
      by_cases hab : a = b
      · simp [sameBytes, hab, hrest]
      · simp [sameBytes, hab]

theorem greaterBytes_iff {isSigned : Bool} {as bs : List Byte} (h : as.length = bs.length) :
    greaterBytes isSigned as bs = true ↔
      bs.map (charValue isSigned) < as.map (charValue isSigned) := by
  induction as generalizing bs with
  | nil =>
    cases bs with
    | nil => simp [greaterBytes]
    | cons b bs => cases h
  | cons a as ih =>
    cases bs with
    | nil => cases h
    | cons b bs =>
      have hrest := ih (Nat.succ.inj h)
      rw [List.map_cons, List.map_cons, List.cons_lt_cons_iff]
      by_cases hab : a = b
      · simp [greaterBytes, hab, hrest]
      · have hvalue : charValue isSigned b ≠ charValue isSigned a := fun heq =>
          hab (charValue_injective isSigned heq).symm
        simp [greaterBytes, hab, hvalue]

theorem equal_iff (hn : n ≠ 4) {s rhs : FString n} : s.equal rhs = true ↔ s = rhs := by
  have hlength : s.bulk.length = rhs.bulk.length := by rw [s.length_eq, rhs.length_eq]
  rw [equal, if_neg hn, sameBytes_iff hlength]
  exact ⟨ext_bulk, congrArg bulk⟩

theorem greater_iff (hn : n ≠ 4) {isSigned : Bool} {s rhs : FString n} :
    s.greater isSigned rhs = true ↔ rhs.codes isSigned < s.codes isSigned := by
  have hlength : s.bulk.length = rhs.bulk.length := by rw [s.length_eq, rhs.length_eq]
  rw [greater, if_neg hn]
  exact greaterBytes_iff hlength

end FString

end Ritex.Gateway
