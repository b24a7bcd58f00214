import Ritex.ServerAnswers

/-! The command line on its way from the client to the daemon. -/
namespace Ritex

section Splitting
variable {α : Type} [BEq α] [LawfulBEq α] {sep : α}

theorem sep_notMem_of_mem_splitOn {text field : List α} (h : field ∈ text.splitOn sep) :
    sep ∉ field := by
  induction text generalizing field with
  | nil =>
    rw [List.splitOn_nil, List.mem_singleton] at h
    rw [h]
    exact List.not_mem_nil
  | cons c text ih =>
    rw [List.splitOn_cons_eq_if_modifyHead] at h
    split at h
    next =>
      rcases List.mem_cons.mp h with hfield | hfield
      · rw [hfield]
        exact List.not_mem_nil
      · exact ih hfield
    next hc =>
      cases hsplit : text.splitOn sep with
      | nil => exact absurd hsplit (List.splitOn_ne_nil sep text)
      | cons first fields =>
        rw [hsplit] at h ih
        rcases List.mem_cons.mp h with hfield | hfield
        · have hfirst : sep ∉ first := ih List.mem_cons_self
          have hsep : sep ≠ c := fun heq => hc (beq_iff_eq.mpr heq.symm)
          rw [hfield, List.mem_cons]
          exact not_or.mpr ⟨hsep, hfirst⟩
        · exact ih (List.mem_cons_of_mem first hfield)

/-- A field that holds the separator comes back in pieces. -/
theorem splitOn_intercalate_flatMap (fields : List (List α)) (h : fields ≠ []) :
    ([sep].intercalate fields).splitOn sep = fields.flatMap (·.splitOn sep) := by
  induction fields with
  | nil => exact absurd rfl h
  | cons first fields ih =>
    cases fields with
    | nil => simp
    | cons second fields =>
      have hrest := ih (List.cons_ne_nil second fields)
      rw [List.intercalate_cons_cons, List.append_assoc, List.singleton_append,
        List.splitOn_append_cons_self, hrest]
      exact List.flatMap_cons.symm

theorem flatMap_splitOn_eq_self {fields : List (List α)} (h : ∀ field ∈ fields, sep ∉ field) :
    fields.flatMap (·.splitOn sep) = fields := by
  induction fields with
  | nil => rfl
  | cons first fields ih =>
    have hfirst : first.splitOn sep = [first] := List.splitOn_eq_singleton (h first List.mem_cons_self)
    have hrest := ih fun field hfield => h field (List.mem_cons_of_mem first hfield)
    rw [List.flatMap_cons, hfirst, hrest, List.singleton_append]

end Splitting

def getCmdLine : List Text → Text
  | [] => []
  | [arg] => arg
  | arg :: args => arg ++ ' ' :: getCmdLine args

theorem getCmdLine_eq_intercalate (args : List Text) : getCmdLine args = [' '].intercalate args := by
  induction args with
  | nil => rfl
  | cons arg args ih =>
    cases args with
    | nil => simp [getCmdLine]
    | cons second args =>
      rw [getCmdLine, ih, List.intercalate_cons_cons, List.append_assoc, List.singleton_append]
      exact List.cons_ne_nil second args

theorem setCmdLine_getCmdLine (args : List Text) :
    setCmdLine (getCmdLine args) =
      if (args.flatMap (·.splitOn ' ')).getLast? = some [] then
        (args.flatMap (·.splitOn ' ')).dropLast
      else args.flatMap (·.splitOn ' ') := by
  cases args with
  | nil => rfl
  | cons arg args =>
    rw [setCmdLine, split, getCmdLine_eq_intercalate,
      splitOn_intercalate_flatMap _ (List.cons_ne_nil arg args)]

theorem space_notMem_of_mem_setCmdLine {cmdLine word : Text} (h : word ∈ setCmdLine cmdLine) :
    ' ' ∉ word := by
  rw [setCmdLine, split] at h
  split at h
  next => exact sep_notMem_of_mem_splitOn (List.mem_of_mem_dropLast h)
  next => exact sep_notMem_of_mem_splitOn h

theorem setCmdLine_getCmdLine_eq_self (args : List Text) :
    setCmdLine (getCmdLine args) = args ↔
      (∀ arg ∈ args, ' ' ∉ arg) ∧ args.getLast? ≠ some [] := by
  constructor
  · intro h
    have hspace : ∀ arg ∈ args, ' ' ∉ arg := fun arg harg =>
      space_notMem_of_mem_setCmdLine (h.symm ▸ harg)
    refine ⟨hspace, fun hlast => ?_⟩
    have hlength := congrArg List.length h
    rw [setCmdLine_getCmdLine, flatMap_splitOn_eq_self hspace, if_pos hlast,
      List.length_dropLast] at hlength
    have hpositive : 0 < args.length := List.length_pos_of_mem (List.mem_of_getLast? hlast)
    omega
  · rintro ⟨hspace, hlast⟩
    rw [setCmdLine_getCmdLine, flatMap_splitOn_eq_self hspace, if_neg hlast]

/-! ### Over the socket -/

/-- A word of `argv`: bytes before the zero byte. -/
abbrev Argument := { word : Text // ∀ c ∈ word, 0 < c.toNat ∧ c.toNat < 256 }

/-- `cmdLine.c_str()` with its terminating zero. -/
def sentCmdLine (args : List Text) : List Byte :=
  (getCmdLine args).map (fun c => BitVec.ofNat 8 c.toNat) ++ [0]

theorem mem_getCmdLine {args : List Text} {c : Char} (h : c ∈ getCmdLine args) :
    c = ' ' ∨ ∃ arg ∈ args, c ∈ arg := by
  induction args with
  | nil => cases h
  | cons arg args ih =>
    cases args with
    | nil => exact .inr ⟨arg, List.mem_cons_self, h⟩
    | cons second args =>
      rw [getCmdLine, List.mem_append, List.mem_cons] at h
      · rcases h with harg | hspace | hrest
        · exact .inr ⟨arg, List.mem_cons_self, harg⟩
        · exact .inl hspace
        · obtain hspace | ⟨word, hword, hc⟩ := ih hrest
          · exact .inl hspace
          · exact .inr ⟨word, List.mem_cons_of_mem arg hword, hc⟩
      · exact List.cons_ne_nil second args

theorem cString_bytes {text : Text} (h : ∀ c ∈ text, 0 < c.toNat ∧ c.toNat < 256)
    (beyond : List Byte) :
    cString (text.map (fun c => BitVec.ofNat 8 c.toNat) ++ [0] ++ beyond) = text := by
  induction text with
  | nil => rfl
  | cons c text ih =>
    have hc := h c List.mem_cons_self
    have hbyte : (BitVec.ofNat 8 c.toNat).toNat = c.toNat := by
      rw [BitVec.toNat_ofNat]
      exact Nat.mod_eq_of_lt hc.2
    have hnonzero : BitVec.ofNat 8 c.toNat ≠ 0 := by
      intro hzero
      rw [hzero] at hbyte
      have : c.toNat = 0 := hbyte.symm
      omega
    have hrest := ih fun d hd => h d (List.mem_cons_of_mem c hd)
    rw [cString, List.map_cons, List.cons_append, List.cons_append,
      List.takeWhile_cons_of_pos (p := fun b : Byte => decide (b ≠ 0)) (decide_eq_true hnonzero),
      List.map_cons, hbyte, Char.ofNat_toNat]
    exact congrArg (c :: ·) hrest

theorem cString_sentCmdLine (args : List Argument) (beyond : List Byte) :
    cString (sentCmdLine (args.map (·.1)) ++ beyond) = getCmdLine (args.map (·.1)) := by
  refine cString_bytes (fun c hc => ?_) beyond
  rcases mem_getCmdLine hc with rfl | ⟨word, hword, hmem⟩
  · decide
  · obtain ⟨arg, -, rfl⟩ := List.mem_map.mp hword
    exact arg.2 c hmem

/-- The daemon splits the line into the words of the client if no word holds a space and the last
one is not empty. -/
theorem cmdLine_arrives_iff (args : List Argument) (beyond : List Byte) :
    setCmdLine (cString (sentCmdLine (args.map (·.1)) ++ beyond)) = args.map (·.1) ↔
      (∀ arg ∈ args, ' ' ∉ arg.1) ∧ (args.map (·.1)).getLast? ≠ some [] := by
  rw [cString_sentCmdLine, setCmdLine_getCmdLine_eq_self, List.forall_mem_map]

def spacedWords : List Argument :=
  ["ritex".toList, "-t".toList, "-a".toList, "comdevice".toList, "/dev/my port".toList].attachWith
    (fun word => ∀ c ∈ word, 0 < c.toNat ∧ c.toNat < 256) (by simp)

/-- The client accepts a port with a space in its name. -/
theorem cmdLine_arrives_false : ¬ ∀ getopt (args : List Argument),
    (parse getopt (args.map (·.1))).isSome = true →
      setCmdLine (cString (sentCmdLine (args.map (·.1)))) = args.map (·.1) := by
  intro hall
  have haccepted : (parse sampleLibrary.getopt (spacedWords.map (·.1))).isSome = true := by
    decide +kernel
  have hlength := congrArg List.length (hall sampleLibrary.getopt spacedWords haccepted)
  revert hlength
  decide +kernel

end Ritex
