import Ritex.CommandLine

/-! The strings of `gateway/string.cpp`: `split` and `join` as in Perl, and the literals of the messages. -/
namespace Ritex.Gateway.Strings

/-- `string::find`. -/
def find (splitter : Text) : Text → Option ℕ
  | [] => if splitter = [] then some 0 else none
  | c :: s => if splitter.isPrefixOf (c :: s) then some 0 else (find splitter s).map (· + 1)

/-- Where the first piece ends. -/
def pieceEnd (splitter s : Text) : ℕ :=
  if splitter = [] then 1 else (find splitter s).getD s.length

/-- The pieces of what is left of the string, in at most so many rounds. -/
def pieces (splitter : Text) : ℕ → Text → List Text
  | 0, _ => []
  | n + 1, s =>
    let rest := s.drop (pieceEnd splitter s + splitter.length)
    s.take (pieceEnd splitter s) :: if rest = [] then [] else pieces splitter n rest

/-- `pop_back` as long as the last piece is empty. -/
def dropEmpty (strings : List Text) : List Text := strings.rdropWhile (· = [])

/-- Every round takes a character. -/
def split (splitter string : Text) : List Text :=
  if string = [] then [] else dropEmpty (pieces splitter string.length string)

def join (joiner : Text) : List Text → Text
  | [] => []
  | [s] => s
  | s :: strings => s ++ joiner ++ join joiner strings

/-- `isprint`, or a character beyond ASCII. -/
def isPrinted (c : Char) : Bool := (32 ≤ c.toNat && c.toNat < 127) || 128 ≤ c.toNat

def hexDigit (n : ℕ) : Char := "0123456789ABCDEF".toList.getD n '0'

/-- `"` and `\` are printed as they are. -/
def cLiteral (s : Text) : Text :=
  '"' :: s.flatMap (fun c => if isPrinted c then [c]
    else ['\\', 'x', hexDigit (c.toNat / 16), hexDigit (c.toNat % 16)]) ++ ['"']

/-- `operator<<` of `strings_t`. -/
def printStrings (items : List Text) : Text :=
  '{' :: (if items = [] then [] else
    join [','] (items.map fun item => ' ' :: cLiteral item) ++ [' ']) ++ ['}']

example : split ",".toList ",a,,b,".toList = [[], ['a'], [], ['b']] := by decide

/-! ### What `join` puts together -/

/-- The splitter behind the piece is the first one. -/
def EndsFirst (splitter piece : Text) : Prop :=
  ∀ i < piece.length, ¬splitter <+: (piece ++ splitter).drop i

/-- Pieces between splitters that can be told from each other. -/
structure Separated (splitter : Text) (strings : List Text) : Prop where
  before : ∀ s ∈ strings.dropLast, EndsFirst splitter s
  last : ∀ s ∈ strings.getLast?, s ≠ [] ∧ ¬splitter <:+: s

/-- The lists that `split` gives. -/
def Separable (splitter : Text) (strings : List Text) : Prop :=
  if splitter = [] then ∀ s ∈ strings, s.length = 1 else Separated splitter strings

section Find

variable {splitter s : Text}

theorem find_eq_none_iff (splitter s : Text) : find splitter s = none ↔ ¬splitter <:+: s := by
  induction s with
  | nil => simp [find]
  | cons c s ih =>
    rw [find, List.infix_cons_iff, not_or, ← List.isPrefixOf_iff_prefix]
    split
    next h => simp [h]
    next h => simp [h, ih]

theorem find_eq_some {n : ℕ} (h : find splitter s = some n) :
    (∃ rest, s = s.take n ++ splitter ++ rest) ∧ n ≤ s.length ∧
      ∀ i < n, ¬splitter <+: s.drop i := by
  induction s generalizing n with
  | nil =>
    rw [find, Option.ite_none_right_eq_some] at h
    obtain ⟨rfl, h⟩ := h
    cases h
    exact ⟨⟨[], rfl⟩, le_rfl, by simp⟩
  | cons c s ih =>
    rw [find] at h
    split at h
    next hprefix =>
      cases h
      obtain ⟨rest, hrest⟩ := List.isPrefixOf_iff_prefix.mp hprefix
      exact ⟨⟨rest, by simpa using hrest.symm⟩, by simp, by simp⟩
    next hprefix =>
      obtain ⟨m, hm, rfl⟩ := Option.map_eq_some_iff.mp h
      obtain ⟨⟨rest, hrest⟩, hle, hfirst⟩ := ih hm
      refine ⟨⟨rest, ?_⟩, by simpa using hle, fun i hi => ?_⟩
      · rw [List.take_succ_cons, List.cons_append, List.cons_append, ← hrest]
      · cases i with
        | zero => rwa [List.drop_zero, ← List.isPrefixOf_iff_prefix]
        | succ i => exact hfirst i (by omega)

/-- The first splitter is where the piece ends. -/
theorem endsFirst_of_find {n : ℕ} (h : find splitter s = some n) : EndsFirst splitter (s.take n) := by
  obtain ⟨⟨rest, hrest⟩, -, hfirst⟩ := find_eq_some h
  intro i hi hprefix
  rw [List.length_take] at hi
  refine hfirst i (by omega) ?_
  have hdrop : s.drop i = (s.take n ++ splitter).drop i ++ rest := by
    conv_lhs => rw [hrest]
    refine List.drop_append_of_le_length ?_
    rw [List.length_append, List.length_take]
    omega
  rw [hdrop]
  exact hprefix.trans (List.prefix_append _ _)

theorem find_append (h : EndsFirst splitter s) (rest : Text) :
    find splitter (s ++ splitter ++ rest) = some s.length := by
  induction s with
  | nil =>
    have hprefix : splitter <+: splitter ++ rest := List.prefix_append _ _
    rw [List.nil_append]
    cases hsplitter : splitter ++ rest with
    | nil =>
      rw [(List.append_eq_nil_iff.mp hsplitter).1]
      rfl
    | cons c s =>
      rw [hsplitter] at hprefix
      rw [find, if_pos (List.isPrefixOf_iff_prefix.mpr hprefix)]
      rfl
  | cons c s ih =>
    have hnot : ¬splitter <+: c :: (s ++ splitter ++ rest) := by
      intro hprefix
      refine h 0 (by simp) (List.prefix_of_prefix_length_le hprefix ?_ (by simp; omega))
      exact ⟨rest, by simp⟩
    have hrest : EndsFirst splitter s := fun i hi => h (i + 1) (by simpa using hi)
    rw [List.cons_append, List.cons_append, find, if_neg (by rwa [List.isPrefixOf_iff_prefix]),
      ih hrest]
    rfl

theorem EndsFirst.not_inside (h : EndsFirst splitter s) (hsplitter : splitter ≠ []) :
    ¬splitter <:+: s := by
  rintro ⟨before, behind, rfl⟩
  have hpos := List.length_pos_iff.mpr hsplitter
  refine h before.length (by simp; omega) ?_
  simp [List.append_assoc]

end Find

section Pieces

variable {splitter : Text}

theorem join_cons (joiner s : Text) {strings : List Text} (h : strings ≠ []) :
    join joiner (s :: strings) = s ++ joiner ++ join joiner strings := by
  cases strings with
  | nil => exact absurd rfl h
  | cons => rfl

theorem join_concat (joiner : Text) (strings : List Text) (s : Text) :
    join joiner (strings ++ [s]) = if strings = [] then s else join joiner strings ++ joiner ++ s := by
  induction strings with
  | nil => rfl
  | cons first strings ih =>
    have hcons : first :: strings ≠ [] := by simp
    rw [List.cons_append, join_cons joiner first (by simp), ih, if_neg hcons]
    split
    next hnil =>
      subst hnil
      rfl
    next hne => simp [join_cons joiner first hne]

theorem pieces_cons {n : ℕ} (hsplitter : splitter ≠ []) {s : Text} {i : ℕ} (h : find splitter s = some i) :
    pieces splitter (n + 1) s = s.take i ::
      if s.drop (i + splitter.length) = [] then []
      else pieces splitter n (s.drop (i + splitter.length)) := by
  have hend : pieceEnd splitter s = i := by rw [pieceEnd, if_neg hsplitter, h, Option.getD_some]
  rw [pieces, hend]

theorem pieces_last {n : ℕ} (hsplitter : splitter ≠ []) {s : Text} (h : find splitter s = none) :
    pieces splitter (n + 1) s = [s] := by
  have hend : pieceEnd splitter s = s.length := by
    rw [pieceEnd, if_neg hsplitter, h, Option.getD_none]
  simp [pieces, hend, List.drop_eq_nil_of_le]

/-- The pieces of a string end at the splitters, of which at most the one at the end gets lost. -/
structure PiecesOf (splitter s : Text) (strings : List Text) : Prop where
  ne_nil : strings ≠ []
  before : ∀ p ∈ strings.dropLast, EndsFirst splitter p
  last : ∀ p ∈ strings.getLast?, ¬splitter <:+: p
  join : s = join splitter strings ∨ s = join splitter strings ++ splitter

theorem pieces_spec (hsplitter : splitter ≠ []) {n : ℕ} {s : Text} (hs : s ≠ []) (hn : s.length ≤ n) :
    PiecesOf splitter s (pieces splitter n s) := by
  induction n generalizing s with
  | zero => exact absurd (List.length_eq_zero_iff.mp (by omega)) hs
  | succ n ih =>
    cases hfind : find splitter s with
    | none =>
      rw [pieces_last hsplitter hfind]
      refine ⟨by simp, by simp, ?_, .inl rfl⟩
      rintro p ⟨⟩
      exact (find_eq_none_iff splitter s).mp hfind
    | some i =>
      have hfirst := endsFirst_of_find hfind
      obtain ⟨⟨rest, hrest⟩, hle, -⟩ := find_eq_some hfind
      have hdrop : s.drop (i + splitter.length) = rest := by
        conv_lhs => rw [hrest]
        refine List.drop_left' ?_
        simp [hle]
      rw [pieces_cons hsplitter hfind, hdrop]
      split
      next hnil =>
        subst hnil
        refine ⟨by simp, by simp, ?_, .inr (by simpa [Strings.join] using hrest)⟩
        rintro p ⟨⟩
        exact hfirst.not_inside hsplitter
      next hne =>
        have hpos := List.length_pos_iff.mpr hsplitter
        have hlength := congrArg List.length hrest
        simp only [List.length_append, List.length_take] at hlength
        obtain ⟨hpieces, hbefore, hlast, hjoin⟩ := ih hne (by omega)
        obtain ⟨first, strings, hcons⟩ := List.exists_cons_of_ne_nil hpieces
        rw [hcons] at hbefore hlast hjoin ⊢
        refine ⟨by simp, ?_, ?_, ?_⟩
        · rw [List.dropLast_cons_of_ne_nil (by simp), List.forall_mem_cons]
          exact ⟨hfirst, hbefore⟩
        · rwa [List.getLast?_cons_cons]
        · rw [join_cons splitter _ (by simp)]
          rcases hjoin with hjoin | hjoin
          · exact .inl (hjoin ▸ hrest)
          · refine .inr ?_
            rw [List.append_assoc, ← hjoin]
            exact hrest

theorem Separated.join_ne_nil {strings : List Text} (h : Separated splitter strings)
    (hne : strings ≠ []) : join splitter strings ≠ [] := by
  obtain ⟨first, s, rfl⟩ := List.eq_nil_or_concat strings |>.resolve_left hne
  rw [List.concat_eq_append] at h ⊢
  have hs := (h.last s (by simp)).1
  rw [join_concat]
  split
  · exact hs
  · simp [hs]

theorem pieces_join (hsplitter : splitter ≠ []) {strings : List Text} (hne : strings ≠ [])
    (h : Separated splitter strings) {n : ℕ} (hn : (join splitter strings).length ≤ n) :
    pieces splitter n (join splitter strings) = strings := by
  induction strings generalizing n with
  | nil => exact absurd rfl hne
  | cons s strings ih =>
    cases strings with
    | nil =>
      obtain ⟨hs, hinfix⟩ := h.last s rfl
      obtain ⟨n, rfl⟩ := Nat.exists_eq_add_one.mpr
        (Nat.lt_of_lt_of_le (List.length_pos_iff.mpr hs) hn)
      exact pieces_last hsplitter ((find_eq_none_iff splitter s).mpr hinfix)
    | cons second strings =>
      have hbefore := h.before
      have hlast := h.last
      rw [List.dropLast_cons_of_ne_nil (by simp), List.forall_mem_cons] at hbefore
      rw [List.getLast?_cons_cons] at hlast
      have hrest : Separated splitter (second :: strings) := ⟨hbefore.2, hlast⟩
      rw [join_cons splitter s (by simp)] at hn ⊢
      have hpos := List.length_pos_iff.mpr hsplitter
      rw [List.length_append, List.length_append] at hn
      obtain ⟨n, rfl⟩ := Nat.exists_eq_add_one.mpr (show 0 < n by omega)
      rw [pieces_cons hsplitter (find_append hbefore.1 _)]
      rw [List.drop_left' (by simp), List.append_assoc, List.take_left' rfl,
        if_neg (hrest.join_ne_nil (by simp)), ih (by simp) hrest (by omega)]

theorem dropEmpty_separated (hsplitter : splitter ≠ []) {strings : List Text}
    (hbefore : ∀ s ∈ strings.dropLast, EndsFirst splitter s)
    (hlast : ∀ s ∈ strings.getLast?, ¬splitter <:+: s) :
    Separated splitter (dropEmpty strings) := by
  induction strings using List.reverseRecOn with
  | nil => exact ⟨by simp [dropEmpty], by simp [dropEmpty]⟩
  | append_singleton strings s ih =>
    rw [List.dropLast_concat] at hbefore
    rw [dropEmpty, List.rdropWhile_concat]
    split
    next hs =>
      refine ih (fun s hs => hbefore s (List.dropLast_subset _ hs)) fun s hs => ?_
      exact (hbefore s (List.mem_of_mem_getLast? hs)).not_inside hsplitter
    next hs =>
      refine ⟨by rwa [List.dropLast_concat], fun s' hs' => ?_⟩
      rw [List.getLast?_concat] at hs' hlast
      cases hs'
      exact ⟨by simpa using hs, hlast s rfl⟩

theorem join_dropEmpty (joiner : Text) (strings : List Text) :
    ∃ n, join joiner strings = join joiner (dropEmpty strings) ++ (List.replicate n joiner).flatten := by
  induction strings using List.reverseRecOn with
  | nil => exact ⟨0, rfl⟩
  | append_singleton strings s ih =>
    rw [dropEmpty, List.rdropWhile_concat]
    split
    next hs =>
      obtain rfl : s = [] := by simpa using hs
      obtain ⟨n, hn⟩ := ih
      rw [join_concat]
      split
      next hnil =>
        subst hnil
        exact ⟨0, rfl⟩
      next =>
        refine ⟨n + 1, ?_⟩
        rw [List.append_nil, hn, List.replicate_succ', List.flatten_concat, List.append_assoc]
        rfl
    next => exact ⟨0, by simp⟩

/-! ### Round trips -/

theorem split_separated (hsplitter : splitter ≠ []) (string : Text) :
    Separated splitter (split splitter string) := by
  unfold split
  split
  · exact ⟨by simp, by simp⟩
  next hs =>
    have hpieces := pieces_spec hsplitter hs le_rfl
    exact dropEmpty_separated hsplitter hpieces.before hpieces.last

theorem split_join_separated (hsplitter : splitter ≠ []) {strings : List Text}
    (h : Separated splitter strings) : split splitter (join splitter strings) = strings := by
  by_cases hne : strings = []
  · subst hne
    rfl
  · rw [split, if_neg (h.join_ne_nil hne), pieces_join hsplitter hne h le_rfl, dropEmpty,
      List.rdropWhile_eq_self_iff]
    intro hl
    have hlast := (h.last _ (List.getLast?_eq_some_getLast hl)).1
    simpa using hlast

theorem pieces_nil {n : ℕ} {s : Text} (hs : s ≠ []) (hn : s.length ≤ n) :
    pieces [] n s = s.map fun c => [c] := by
  induction n generalizing s with
  | zero => exact absurd (List.length_eq_zero_iff.mp (by omega)) hs
  | succ n ih =>
    obtain ⟨c, s, rfl⟩ := List.exists_cons_of_ne_nil hs
    have hend : pieceEnd [] (c :: s) = 1 := rfl
    rw [pieces, hend]
    show [c] :: (if s = [] then [] else pieces [] n s) = [c] :: s.map _
    split
    next hnil => rw [hnil, List.map_nil]
    next hne => rw [ih hne (by simpa using hn)]

/-- Without a splitter a string is taken apart into its characters. -/
theorem split_nil (string : Text) : split [] string = string.map fun c => [c] := by
  unfold split
  split
  next h => rw [h, List.map_nil]
  next hne =>
    rw [pieces_nil hne le_rfl, dropEmpty, List.rdropWhile_eq_self_iff]
    intro hl
    simp [List.getLast_map]

theorem join_nil (strings : List Text) : join [] strings = strings.flatten := by
  induction strings with
  | nil => rfl
  | cons s strings ih =>
    cases strings with
    | nil => simp [join]
    | cons =>
      rw [join_cons _ _ (by simp), ih, List.append_nil]
      rfl

theorem split_join_nil_iff (strings : List Text) :
    split [] (join [] strings) = strings ↔ ∀ s ∈ strings, s.length = 1 := by
  rw [split_nil, join_nil]
  constructor
  · intro h s hs
    rw [← h] at hs
    obtain ⟨c, -, rfl⟩ := List.mem_map.mp hs
    rfl
  · intro h
    induction strings with
    | nil => rfl
    | cons s strings ih =>
      obtain ⟨hs, hstrings⟩ := List.forall_mem_cons.mp h
      obtain ⟨c, rfl⟩ := List.length_eq_one_iff.mp hs
      rw [List.flatten_cons, List.map_append, ih hstrings]
      rfl

theorem join_split (splitter string : Text) :
    ∃ n, string = join splitter (split splitter string) ++ (List.replicate n splitter).flatten := by
  by_cases hsplitter : splitter = []
  · subst hsplitter
    exact ⟨0, by simp [split_nil, join_nil, ← List.flatMap_def]⟩
  by_cases hs : string = []
  · subst hs
    exact ⟨0, rfl⟩
  obtain ⟨n, hn⟩ := join_dropEmpty splitter (pieces splitter string.length string)
  rw [split, if_neg hs]
  rcases (pieces_spec hsplitter hs le_rfl).join with h | h
  · exact ⟨n, h.trans hn⟩
  · refine ⟨n + 1, ?_⟩
    rw [List.replicate_succ', List.flatten_concat, ← List.append_assoc, ← hn]
    exact h

/-- A split loses nothing but splitters at the end, and it undoes a join exactly of the lists that a
split can give: those whose pieces end at the first splitter, the last of them not empty. -/
theorem split_join_roundTrip (splitter : Text) :
    (∀ string, ∃ n, string =
      join splitter (split splitter string) ++ (List.replicate n splitter).flatten) ∧
    ∀ strings, split splitter (join splitter strings) = strings ↔ Separable splitter strings := by
  refine ⟨join_split splitter, fun strings => ?_⟩
  unfold Separable
  split
  next hnil =>
    subst hnil
    exact split_join_nil_iff strings
  next hsplitter =>
    refine ⟨fun h => ?_, split_join_separated hsplitter⟩
    rw [← h]
    exact split_separated hsplitter _

/-- The splitter behind the first piece is not the first one. -/
example : split "aa".toList (join "aa".toList ["ba".toList, ['c']]) = [['b'], "ac".toList] := by decide

end Pieces

end Ritex.Gateway.Strings
