import Ritex.CommandLineJoin
import Ritex.StreamSocket

/-! A command line and its reply over the local socket, each behind its length: what the server makes of
the segments that come, and what the client prints. -/
namespace Ritex
open StreamSocket

/-- An `int` as memory has it. -/
def intBytes (n : ℕ) : List Byte := (List.range 4).map fun i => BitVec.ofNat 8 (n / 256 ^ i)

def intValue (bytes : List Byte) : ℕ := Nat.ofDigits 256 (bytes.map BitVec.toNat)

/-- What `DaemonCommChannel::send` and `SendResponseToClient` make of a buffer. -/
def envelope (buffer : List Byte) : List Byte := intBytes buffer.length ++ buffer

/-- `c_str()` with its terminating zero. -/
def zeroTerminated (text : Text) : List Byte := text.map (fun c => BitVec.ofNat 8 c.toNat) ++ [0]

/-- A string without a zero byte, the length of which is an `int` with the terminating zero. -/
structure SentText where
  text : Text
  byte : ∀ c ∈ text, 0 < c.toNat ∧ c.toNat < 256
  length_lt : text.length + 1 < 2 ^ 31

def SentText.sent (s : SentText) : List Byte := envelope (zeroTerminated s.text)

/-- `DaemonCommServer::Run` up to `SetCmdLine`. -/
def receiveRequest (segments : List (List Byte)) : Input × List (List Byte) :=
  let (head, segments) := recvAll 4 segments
  if head.length = 4 then
    if intValue head < 2 ^ 31 then
      let (data, segments) := recvAll (intValue head) segments
      (if data.length = intValue head then .request data else .noContent, segments)
    else (.badLength, segments)
  else (.noLength, segments)

/-- What `Adapter::Run` prints of a reply; `length` holds what was in the memory that nothing has
initialised, `beyond` is behind the bytes that have come. -/
def printReply (length : ℕ) (beyond : List Byte) (segments : List (List Byte)) : Text :=
  let (head, segments) := recv 4 segments
  let length := intValue (head ++ (intBytes length).drop head.length)
  if 0 < length then cString ((recv length segments).1 ++ beyond) else []

/-- The server obtains the command line. -/
def CmdLineObtained (cmdLine : SentText) (segments : List (List Byte)) : Prop :=
  ∃ data, (receiveRequest segments).1 = .request data ∧
    ∀ beyond, cString (data ++ beyond) = cmdLine.text

/-- The client prints the reply, whatever memory holds. -/
def ReplyPrinted (reply : SentText) (segments : List (List Byte)) : Prop :=
  ∀ length beyond, printReply length beyond segments = reply.text

/-- Each `recv` of the client gets all that it asks for. -/
def ComesWhole (reply : SentText) (segments : List (List Byte)) : Prop :=
  (recv 4 segments).1.length = 4 ∧
    (recv (reply.text.length + 1) (recv 4 segments).2).1.length = reply.text.length + 1

/-! ### Lengths -/

theorem intBytes_length (n : ℕ) : (intBytes n).length = 4 := rfl

theorem intValue_append (first second : List Byte) :
    intValue (first ++ second) = intValue first + 256 ^ first.length * intValue second := by
  rw [intValue, List.map_append, Nat.ofDigits_append, List.length_map]
  rfl

theorem intValue_range (n k : ℕ) :
    intValue ((List.range k).map fun i => BitVec.ofNat 8 (n / 256 ^ i)) = n % 256 ^ k := by
  induction k with
  | zero => simp [intValue, Nat.mod_one]
  | succ k ih =>
    rw [List.range_succ, List.map_append, intValue_append, ih, List.length_map, List.length_range,
      Nat.mod_pow_succ]
    simp [intValue]

theorem intValue_take {n k : ℕ} (hk : k ≤ 4) : intValue ((intBytes n).take k) = n % 256 ^ k := by
  rw [intBytes, ← List.map_take, List.take_range, Nat.min_eq_left hk, intValue_range]

theorem intValue_intBytes {n : ℕ} (hn : n < 256 ^ 4) : intValue (intBytes n) = n := by
  have htake := intValue_take (n := n) (le_refl 4)
  rw [Nat.mod_eq_of_lt hn] at htake
  exact htake

theorem zeroTerminated_length (text : Text) : (zeroTerminated text).length = text.length + 1 := by
  simp [zeroTerminated]

theorem SentText.length_lt_int (s : SentText) : s.text.length + 1 < 256 ^ 4 :=
  s.length_lt.trans (by norm_num)

theorem SentText.sent_eq (s : SentText) :
    s.sent = intBytes (s.text.length + 1) ++ zeroTerminated s.text := by
  rw [sent, envelope, zeroTerminated_length]

/-! ### The server -/

/-- However the segments come, and whatever comes behind them. -/
theorem receiveRequest_sent (s : SentText) {more : List Byte} {segments : List (List Byte)}
    (h : Segmented (s.sent ++ more) segments) :
    (receiveRequest segments).1 = .request (zeroTerminated s.text) ∧
      Segmented more (receiveRequest segments).2 := by
  rw [s.sent_eq, List.append_assoc] at h
  obtain ⟨hhead, hrest⟩ := h.recvAll 4
  rw [List.take_left' (intBytes_length _)] at hhead
  rw [List.drop_left' (intBytes_length _)] at hrest
  obtain ⟨hdata, hmore⟩ := hrest.recvAll (s.text.length + 1)
  rw [List.take_left' (zeroTerminated_length _)] at hdata
  rw [List.drop_left' (zeroTerminated_length _)] at hmore
  have hvalue : intValue (recvAll 4 segments).1 = s.text.length + 1 := by
    rw [hhead, intValue_intBytes s.length_lt_int]
  rw [receiveRequest]
  simp only [hvalue]
  rw [if_pos (by rw [hhead]; rfl), if_pos s.length_lt, hdata, if_pos (zeroTerminated_length _)]
  exact ⟨rfl, hmore⟩

theorem cmdLineObtained (s : SentText) {segments : List (List Byte)}
    (h : Segmented s.sent segments) : CmdLineObtained s segments := by
  rw [← List.append_nil s.sent] at h
  exact ⟨_, (receiveRequest_sent s h).1, cString_bytes s.byte⟩

/-! ### The client -/

theorem cString_length_le (memory : List Byte) : (cString memory).length ≤ memory.length := by
  rw [cString, List.length_map]
  exact (List.takeWhile_prefix _).length_le

theorem cString_zero (memory : List Byte) : cString (0 :: memory) = [] := rfl

/-- A read that begins with a zero byte gives the empty text. -/
theorem cString_recv_zero {rest : List Byte} {segments : List (List Byte)} {n : ℕ} (hn : 0 < n)
    (h : Segmented (0 :: rest) segments) (beyond : List Byte) :
    cString ((recv n segments).1 ++ beyond) = [] := by
  obtain ⟨k, -, hpos, -, htake, -⟩ := h.recv n
  obtain ⟨k, rfl⟩ := Nat.exists_eq_succ_of_ne_zero (hpos hn (by simp)).ne'
  rw [htake, List.take_succ_cons, List.cons_append, cString_zero]

/-- The first `k` bytes of a length over those of another. -/
theorem intValue_overwritten {n m k : ℕ} (hk : k ≤ 4) :
    intValue ((intBytes n).take k ++ (intBytes m).drop k) =
      n % 256 ^ k + 256 ^ k * intValue ((intBytes m).drop k) := by
  rw [intValue_append, intValue_take hk, List.length_take, intBytes_length, Nat.min_eq_left hk]

theorem intValue_drop_zero (k : ℕ) : intValue ((intBytes 0).drop k) = 0 := by
  rw [show intBytes 0 = List.replicate 4 0 from rfl, List.drop_replicate, intValue, List.map_replicate]
  exact Nat.ofDigits_replicate_zero

/-- The read of the length: how many bytes of it come. -/
theorem SentText.recv_length (s : SentText) {segments : List (List Byte)}
    (h : Segmented s.sent segments) : ∃ k, 0 < k ∧ k ≤ 4 ∧ (recv 4 segments).1.length = k ∧
      (recv 4 segments).1 = (intBytes (s.text.length + 1)).take k ∧
      Segmented ((intBytes (s.text.length + 1)).drop k ++ zeroTerminated s.text)
        (recv 4 segments).2 := by
  rw [s.sent_eq] at h
  obtain ⟨k, hk, hpos, -, htake, hdrop⟩ := h.recv 4
  rw [List.take_append_of_le_length hk] at htake
  rw [List.drop_append_of_le_length hk] at hdrop
  refine ⟨k, hpos (by omega) (by simp [zeroTerminated]), hk, ?_, htake, hdrop⟩
  rw [htake, List.length_take, intBytes_length, Nat.min_eq_left hk]

theorem printReply_eq {segments : List (List Byte)} {n k : ℕ} (hk : k ≤ 4)
    (hlength : (recv 4 segments).1.length = k) (htake : (recv 4 segments).1 = (intBytes n).take k)
    (length : ℕ) (beyond : List Byte) :
    printReply length beyond segments =
      if 0 < n % 256 ^ k + 256 ^ k * intValue ((intBytes length).drop k) then
        cString ((recv (n % 256 ^ k + 256 ^ k * intValue ((intBytes length).drop k))
          (recv 4 segments).2).1 ++ beyond)
      else [] := by
  have hvalue : intValue ((recv 4 segments).1 ++
      (intBytes length).drop (recv 4 segments).1.length) =
        n % 256 ^ k + 256 ^ k * intValue ((intBytes length).drop k) := by
    rw [hlength, htake, intValue_overwritten hk]
  rw [printReply]
  simp only [hvalue]

/-- The rest of a length below `256 ^ k` begins with a zero byte. -/
theorem intBytes_drop {n k : ℕ} (hk : k < 4) (hn : n < 256 ^ k) :
    ∃ rest, (intBytes n).drop k = 0 :: rest := by
  have hlt : k < (intBytes n).length := hk
  refine ⟨(intBytes n).drop (k + 1), ?_⟩
  rw [List.drop_eq_getElem_cons hlt]
  simp [intBytes, Nat.div_eq_of_lt hn]

/-- Only the empty reply is printed if a part of its length is left behind. -/
theorem ReplyPrinted.nil_of_short {s : SentText} {segments : List (List Byte)}
    (h : Segmented s.sent segments) (hprinted : ReplyPrinted s segments)
    (hshort : (recv 4 segments).1.length < 4) : s.text = [] := by
  obtain ⟨k, hpos, hk, hlength, htake, hdrop⟩ := s.recv_length h
  rw [hlength] at hshort
  have hprint := hprinted 0 []
  rw [printReply_eq hk hlength htake, intValue_drop_zero, Nat.mul_zero, Nat.add_zero,
    List.append_nil] at hprint
  split at hprint
  next hn =>
    by_cases hsmall : s.text.length + 1 < 256 ^ k
    · obtain ⟨rest, hrest⟩ := intBytes_drop hshort hsmall
      rw [hrest] at hdrop
      have hnil := cString_recv_zero hn hdrop []
      rw [List.append_nil] at hnil
      rw [← hprint, hnil]
    · -- fewer bytes are read than the reply has
      have hle : s.text.length ≤ (s.text.length + 1) % 256 ^ k := by
        obtain ⟨j, hj, -, -, hread, -⟩ := hdrop.recv ((s.text.length + 1) % 256 ^ k)
        calc s.text.length = _ := congrArg List.length hprint.symm
          _ ≤ _ := cString_length_le _
          _ ≤ j := by
            rw [hread, List.length_take]
            exact Nat.min_le_left _ _
          _ ≤ _ := hj
      have hpow : 256 ^ 1 ≤ 256 ^ k := Nat.pow_le_pow_right (by omega) hpos
      have hmod := Nat.mod_add_div (s.text.length + 1) (256 ^ k)
      have hdiv : 1 ≤ (s.text.length + 1) / 256 ^ k :=
        (Nat.one_le_div_iff (by omega)).mpr (by omega)
      have hmul : 256 ^ k * 1 ≤ 256 ^ k * ((s.text.length + 1) / 256 ^ k) :=
        Nat.mul_le_mul_left _ hdiv
      omega
  next => exact hprint.symm

/-- The whole length has come: then the whole reply has to come. -/
theorem ReplyPrinted.comesWhole_of_length {s : SentText} {segments : List (List Byte)}
    (h : Segmented s.sent segments) (hprinted : ReplyPrinted s segments)
    (hwhole : (recv 4 segments).1.length = 4) : ComesWhole s segments := by
  obtain ⟨k, -, hk, hlength, htake, hdrop⟩ := s.recv_length h
  obtain rfl : k = 4 := hlength.symm.trans hwhole
  have hvalue : (s.text.length + 1) % 256 ^ 4 = s.text.length + 1 :=
    Nat.mod_eq_of_lt s.length_lt_int
  have hrest : ∀ length, (intBytes length).drop 4 = [] := fun _ => rfl
  rw [hrest, List.nil_append] at hdrop
  refine ⟨hwhole, ?_⟩
  obtain ⟨j, hj, -, hjlength, hread, -⟩ := hdrop.recv (s.text.length + 1)
  rw [hread, List.length_take, Nat.min_eq_left hjlength]
  by_contra hne
  -- the bytes behind those that have come are printed too
  have hprint : ∀ text : Text, (∀ c ∈ text, 0 < c.toNat ∧ c.toNat < 256) →
      s.text.take j ++ text = s.text := by
    intro text htext
    have hprint := hprinted 0 (zeroTerminated text)
    have hvalue' : (s.text.length + 1) % 256 ^ 4 + 256 ^ 4 * intValue ((intBytes 0).drop 4) =
        s.text.length + 1 := by
      rw [hvalue, hrest]
      rfl
    rw [printReply_eq hk hlength htake, hvalue', if_pos (by omega), hread, zeroTerminated,
      List.take_append_of_le_length (by rw [List.length_map]; omega), ← List.map_take,
      zeroTerminated, ← List.append_assoc, ← List.map_append, ← List.append_nil (_ ++ [0])] at hprint
    have hbytes : ∀ c ∈ s.text.take j ++ text, 0 < c.toNat ∧ c.toNat < 256 := by
      intro c hc
      rcases List.mem_append.mp hc with hc | hc
      · exact s.byte c (List.mem_of_mem_take hc)
      · exact htext c hc
    exact (cString_bytes hbytes []).symm.trans hprint
  have hnone := congrArg List.length (hprint [] (by simp))
  have hone := congrArg List.length (hprint ['a'] (by simp))
  rw [List.length_append] at hnone hone
  simp only [List.length_nil, List.length_singleton] at hnone hone
  omega

theorem ComesWhole.replyPrinted {s : SentText} {segments : List (List Byte)}
    (h : Segmented s.sent segments) (hwhole : ComesWhole s segments) : ReplyPrinted s segments := by
  intro length beyond
  obtain ⟨hhead, hbody⟩ := hwhole
  obtain ⟨k, -, hk, hlength, htake, hdrop⟩ := s.recv_length h
  obtain rfl : k = 4 := hlength.symm.trans hhead
  have hvalue : (s.text.length + 1) % 256 ^ 4 + 256 ^ 4 * intValue ((intBytes length).drop 4) =
      s.text.length + 1 := by
    rw [Nat.mod_eq_of_lt s.length_lt_int]
    rfl
  have hcontent : Segmented (zeroTerminated s.text) (recv 4 segments).2 := hdrop
  obtain ⟨j, -, -, hj, hread, -⟩ := hcontent.recv (s.text.length + 1)
  rw [hread, List.length_take, Nat.min_eq_left hj] at hbody
  rw [printReply_eq hk hlength htake, hvalue, if_pos (by omega), hread, hbody,
    List.take_of_length_le (zeroTerminated_length _).le]
  exact cString_bytes s.byte beyond

/-- The empty reply is printed anyway: its first bytes behind the length are zero. -/
theorem replyPrinted_nil {s : SentText} {segments : List (List Byte)}
    (h : Segmented s.sent segments) (hnil : s.text = []) : ReplyPrinted s segments := by
  intro length beyond
  obtain ⟨k, hpos, hk, hlength, htake, hdrop⟩ := s.recv_length h
  rw [hnil] at htake hdrop
  have hsmall : 1 < 256 ^ k := Nat.one_lt_pow hpos.ne' (by omega)
  have hzero : ∃ rest, (intBytes 1).drop k ++ zeroTerminated [] = 0 :: rest := by
    rcases hk.lt_or_eq with hshort | rfl
    · obtain ⟨rest, hrest⟩ := intBytes_drop hshort hsmall
      exact ⟨rest ++ zeroTerminated [], by rw [hrest, List.cons_append]⟩
    · exact ⟨[], rfl⟩
  obtain ⟨rest, hrest⟩ := hzero
  rw [show ([] : Text).length + 1 = 1 from rfl] at htake hdrop
  rw [hrest] at hdrop
  rw [printReply_eq hk hlength htake, hnil]
  split
  next hn => exact cString_recv_zero hn hdrop beyond
  next => rfl

/-- The command line and the reply come over, however the stream is segmented, exactly if the client
gets the length and the text of the reply whole; the empty reply comes anyway. -/
theorem socket_framing_iff (cmdLine reply : SentText) {request response : List (List Byte)}
    (hrequest : Segmented cmdLine.sent request) (hresponse : Segmented reply.sent response) :
    CmdLineObtained cmdLine request ∧ ReplyPrinted reply response ↔
      reply.text = [] ∨ ComesWhole reply response := by
  constructor
  · rintro ⟨-, hprinted⟩
    obtain ⟨k, -, hk, hlength, -, -⟩ := reply.recv_length hresponse
    rcases hk.lt_or_eq with hshort | hwhole
    · exact .inl (hprinted.nil_of_short hresponse (hlength.trans_lt hshort))
    · exact .inr (hprinted.comesWhole_of_length hresponse (hlength.trans hwhole))
  · rintro (hnil | hwhole)
    · exact ⟨cmdLineObtained cmdLine hrequest, replyPrinted_nil hresponse hnil⟩
    · exact ⟨cmdLineObtained cmdLine hrequest, hwhole.replyPrinted hresponse⟩

def okReply : SentText where
  text := ['0', ';', 'O', 'K']
  byte := by simp
  length_lt := by decide

theorem okReply_segmented (n : ℕ) (hn : 0 < n) (hlt : n < 9) :
    Segmented okReply.sent [okReply.sent.take n, okReply.sent.drop n] := by
  have hlength : okReply.sent.length = 9 := rfl
  constructor
  · simp
  · intro segment hsegment
    rw [← List.length_pos_iff]
    rcases List.mem_cons.mp hsegment with rfl | hsegment
    · rw [List.length_take]
      omega
    · rw [List.mem_singleton.mp hsegment, List.length_drop]
      omega

/-- The length comes first, and then the text. -/
theorem socket_framing_iff_ok : CmdLineObtained okReply [okReply.sent.take 6, okReply.sent.drop 6] ∧
    ReplyPrinted okReply [okReply.sent.take 4, okReply.sent.drop 4] :=
  (socket_framing_iff okReply okReply (okReply_segmented 6 (by omega) (by omega))
    (okReply_segmented 4 (by omega) (by omega))).mpr (.inr ⟨by decide, by decide⟩)

/-- A single byte of the length comes first. -/
theorem socket_framing_false : ¬∀ (cmdLine reply : SentText) (request response : List (List Byte)),
    Segmented cmdLine.sent request → Segmented reply.sent response →
      CmdLineObtained cmdLine request ∧ ReplyPrinted reply response := by
  intro hall
  have hsegmented := okReply_segmented 1 (by omega) (by omega)
  have hprinted := (hall okReply okReply _ _ hsegmented hsegmented).2
  have hnil := hprinted.nil_of_short hsegmented (by decide)
  cases hnil

end Ritex
