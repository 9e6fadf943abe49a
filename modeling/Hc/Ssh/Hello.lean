import Mathlib.Data.Nat.Find
import Hc.Foundation.Bytes
import Hc.Foundation.Mirror
import Hc.Core.Util

/-!
# The identification of the SSH server

`_client_doHello` of `hc/examples/ssh/client.c`. The data of a call of `recvfrom` is stored at the
position of the scan, which stops in front of the last byte received. So the second call overwrites
the last byte of the first one, and a line that arrives in parts loses it.
-/

namespace Hc.Ssh

/-- What `_client_doHello` leaves when it succeeds: what it adds to `partialExchangeHash`, the
fields of the circular buffer, and the data that was not received yet. -/
structure Accepted where
  hashed : List UInt8
  buffer : ℕ → UInt8
  bufferPos : ℕ
  receivedSize : ℕ
  rest : List (List UInt8)

/-- The bytes from `bufferPos` on. -/
def Accepted.buffered (bufferSize : ℕ) (accepted : Accepted) : List UInt8 :=
  Mirror.read bufferSize accepted.buffer accepted.bufferPos accepted.receivedSize

/-- How `_client_doHello` ends. -/
inductive Hello where
  | failed (status : ℤ)
  | ok (accepted : Accepted)

/-- The scan for the end of the line from `pos` on, for `fuel` bytes at most: whether a CR was
found, and the position. -/
def scanLoop (bufferSize : ℕ) (buffer : ℕ → UInt8) (last : ℕ) : ℕ → ℕ → Bool × ℕ
  | 0, pos => (false, pos)
  | fuel + 1, pos =>
    if pos + 1 < last then
      if buffer (pos % bufferSize) = 13 then (true, pos)
      else scanLoop bufferSize buffer last fuel (pos + 1)
    else (false, pos)

/-- What follows a CR at `pos`. -/
def onCr (bufferSize : ℕ) (buffer : ℕ → UInt8) (pos received : ℕ) (rest : List (List UInt8)) :
    Hello :=
  if buffer ((pos + 1) % bufferSize) ≠ 10 then .failed (-3)
  else if pos < 8 ∨ memCompare (Mirror.read bufferSize buffer 0 8) (ascii "SSH-2.0-") ≠ 0 then
    .failed (-4)
  else
    let hashed := beBytes 4 pos ++ Mirror.read bufferSize buffer 0 pos
    let receivedSize := received - (pos + 2)
    -- Align buffer position to 4 bytes.
    let bufferPos := alignForward (pos + 2) 4
    if bufferPos ≠ pos + 2 then
      let moved := Mirror.write bufferSize buffer bufferPos
        (Mirror.read bufferSize buffer (pos + 2) receivedSize)
      .ok ⟨hashed, moved, bufferPos, receivedSize, rest⟩
    else .ok ⟨hashed, buffer, bufferPos, receivedSize, rest⟩

/-- The loop of `_client_doHello` over the calls of `recvfrom`, with the data of each; when there
are no more, the result is not positive. -/
def helloLoop (bufferSize : ℕ) : List (List UInt8) → (ℕ → UInt8) → ℕ → ℕ → Hello
  | [], _, _, _ => .failed (-2)
  | data :: reads, buffer, pos, received =>
    if data.length ≤ 0 then .failed (-2)
    else
      let buffer := Mirror.write bufferSize buffer pos data
      let received := received + data.length
      let last := if received > 255 then 255 else received
      match scanLoop bufferSize buffer last last pos with
      | (true, pos) => onCr bufferSize buffer pos received reads
      | (false, pos) => helloLoop bufferSize reads buffer pos received

/-- `_client_doHello` behind the first lines, with a buffer that is new. -/
def doHello (bufferSize : ℕ) (reads : List (List UInt8)) : Hello :=
  helloLoop bufferSize reads (fun _ => 0) 0 0

/-- The calls of `recvfrom` up to the last one with a positive result; none returns more than fits
in the buffer. -/
structure Reads (bufferSize : ℕ) where
  reads : List (List UInt8)
  positive : ∀ data ∈ reads, data ≠ []
  fits : reads.flatten.length ≤ bufferSize

/-- Both fail, or both succeed with the same identification and the same bytes behind it; those that
one has not received yet may be in the buffer of the other. -/
def Hello.Same (bufferSize : ℕ) : Hello → Hello → Prop
  | .failed _, .failed _ => True
  | .ok accepted, .ok accepted' =>
    accepted.hashed = accepted'.hashed ∧
      accepted.buffered bufferSize ++ accepted.rest.flatten =
        accepted'.buffered bufferSize ++ accepted'.rest.flatten
  | _, _ => False

/-! ## Lines -/

/-- The scan of the bytes received ends with a CR at an index. -/
def Decides (bytes : List UInt8) (i : ℕ) : Prop :=
  i + 1 < min bytes.length 255 ∧ byteAt bytes i = 13 ∧ ∀ j < i, byteAt bytes j ≠ 13

/-- The bytes begin with an identification that ends with CR and LF at an index. -/
def IsLine (bytes : List UInt8) (i : ℕ) : Prop :=
  Decides bytes i ∧ byteAt bytes (i + 1) = 10 ∧ 8 ≤ i ∧ bytes.take 8 = ascii "SSH-2.0-"

variable {bufferSize : ℕ} {buffer : ℕ → UInt8} {bytes : List UInt8} {i : ℕ}

theorem Decides.unique {j : ℕ} (hi : Decides bytes i) (hj : Decides bytes j) : i = j := by
  rcases lt_trichotomy i j with hlt | heq | hgt
  · exact absurd hi.2.1 (hj.2.2 i hlt)
  · exact heq
  · exact absurd hj.2.1 (hi.2.2 j hgt)

/-- A CR in the part that is scanned decides. -/
theorem exists_decides (hi : i + 1 < min bytes.length 255) (hcr : byteAt bytes i = 13) :
    ∃ j, Decides bytes j := by
  have hex : ∃ j, byteAt bytes j = 13 := ⟨i, hcr⟩
  have hle := Nat.find_min' hex hcr
  exact ⟨Nat.find hex, by omega, Nat.find_spec hex, fun j hj => Nat.find_min hex hj⟩

/-- What follows the line makes no difference. -/
theorem decides_append (more : List UInt8) (h : Decides bytes i) : Decides (bytes ++ more) i := by
  obtain ⟨hend, hcr, hbefore⟩ := h
  refine ⟨by rw [List.length_append]; omega, ?_, fun j hj => ?_⟩
  · rw [byteAt_append_left more (by omega), hcr]
  · rw [byteAt_append_left more (by omega)]
    exact hbefore j hj

theorem isLine_append_iff (more : List UInt8) (h : Decides bytes i) :
    IsLine (bytes ++ more) i ↔ IsLine bytes i := by
  have hend := h.1
  have hnext : byteAt (bytes ++ more) (i + 1) = byteAt bytes (i + 1) :=
    byteAt_append_left more (by omega)
  constructor
  · rintro ⟨-, hlf, hlong, htake⟩
    rw [List.take_append_of_le_length (by omega)] at htake
    exact ⟨h, hnext ▸ hlf, hlong, htake⟩
  · rintro ⟨-, hlf, hlong, htake⟩
    refine ⟨decides_append more h, hnext.trans hlf, hlong, ?_⟩
    rw [List.take_append_of_le_length (by omega), htake]

/-! ## One call of `recvfrom` -/

/-- The buffer begins with the given bytes, and has only zeros behind them. -/
structure Holds (bufferSize : ℕ) (buffer : ℕ → UInt8) (content : List UInt8) : Prop where
  length_le : content.length ≤ bufferSize
  read_eq : Mirror.read bufferSize buffer 0 bufferSize =
    content ++ .replicate (bufferSize - content.length) 0

theorem holds_nil : Holds bufferSize (fun _ => 0) [] := by
  refine ⟨Nat.zero_le _, ?_⟩
  suffices hzeros : ∀ address n, Mirror.read bufferSize (fun _ => (0 : UInt8)) address n =
      .replicate n 0 from hzeros 0 bufferSize
  intro address n
  induction n generalizing address with
  | zero => rfl
  | succ n ih => rw [Mirror.read, ih, List.replicate_succ]

theorem Holds.write {content data : List UInt8} (h : Holds bufferSize buffer content) {pos : ℕ}
    (hpos : pos ≤ content.length) (hcover : content.length ≤ pos + data.length)
    (hfits : pos + data.length ≤ bufferSize) :
    Holds bufferSize (Mirror.write bufferSize buffer pos data) (content.take pos ++ data) := by
  have hlength : (content.take pos ++ data).length = pos + data.length := by
    rw [List.length_append, List.length_take, min_eq_left hpos]
  refine ⟨by omega, ?_⟩
  have hread : Mirror.read bufferSize (Mirror.write bufferSize buffer (0 + pos) data) 0
      bufferSize = _ :=
    Mirror.read_write 0 hfits le_rfl
  rw [Nat.zero_add, h.read_eq, List.take_append_of_le_length hpos, List.drop_append,
    List.drop_of_length_le hcover, List.nil_append, List.drop_replicate] at hread
  rw [hread, hlength]
  congr 2
  omega

theorem Holds.read {content : List UInt8} (h : Holds bufferSize buffer content) {n : ℕ}
    (hcontent : content.length ≤ n) (hn : n ≤ bufferSize) :
    Mirror.read bufferSize buffer 0 n = content ++ .replicate (n - content.length) 0 := by
  rw [← Mirror.take_read 0 hn, h.read_eq, List.take_append, List.take_of_length_le hcontent,
    List.take_replicate, min_eq_left (by omega)]

/-- The scan ends at the first CR, or in front of the last byte that it may see. -/
theorem scanLoop_eq {received fuel pos : ℕ}
    (hbytes : Mirror.read bufferSize buffer 0 received = bytes) (hpos : pos + 1 ≤ min received 255)
    (hbefore : ∀ j < pos, byteAt bytes j ≠ 13) (hfuel : min received 255 ≤ pos + fuel) :
    (∃ i, Decides bytes i ∧ scanLoop bufferSize buffer (min received 255) fuel pos = (true, i)) ∨
      (∀ i, ¬Decides bytes i) ∧
        scanLoop bufferSize buffer (min received 255) fuel pos = (false, min received 255 - 1) := by
  have hlength : bytes.length = received := by rw [← hbytes, Mirror.length_read]
  induction fuel generalizing pos with
  | zero => omega
  | succ fuel ih =>
      unfold scanLoop
      split
      next hlt =>
        have hbyte : buffer (pos % bufferSize) = byteAt bytes pos := by
          rw [byteAt, ← hbytes, Mirror.getD_read 0 0 (by omega), Nat.zero_add]
        split
        next hcr => exact .inl ⟨pos, ⟨by omega, by rw [← hbyte, hcr], hbefore⟩, rfl⟩
        next hcr =>
          refine ih (by omega) (fun j hj => ?_) (by omega)
          rcases Nat.lt_succ_iff_lt_or_eq.mp hj with hj | rfl
          · exact hbefore j hj
          · rwa [← hbyte]
      next hlast =>
        refine .inr ⟨fun i hi => ?_, by rw [show pos = min received 255 - 1 by omega]⟩
        have hend := hi.1
        exact hbefore i (by omega) hi.2.1

/-- What a CR leads to: the identification and the bytes behind the line, or a failure. -/
def Answers (bufferSize : ℕ) (bytes : List UInt8) (i : ℕ) (rest : List (List UInt8))
    (hello : Hello) :
    Prop :=
  (IsLine bytes i → ∃ accepted, hello = .ok accepted ∧
    accepted.hashed = beBytes 4 i ++ bytes.take i ∧
      accepted.buffered bufferSize = bytes.drop (i + 2) ∧ accepted.rest = rest) ∧
    (¬IsLine bytes i → ∃ status, hello = .failed status)

theorem onCr_answers {received : ℕ} (hreceived : received ≤ bufferSize)
    (hbytes : Mirror.read bufferSize buffer 0 received = bytes) (hi : Decides bytes i)
    (rest : List (List UInt8)) :
    Answers bufferSize bytes i rest (onCr bufferSize buffer i received rest) := by
  have hlength : bytes.length = received := by rw [← hbytes, Mirror.length_read]
  have hend := hi.1
  have hnext : buffer ((i + 1) % bufferSize) = byteAt bytes (i + 1) := by
    rw [byteAt, ← hbytes, Mirror.getD_read 0 0 (by omega), Nat.zero_add]
  unfold onCr
  split
  next hlf =>
    refine ⟨fun hline => ?_, fun _ => ⟨-3, rfl⟩⟩
    exact absurd (hnext.trans hline.2.1) hlf
  next hlf =>
    split
    next hprefix =>
      refine ⟨fun hline => ?_, fun _ => ⟨-4, rfl⟩⟩
      obtain ⟨-, -, hlong, htake⟩ := hline
      rw [← hbytes, Mirror.take_read 0 (by omega)] at htake
      rcases hprefix with hshort | hcompare
      · omega
      · rw [htake] at hcompare
        exact absurd (by decide) hcompare
    next hprefix =>
      obtain ⟨hlong, hcompare⟩ := not_or.mp hprefix
      rw [not_not, memCompare_eq_zero_iff (Mirror.length_read 0 8)] at hcompare
      have hline : IsLine bytes i := by
        refine ⟨hi, hnext ▸ not_not.mp hlf, by omega, ?_⟩
        rw [← hbytes, Mirror.take_read 0 (by omega), hcompare]
      refine ⟨fun _ => ?_, fun hnot => absurd hline hnot⟩
      have hhashed : Mirror.read bufferSize buffer 0 i = bytes.take i := by
        rw [← hbytes, Mirror.take_read 0 (by omega)]
      have hrest : Mirror.read bufferSize buffer (i + 2) (received - (i + 2)) =
          bytes.drop (i + 2) := by
        rw [← hbytes, Mirror.drop_read 0 (by omega), Nat.zero_add]
      have hsize : (bytes.drop (i + 2)).length = received - (i + 2) := by
        rw [List.length_drop, hlength]
      dsimp only
      rw [hhashed, hrest]
      split
      next =>
        refine ⟨_, rfl, rfl, ?_, rfl⟩
        rw [Accepted.buffered, ← hsize]
        exact Mirror.read_write_self _ (by omega)
      next haligned =>
        refine ⟨_, rfl, rfl, ?_, rfl⟩
        rw [Accepted.buffered, not_not.mp haligned, hrest]

/-- A call of `recvfrom` decides, or the loop goes on behind what it has scanned. -/
theorem helloLoop_cons {data : List UInt8} {reads : List (List UInt8)} {pos received : ℕ}
    (hdata : data ≠ []) (hfits : received + data.length ≤ bufferSize)
    (hread : Mirror.read bufferSize (Mirror.write bufferSize buffer pos data) 0
      (received + data.length) = bytes)
    (hpos : pos + 1 ≤ min (received + data.length) 255) (hbefore : ∀ j < pos, byteAt bytes j ≠ 13) :
    (∃ i, Decides bytes i ∧ Answers bufferSize bytes i reads
        (helloLoop bufferSize (data :: reads) buffer pos received)) ∨
      (∀ i, ¬Decides bytes i) ∧ helloLoop bufferSize (data :: reads) buffer pos received =
        helloLoop bufferSize reads (Mirror.write bufferSize buffer pos data)
          (min (received + data.length) 255 - 1) (received + data.length) := by
  have hpositive := List.length_pos_of_ne_nil hdata
  have hlast : (if received + data.length > 255 then 255 else received + data.length) =
      min (received + data.length) 255 := by
    split <;> omega
  rw [helloLoop, if_neg (by omega)]
  dsimp only
  rw [hlast]
  rcases scanLoop_eq hread hpos hbefore (Nat.le_add_left _ _) with ⟨i, hi, hscan⟩ | ⟨hi, hscan⟩
  · rw [hscan]
    exact .inl ⟨i, hi, onCr_answers hfits hread hi reads⟩
  · rw [hscan]
    exact .inr ⟨hi, rfl⟩

/-- After 255 bytes without a line, nothing more is scanned. -/
theorem helloLoop_full (reads : List (List UInt8)) (buffer : ℕ → UInt8) {received : ℕ}
    (hreceived : 255 ≤ received) :
    ∃ status, helloLoop bufferSize reads buffer 254 received = .failed status := by
  induction reads generalizing buffer received with
  | nil => exact ⟨-2, rfl⟩
  | cons data reads ih =>
      rw [helloLoop]
      split
      next => exact ⟨-2, rfl⟩
      next =>
        have hlast : (if received + data.length > 255 then 255 else received + data.length) =
          255 := by
          split <;> omega
        dsimp only
        rw [hlast]
        exact ih _ (by omega)

/-! ## All calls -/

/-- The first call of `recvfrom` decides, or the loop goes on with its last byte not scanned. -/
theorem doHello_cons {data : List UInt8} {reads : List (List UInt8)} (hdata : data ≠ [])
    (hfits : data.length ≤ bufferSize) :
    (∃ i, Decides data i ∧ Answers bufferSize data i reads (doHello bufferSize (data :: reads))) ∨
      (∀ i, ¬Decides data i) ∧ ∃ buffer, Holds bufferSize buffer data ∧
        doHello bufferSize (data :: reads) =
          helloLoop bufferSize reads buffer (min data.length 255 - 1) data.length := by
  have hpositive := List.length_pos_of_ne_nil hdata
  have hholds : Holds bufferSize (Mirror.write bufferSize (fun _ => 0) 0 data) data :=
    holds_nil.write le_rfl (Nat.zero_le _) (by omega)
  have hread := hholds.read le_rfl hfits
  rw [Nat.sub_self, List.replicate_zero, List.append_nil] at hread
  have hcons := @helloLoop_cons bufferSize (fun _ => 0) data data reads 0 0 hdata (by omega)
    (by rw [Nat.zero_add]; exact hread) (by omega) (fun j hj => absurd hj (Nat.not_lt_zero j))
  rw [Nat.zero_add] at hcons
  rcases hcons with hdecides | ⟨hnone, hloop⟩
  · exact .inl hdecides
  · exact .inr ⟨hnone, _, hholds, hloop⟩

/-- Behind `before`, some call of `recvfrom` delivers the end of an identification line. -/
def ShortLine (before : List UInt8) (reads : List (List UInt8)) : Prop :=
  ∃ earlier data later i, reads = earlier ++ data :: later ∧
    (before ++ earlier.flatten).length ≤ i ∧ IsLine (before ++ earlier.flatten ++ data) i

theorem shortLine_cons (before data : List UInt8) (reads : List (List UInt8)) :
    ShortLine before (data :: reads) ↔
      (∃ i, before.length ≤ i ∧ IsLine (before ++ data) i) ∨ ShortLine (before ++ data) reads := by
  constructor
  · rintro ⟨earlier, last, later, i, hreads, hlength, hline⟩
    cases earlier with
    | nil =>
        obtain ⟨rfl, -⟩ := List.cons.inj hreads
        rw [List.flatten_nil, List.append_nil] at hlength hline
        exact .inl ⟨i, hlength, hline⟩
    | cons first earlier =>
        obtain ⟨rfl, rfl⟩ := List.cons.inj hreads
        rw [List.flatten_cons, ← List.append_assoc] at hlength hline
        exact .inr ⟨earlier, last, later, i, rfl, hlength, hline⟩
  · rintro (⟨i, hlength, hline⟩ | ⟨earlier, last, later, i, rfl, hlength, hline⟩)
    · exact ⟨[], data, reads, i, rfl, by simpa using hlength, by simpa using hline⟩
    · refine ⟨data :: earlier, last, later, i, rfl, ?_, ?_⟩
      · rwa [List.flatten_cons, ← List.append_assoc]
      · rwa [List.flatten_cons, ← List.append_assoc]

theorem decides_of_append_zero {before data : List UInt8}
    (hbefore : ∀ j < before.length, byteAt before j ≠ 13)
    (h : Decides (before ++ data ++ [0]) i) :
    before.length ≤ i ∧ i < (before ++ data).length ∧ byteAt (before ++ data) i = 13 ∧
      ∀ j < i, byteAt (before ++ data) j ≠ 13 := by
  obtain ⟨hend, hcr, hfirst⟩ := h
  have hlt : i < (before ++ data).length := by
    rw [List.length_append] at hend
    have hle : i ≤ (before ++ data).length := by
      rw [List.length_singleton] at hend
      omega
    refine lt_of_le_of_ne hle fun heq => ?_
    rw [heq, byteAt_append_right _ le_rfl, Nat.sub_self] at hcr
    exact absurd hcr (by decide)
  have hbyte : byteAt (before ++ data) i = 13 := by rw [← byteAt_append_left [0] hlt, hcr]
  refine ⟨?_, hlt, hbyte, fun j hj => ?_⟩
  · by_contra hless
    rw [byteAt_append_left data (not_le.mp hless)] at hbyte
    exact hbefore i (not_le.mp hless) hbyte
  · rw [← byteAt_append_left [0] (hj.trans hlt)]
    exact hfirst j hj

/-- A zero behind the bytes does not end a line. -/
theorem isLine_append_zero_iff : IsLine (bytes ++ [0]) i ↔ IsLine bytes i := by
  constructor
  · intro h
    obtain ⟨⟨hend, hcr, hfirst⟩, hlf, hlong, htake⟩ := h
    have hlt : i + 1 < bytes.length := by
      by_contra hge
      rw [List.length_append, List.length_singleton] at hend
      rw [show i + 1 = bytes.length by omega, byteAt_append_right _ le_rfl, Nat.sub_self] at hlf
      exact absurd hlf (by decide)
    rw [List.length_append] at hend
    rw [byteAt_append_left _ hlt] at hlf
    rw [byteAt_append_left _ (by omega)] at hcr
    rw [List.take_append_of_le_length (by omega)] at htake
    refine ⟨⟨by omega, hcr, fun j hj => ?_⟩, hlf, hlong, htake⟩
    rw [← byteAt_append_left [0] (by omega)]
    exact hfirst j hj
  · intro h
    exact (isLine_append_iff [0] h.1).mpr h

/-- What becomes of the calls behind `before`: they fail, or they succeed with the line that the
bytes have; they succeed exactly if some call delivers the end of one. -/
def Outcome (before : List UInt8) (reads : List (List UInt8)) (hello : Hello) : Prop :=
  (∃ status, hello = .failed status) ∧ ¬ShortLine before reads ∨
    ∃ accepted i, hello = .ok accepted ∧ IsLine (before ++ reads.flatten) i ∧
      accepted.hashed = beBytes 4 i ++ (before ++ reads.flatten).take i ∧ ShortLine before reads

section Outcome

variable {before data : List UInt8} {reads : List (List UInt8)} {hello : Hello}

/-- A call that decides. -/
theorem outcome_of_answers (hbefore : ∀ j < before.length, byteAt before j ≠ 13)
    (hi : Decides (before ++ data ++ [0]) i)
    (hanswers : Answers bufferSize (before ++ data ++ [0]) i reads hello) :
    Outcome before (data :: reads) hello := by
  obtain ⟨hle, hlt, hcr, hfirst⟩ := decides_of_append_zero hbefore hi
  rw [Outcome, shortLine_cons]
  by_cases hline : IsLine (before ++ data ++ [0]) i
  · obtain ⟨accepted, hok, hhashed, -, -⟩ := hanswers.1 hline
    have hshort := isLine_append_zero_iff.mp hline
    refine .inr ⟨accepted, i, hok, ?_, ?_, .inl ⟨i, hle, hshort⟩⟩
    · rw [List.flatten_cons, ← List.append_assoc]
      exact (isLine_append_iff _ hshort.1).mpr hshort
    · rw [hhashed, List.flatten_cons, ← List.append_assoc, List.take_append_of_le_length hlt.le,
        List.take_append_of_le_length hlt.le]
  · refine .inl ⟨hanswers.2 hline, ?_⟩
    rintro (⟨j, -, hj⟩ | ⟨earlier, more, later, j, -, hj, hother⟩)
    · have heq := hi.unique (isLine_append_zero_iff.mpr hj).1
      rw [← heq, ← isLine_append_zero_iff] at hj
      exact hline hj
    · -- A later line would begin behind the CR.
      rw [List.length_append] at hj
      refine hother.1.2.2 i (by omega) ?_
      rw [List.append_assoc, byteAt_append_left _ hlt, hcr]

/-- A call that has no CR. -/
theorem outcome_cons (hnone : ∀ j < (before ++ data).length, byteAt (before ++ data) j ≠ 13)
    (h : Outcome (before ++ data) reads hello) : Outcome before (data :: reads) hello := by
  rw [Outcome, shortLine_cons]
  rcases h with ⟨hfailed, hnot⟩ | ⟨accepted, i, hok, hline, hhashed, hshortLine⟩
  · refine .inl ⟨hfailed, not_or.mpr ⟨?_, hnot⟩⟩
    rintro ⟨i, -, hline⟩
    have hend := hline.1.1
    exact hnone i (by omega) hline.1.2.1
  · rw [List.append_assoc] at hline hhashed
    exact .inr ⟨accepted, i, hok, hline, hhashed, .inr hshortLine⟩

/-- No line begins behind the first 255 bytes. -/
theorem not_shortLine_of_long (hlong : 254 ≤ before.length) : ¬ShortLine before reads := by
  rintro ⟨earlier, data, later, i, -, hi, hline⟩
  have hend := hline.1.1
  rw [List.length_append] at hi
  omega

/-- A call that fills the part that is scanned, without a CR in it. -/
theorem outcome_of_full (hundecided : ∀ i, ¬Decides (before ++ data ++ [0]) i)
    (hfull : 254 ≤ (before ++ data).length) (hfailed : ∃ status, hello = .failed status) :
    Outcome before (data :: reads) hello := by
  rw [Outcome, shortLine_cons]
  refine .inl ⟨hfailed, not_or.mpr ⟨?_, not_shortLine_of_long hfull⟩⟩
  rintro ⟨i, -, hline⟩
  exact hundecided i (decides_append [0] hline.1)

end Outcome

/-- After a first call that has not decided, the loop reads the stream without the byte that was not
scanned. -/
theorem helloLoop_short {reads : List (List UInt8)} {before last : List UInt8}
    (hpositive : ∀ data ∈ reads, data ≠ []) (hlast : last.length ≤ 1)
    (hholds : Holds bufferSize buffer (before ++ last))
    (hfits : before.length + 1 + reads.flatten.length ≤ bufferSize) (hshort : before.length ≤ 254)
    (hbefore : ∀ j < before.length, byteAt before j ≠ 13) :
    Outcome before reads (helloLoop bufferSize reads buffer before.length (before.length + 1)) := by
  induction reads generalizing buffer before last with
  | nil =>
      refine .inl ⟨⟨-2, rfl⟩, ?_⟩
      rintro ⟨earlier, data, later, i, hreads, -⟩
      exact absurd hreads.symm (by simp)
  | cons data reads ih =>
      have hdata := hpositive data List.mem_cons_self
      have hcount := List.length_pos_of_ne_nil hdata
      rw [List.flatten_cons, List.length_append] at hfits
      -- The data is stored behind `before`, over the byte that was not scanned.
      have hwritten : Holds bufferSize (Mirror.write bufferSize buffer before.length data)
          (before ++ data) := by
        have h := @Holds.write _ _ _ data hholds before.length (by simp)
          (by rw [List.length_append]; omega) (by omega)
        rwa [List.take_left] at h
      have hlength : (before ++ data).length = before.length + data.length := List.length_append
      have hread := @Holds.read _ _ _ hwritten (before.length + 1 + data.length) (by omega)
        (by omega)
      rw [show before.length + 1 + data.length - (before ++ data).length = 1 by omega,
        List.replicate_one] at hread
      have hnone : ∀ j < before.length, byteAt (before ++ data ++ [0]) j ≠ 13 := by
        intro j hj
        rw [List.append_assoc, byteAt_append_left _ hj]
        exact hbefore j hj
      rcases @helloLoop_cons bufferSize buffer _ data reads before.length (before.length + 1) hdata
        (by omega) hread (by omega) hnone with ⟨i, hi, hanswers⟩ | ⟨hundecided, hloop⟩
      · exact outcome_of_answers hbefore hi hanswers
      · rw [hloop]
        by_cases hfull : before.length + 1 + data.length ≤ 255
        · have hall : ∀ j < (before ++ data).length, byteAt (before ++ data) j ≠ 13 := by
            intro j hj hcr
            obtain ⟨k, hk⟩ : ∃ k, Decides (before ++ data ++ [0]) k :=
              exists_decides (i := j) (by rw [List.length_append, List.length_singleton]; omega)
                (by rw [byteAt_append_left _ hj, hcr])
            exact hundecided k hk
          have hnext := @ih _ (before ++ data) []
            (fun d hd => hpositive d (List.mem_cons_of_mem _ hd))
            (Nat.zero_le 1) (by rwa [List.append_nil]) (by omega) (by omega) hall
          rw [show min (before.length + 1 + data.length) 255 - 1 = (before ++ data).length by omega,
            show before.length + 1 + data.length = (before ++ data).length + 1 by omega]
          exact outcome_cons hall hnext
        · rw [show min (before.length + 1 + data.length) 255 - 1 = 254 by omega]
          exact outcome_of_full hundecided (by omega) (helloLoop_full _ _ (by omega))

/-- The call with all bytes at once. -/
theorem doHello_singleton {bytes : List UInt8} (hfits : bytes.length ≤ bufferSize) :
    (∃ i, Decides bytes i ∧ Answers bufferSize bytes i [] (doHello bufferSize [bytes])) ∨
      (∀ i, ¬Decides bytes i) ∧ ∃ status, doHello bufferSize [bytes] = .failed status := by
  by_cases hnil : bytes = []
  · refine .inr ⟨fun i hi => ?_, -2, ?_⟩
    · have hend := hi.1
      rw [hnil, List.length_nil] at hend
      omega
    · rw [hnil]
      rfl
  · rcases doHello_cons hnil hfits with hdecides | ⟨hnone, buffer, -, hloop⟩
    · exact .inl hdecides
    · exact .inr ⟨hnone, -2, hloop⟩

theorem exists_decides_of_short {data more : List UInt8} {i : ℕ} (hline : IsLine (data ++ more) i)
    (hi : i + 1 < data.length) : Decides data i := by
  obtain ⟨⟨hend, hcr, hfirst⟩, -⟩ := hline
  refine ⟨by omega, by rw [← byteAt_append_left more (by omega), hcr], fun j hj => ?_⟩
  rw [← byteAt_append_left more (by omega)]
  exact hfirst j hj

/-- What the first call decides, the call with all bytes decides in the same way. -/
theorem same_of_answers {data more : List UInt8} {rest : List (List UInt8)} {i : ℕ}
    {hello hello' : Hello}
    (hi : Decides data i) (h : Answers bufferSize data i rest hello)
    (h' : Answers bufferSize (data ++ more) i [] hello') (hmore : rest.flatten = more) :
    hello.Same bufferSize hello' := by
  have hend := hi.1
  by_cases hline : IsLine data i
  · obtain ⟨accepted, rfl, hhashed, hbuffered, hrest⟩ := h.1 hline
    obtain ⟨accepted', rfl, hhashed', hbuffered', hrest'⟩ := h'.1
      ((isLine_append_iff more hi).mpr hline)
    refine ⟨?_, ?_⟩
    · rw [hhashed, hhashed', List.take_append_of_le_length (by omega)]
    · rw [hbuffered, hbuffered', hrest, hrest', hmore, List.flatten_nil, List.append_nil,
        List.drop_append_of_le_length (by omega)]
  · obtain ⟨status, rfl⟩ := h.2 hline
    obtain ⟨status', rfl⟩ := h'.2 fun hline' => hline ((isLine_append_iff more hi).mp hline')
    trivial

/-- Where a line does not end in the first call, it is not the one that is hashed. -/
theorem byteAt_without_last {data more : List UInt8} {i : ℕ} (hdata : data ≠ [])
    (hundecided : ∀ i, ¬Decides data i) (hline : IsLine (data ++ more) i) :
    byteAt (data.dropLast ++ more) i ≠ 13 := by
  have hpositive := List.length_pos_of_ne_nil hdata
  have hlength : data.dropLast.length = data.length - 1 := List.length_dropLast
  have hge : data.length ≤ i + 1 := by
    by_contra hlt
    exact hundecided i (exists_decides_of_short hline (not_le.mp hlt))
  have hlf := hline.2.1
  rw [byteAt_append_right _ hge] at hlf
  rw [byteAt_append_right _ (by omega),
    show i - data.dropLast.length = i + 1 - data.length by omega, hlf]
  decide

/-- What becomes of a stream whose first call has not decided. -/
theorem helloLoop_undecided {data : List UInt8} {reads : List (List UInt8)} (hdata : data ≠ [])
    (hpositive : ∀ data ∈ reads, data ≠ [])
    (hfits : data.length + reads.flatten.length ≤ bufferSize)
    (hholds : Holds bufferSize buffer data) (hundecided : ∀ i, ¬Decides data i) :
    Outcome data.dropLast reads
      (helloLoop bufferSize reads buffer (min data.length 255 - 1) data.length) := by
  have hcount := List.length_pos_of_ne_nil hdata
  have hlength : data.dropLast.length = data.length - 1 := List.length_dropLast
  have hsplit := List.dropLast_append_getLast hdata
  by_cases hlong : data.length ≤ 255
  · have hbefore : ∀ j < data.dropLast.length, byteAt data.dropLast j ≠ 13 := by
      intro j hj hcr
      rw [← byteAt_append_left [data.getLast hdata] hj, hsplit] at hcr
      obtain ⟨k, hk⟩ := exists_decides (show j + 1 < min data.length 255 by omega) hcr
      exact hundecided k hk
    rw [← hsplit] at hholds
    have hshort := helloLoop_short hpositive (le_refl 1) hholds (by omega) (by omega) hbefore
    rw [show min data.length 255 - 1 = data.dropLast.length by omega]
    rwa [show data.dropLast.length + 1 = data.length by omega] at hshort
  · rw [show min data.length 255 - 1 = 254 by omega]
    exact .inl ⟨helloLoop_full _ _ (by omega), not_shortLine_of_long (by omega)⟩

/-- Calls of which the first has not decided have the outcome of a single call exactly if there is
no line, neither for them nor in the stream. -/
theorem same_iff_of_outcome {data : List UInt8} {reads : List (List UInt8)} {hello hello' : Hello}
    (hdata : data ≠ []) (hundecided : ∀ i, ¬Decides data i)
    (hcalls : Outcome data.dropLast reads hello)
    (hone : (∃ i, Decides (data ++ reads.flatten) i ∧
        Answers bufferSize (data ++ reads.flatten) i [] hello') ∨
      (∀ i, ¬Decides (data ++ reads.flatten) i) ∧ ∃ status, hello' = .failed status) :
    hello.Same bufferSize hello' ↔
      (¬∃ i, IsLine (data ++ reads.flatten) i) ∧ ¬ShortLine data.dropLast reads := by
  by_cases hline : ∃ i, IsLine (data ++ reads.flatten) i
  · -- The CR is at another place than in the stream.
    obtain ⟨i, hline⟩ := hline
    have hne := byteAt_without_last hdata hundecided hline
    refine iff_of_false (fun hsame => ?_) fun h => h.1 ⟨i, hline⟩
    rcases hone with ⟨j, hj, hanswers⟩ | ⟨hnone, -⟩
    · obtain rfl := hj.unique hline.1
      obtain ⟨accepted', rfl, hhashed', -⟩ := hanswers.1 hline
      rcases hcalls with ⟨⟨status, rfl⟩, -⟩ | ⟨accepted, k, rfl, hshort, hhashed, -⟩
      · exact hsame
      · have hcount := congrArg List.length hsame.1
        have hend := hj.1
        have hend' := hshort.1.1
        rw [hhashed, hhashed', List.length_append, List.length_append, length_beBytes,
          List.length_take, List.length_take, min_eq_left (by omega), min_eq_left (by omega),
          length_beBytes] at hcount
        obtain rfl : k = j := by omega
        exact hne hshort.1.2.1
    · exact hnone i hline.1
  · have hfailed : ∃ status, hello' = .failed status := by
      rcases hone with ⟨j, -, hanswers⟩ | ⟨-, hfailed⟩
      · exact hanswers.2 fun hj => hline ⟨j, hj⟩
      · exact hfailed
    obtain ⟨status', rfl⟩ := hfailed
    rcases hcalls with ⟨⟨status, rfl⟩, hnot⟩ | ⟨accepted, k, rfl, -, -, hshort⟩
    · exact iff_of_true trivial ⟨hline, hnot⟩
    · exact iff_of_false id fun h => h.2 hshort

/-- The data of the calls leads to the outcome of a single call exactly if the first call has the CR
that ends the scan, or there is no identification line, neither in the stream nor in the stream
without the last byte of the first call. -/
theorem hello_same_iff {bufferSize : ℕ} (calls : Reads bufferSize) :
    (doHello bufferSize calls.reads).Same bufferSize (doHello bufferSize [calls.reads.flatten]) ↔
      (∃ i, Decides (calls.reads.headD []) i) ∨
        (¬∃ i, IsLine calls.reads.flatten i) ∧
          ¬ShortLine (calls.reads.headD []).dropLast calls.reads.tail := by
  obtain ⟨reads, hpositive, hfits⟩ := calls
  dsimp only
  cases reads with
  | nil =>
      refine ⟨fun _ => .inr ⟨?_, ?_⟩, fun _ => trivial⟩
      · rintro ⟨i, hline⟩
        exact absurd hline.1.1 (by simp)
      · rintro ⟨earlier, data, later, i, hreads, -⟩
        exact absurd hreads.symm (by simp)
  | cons data reads =>
      have hdata := hpositive data List.mem_cons_self
      have hcount := List.length_pos_of_ne_nil hdata
      rw [List.flatten_cons] at hfits ⊢
      rw [List.length_append] at hfits
      rw [List.headD_cons, List.tail_cons]
      have hone := @doHello_singleton bufferSize (data ++ reads.flatten)
        (by rw [List.length_append]; omega)
      rcases @doHello_cons bufferSize data reads hdata (by omega) with
        ⟨i, hi, hanswers⟩ | ⟨hundecided, buffer, hholds, hloop⟩
      · refine ⟨fun _ => .inl ⟨i, hi⟩, fun _ => ?_⟩
        rcases hone with ⟨j, hj, hanswers'⟩ | ⟨hnone, -⟩
        · obtain rfl := hj.unique (decides_append _ hi)
          exact same_of_answers hi hanswers hanswers' rfl
        · exact absurd (decides_append _ hi) (hnone i)
      · rw [hloop]
        have hcalls := helloLoop_undecided hdata
          (fun d hd => hpositive d (List.mem_cons_of_mem _ hd))
          hfits hholds hundecided
        have hfirst : ¬∃ i, Decides data i := fun ⟨i, hi⟩ => hundecided i hi
        rw [or_iff_right hfirst]
        exact same_iff_of_outcome hdata hundecided hcalls hone

/-- An identification line that arrives in two calls. -/
def sampleReads : Reads 36864 where
  reads := [ascii "SSH-2.0-x", ascii "y\r\n"]
  positive := by decide
  fits := by decide

/-- What is added to `partialExchangeHash`, if anything is. -/
def Hello.hashed? : Hello → Option (List UInt8)
  | .failed _ => none
  | .ok accepted => some accepted.hashed

theorem Hello.Same.hashed?_eq {bufferSize : ℕ} {hello hello' : Hello}
    (h : hello.Same bufferSize hello') :
    hello.hashed? = hello'.hashed? := by
  cases hello with
  | failed status =>
      cases hello' with
      | failed status' => rfl
      | ok accepted' => exact absurd h id
  | ok accepted =>
      cases hello' with
      | failed status' => exact absurd h id
      | ok accepted' => exact congrArg some h.1

/-- The last byte of the first call is missing in what is hashed. -/
theorem not_same_sampleReads :
    (doHello 36864 sampleReads.reads).hashed? = some ([0, 0, 0, 9] ++ ascii "SSH-2.0-y") ∧
      ¬(doHello 36864 sampleReads.reads).Same 36864
        (doHello 36864 [sampleReads.reads.flatten]) := by
  have hhashed : (doHello 36864 sampleReads.reads).hashed? = some
    ([0, 0, 0, 9] ++ ascii "SSH-2.0-y") ∧
      (doHello 36864 sampleReads.reads).hashed? ≠
        (doHello 36864 [sampleReads.reads.flatten]).hashed? := by
    decide +kernel
  exact ⟨hhashed.1, fun h => hhashed.2 h.hashed?_eq⟩

/-! ## The line that is accepted -/

/-- The calls that are not made make no difference. -/
theorem onCr_rest {pos received : ℕ} {rest : List (List UInt8)} {accepted : Accepted}
    (h : onCr bufferSize buffer pos received rest = .ok accepted) :
    accepted.rest = rest ∧
      onCr bufferSize buffer pos received [] = .ok { accepted with rest := [] } := by
  unfold onCr at h ⊢
  split at h
  next => contradiction
  next hlf =>
    rw [if_neg hlf]
    split at h
    next => contradiction
    next hprefix =>
      rw [if_neg hprefix]
      dsimp only at h ⊢
      split at h
      next haligned =>
        rw [if_pos haligned]
        obtain rfl := Hello.ok.inj h
        exact ⟨rfl, rfl⟩
      next haligned =>
        rw [if_neg haligned]
        obtain rfl := Hello.ok.inj h
        exact ⟨rfl, rfl⟩

/-- The calls up to the one that delivers the end of the line. -/
theorem helloLoop_calls {reads : List (List UInt8)} {pos received : ℕ} {accepted : Accepted}
    (h : helloLoop bufferSize reads buffer pos received = .ok accepted) :
    ∃ calls, reads = calls ++ accepted.rest ∧ (∀ data ∈ calls, data ≠ []) ∧
      helloLoop bufferSize calls buffer pos received = .ok { accepted with rest := [] } := by
  induction reads generalizing buffer pos received with
  | nil => contradiction
  | cons data reads ih =>
      rw [helloLoop] at h
      split at h
      next => contradiction
      next hdata =>
        have hne : data ≠ [] := fun hnil => hdata (by rw [hnil]; exact le_rfl)
        dsimp only at h
        split at h
        next pos' hscan =>
          obtain ⟨hrest, hok⟩ := onCr_rest h
          refine ⟨[data], by rw [hrest, List.singleton_append], ?_, ?_⟩
          · rintro _ (_ | ⟨_, ⟨⟩⟩)
            exact hne
          · rw [helloLoop, if_neg hdata]
            dsimp only
            rw [hscan]
            exact hok
        next pos' hscan =>
          obtain ⟨calls, hreads, hpositive, hok⟩ := ih h
          refine ⟨data :: calls, by rw [hreads, List.cons_append], ?_, ?_⟩
          · rintro _ (_ | ⟨_, hmem⟩)
            · exact hne
            · exact hpositive _ hmem
          · rw [helloLoop, if_neg hdata]
            dsimp only
            rw [hscan]
            exact hok

/-- The bytes that the scan sees of some calls: a second call overwrites the last byte of the first
one. -/
def scanned : List (List UInt8) → List UInt8
  | [] => []
  | [data] => data
  | data :: next :: reads => data.dropLast ++ (next :: reads).flatten

/-- The identification that is hashed is the line of the bytes that are scanned, without its end.
A call delivers no more than there is room for, so the calls fit in the buffer. -/
theorem doHello_line {reads : List (List UInt8)} {accepted : Accepted}
    (h : doHello bufferSize reads = .ok accepted) :
    ∃ calls, reads = calls ++ accepted.rest ∧ (calls.flatten.length ≤ bufferSize →
      ∃ i, IsLine (scanned calls) i ∧
        accepted.hashed = beBytes 4 i ++ (scanned calls).take i) := by
  obtain ⟨calls, hreads, hpositive, hok⟩ := helloLoop_calls h
  refine ⟨calls, hreads, fun hfits => ?_⟩
  change doHello bufferSize calls = _ at hok
  cases calls with
  | nil => contradiction
  | cons data reads =>
      have hdata := hpositive data List.mem_cons_self
      rw [List.flatten_cons, List.length_append] at hfits
      rcases @doHello_cons bufferSize data reads hdata (by omega) with
        ⟨i, hi, hanswers⟩ | ⟨hundecided, buffer, hholds, hloop⟩
      · by_cases hline : IsLine data i
        · obtain ⟨accepted', hok', hhashed, -, hrest⟩ := hanswers.1 hline
          obtain rfl := Hello.ok.inj (hok.symm.trans hok')
          obtain rfl : [] = reads := hrest
          exact ⟨i, hline, hhashed⟩
        · obtain ⟨status, hfailed⟩ := hanswers.2 hline
          exact nomatch hok.symm.trans hfailed
      · have houtcome := helloLoop_undecided hdata
          (fun d hd => hpositive d (List.mem_cons_of_mem _ hd)) hfits hholds hundecided
        rcases houtcome with ⟨⟨status, hfailed⟩, -⟩ | ⟨accepted', i, hok', hline, hhashed, hshort⟩
        · exact nomatch hok.symm.trans (hloop.trans hfailed)
        · obtain rfl := Hello.ok.inj (hok.symm.trans (hloop.trans hok'))
          cases reads with
          | nil =>
              obtain ⟨earlier, last, later, j, hreads, -⟩ := hshort
              exact absurd hreads.symm (by simp)
          | cons next reads => exact ⟨i, hline, hhashed⟩

end Hc.Ssh
