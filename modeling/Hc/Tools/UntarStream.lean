import Mathlib.Data.Nat.Digits.Lemmas
import Hc.Core.Stream
import Hc.Tools.TarRoundTrip

/-!
# The streams that `untar` takes

The loops of `hc/tools/untar/common.c` over an input that arrives in pieces, on a file system where
every call succeeds. The program ends with the status 0 exactly for the streams that start with an
archive. What it creates has the names and the contents of the archive, unless a name or a prefix
fills its field and the byte behind it is not zero.
-/

namespace Hc.Untar

open Tar

/-- A directory or a file that was created, with the texts passed to `createDir` and `createFile`.
-/
inductive Created where
  | dir (pre name : List UInt8)
  | file (pre name content : List UInt8)
deriving DecidableEq

/-- `readInput`: the next record and what is left of the input. -/
def readInput (input : Pieces) : Option (List UInt8 × Pieces) :=
  let (buffer, rest) := readAll input 512
  if buffer.length ≠ 512 then none else some (buffer, rest)

/-- The loop over the data of a file: what is written to it, the bytes that are missing at the end,
and what is left of the input. -/
def dataLoop (content : List UInt8) (size : ℕ) (input : Pieces) : List UInt8 × ℕ × Pieces :=
  if size > 0 then
    match readInput input with
    | none => (content, size, input)
    | some (buffer, input) =>
      let toWrite := if size > 512 then 512 else size
      dataLoop (content ++ buffer.take toWrite) (size - toWrite) input
  else (content, size, input)
termination_by size
decreasing_by split <;> omega

/-- How one iteration of the loop of `start` ends. -/
inductive Next where
  | stop (status : ℕ) (created : List Created)
  | continue (zeroRecordCount : ℕ) (input : Pieces) (created : List Created)

/-- One iteration of the loop of `start`. -/
def iterate (zeroRecordCount : ℕ) (input : Pieces) (created : List Created) : Next :=
  match readInput input with
  | none => .stop 1 created
  | some (buffer, input) =>
    let typeflag := byteAt buffer offsetTypeflag
    if typeflag = 0 then
      if buffer.all (· == 0) then
        if zeroRecordCount + 1 < 2 then .continue (zeroRecordCount + 1) input created
        else .stop 0 created
      else .stop 1 created
    else if zeroRecordCount > 0 then .stop 1 created
    else if typeflag = 53 then
      .continue zeroRecordCount input
        (created ++ [.dir (cstr buffer offsetPrefix) (cstr buffer offsetName)])
    else if typeflag ≠ 48 then .stop 1 created
    else
      match parseSize buffer with
      | none => .stop 1 created
      | some size =>
        let (content, left, input) := dataLoop [] size input
        let created := created ++ [.file (cstr buffer offsetPrefix)
          (cstr buffer offsetName) content]
        if left ≠ 0 then .stop 1 created else .continue zeroRecordCount input created

/-! ## Reading -/

theorem readInput_eq (input : Pieces) :
    (input.flatten.length < 512 ∧ readInput input = none) ∨
      ∃ rest, readInput input = some (input.flatten.take 512, rest) ∧
        512 ≤ input.flatten.length ∧ rest.flatten = input.flatten.drop 512 := by
  obtain ⟨hbuffer, hrest⟩ := readAll_eq input 512
  unfold readInput
  dsimp only
  rw [hbuffer, List.length_take]
  by_cases hshort : input.flatten.length < 512
  · exact .inl ⟨hshort, if_pos (by omega)⟩
  · exact .inr ⟨_, if_neg (by omega), by omega, hrest⟩

/-- The bytes of the data records of a file. -/
def dataSize (size : ℕ) : ℕ := alignForward size 512

theorem dataLoop_eq (content : List UInt8) (size : ℕ) (input : Pieces) :
    (input.flatten.length < dataSize size ∧ (dataLoop content size input).2.1 ≠ 0) ∨
      ∃ rest, dataLoop content size input = (content ++ input.flatten.take size, 0, rest) ∧
        dataSize size ≤ input.flatten.length ∧ rest.flatten = input.flatten.drop
          (dataSize size) := by
  induction size using Nat.strong_induction_on generalizing content input with
  | _ size ih =>
      unfold dataLoop
      split
      next hpos =>
        generalize hwrite : (if size > 512 then 512 else size) = toWrite
        have htoWrite : 0 < toWrite ∧ toWrite ≤ size ∧ toWrite ≤ 512 ∧
          (toWrite = 512 ∨ toWrite = size) := by
          split at hwrite <;> omega
        have hsize : dataSize size = 512 + dataSize (size - toWrite) := by
          simp only [dataSize, alignForward]
          omega
        rcases readInput_eq input with ⟨hshort, hnone⟩ | ⟨rest, hsome, hlong, hrest⟩
        · rw [hnone]
          exact .inl ⟨by omega, by dsimp only; omega⟩
        · rw [hsome]
          dsimp only
          have hlength : rest.flatten.length = input.flatten.length - 512 := by
            rw [hrest, List.length_drop]
          rcases ih (size - toWrite) (by omega)
            (content ++ (input.flatten.take 512).take toWrite) rest with
            ⟨hmissing, hleft⟩ | ⟨last, hloop, henough, hlast⟩
          · exact .inl ⟨by omega, hleft⟩
          · refine .inr ⟨last, ?_, by omega, ?_⟩
            · rw [hloop, hrest, List.append_assoc]
              congr 2
              rw [List.take_take, min_eq_left htoWrite.2.2.1]
              rcases htoWrite.2.2.2 with rfl | rfl
              · rw [← List.take_add, Nat.add_sub_cancel' htoWrite.2.1]
              · rw [Nat.sub_self, List.take_zero, List.append_nil]
            · rw [hlast, hrest, List.drop_drop, hsize]
      next hzero =>
        obtain rfl : size = 0 := by omega
        exact .inr ⟨input, by simp, by simp [dataSize, alignForward],
          by simp [dataSize, alignForward]⟩

/-! ## Archives -/

/-- The size field of a record has eleven octal digits, and says `size`. -/
def HasSize (record : List UInt8) (size : ℕ) : Prop :=
  let digits := (record.drop offsetSize).take 11
  (∀ c ∈ digits, 48 ≤ c.toNat ∧ c.toNat ≤ 55) ∧
    size = Nat.ofDigits 8 (digits.reverse.map fun c => c.toNat - 48)

/-- A record of a directory, or a record of a file with the content that follows it. -/
structure Part where
  record : List UInt8
  content : Option (List UInt8)

/-- The bytes of a record of a directory, or of a record of a file and its data. -/
inductive IsPart : List UInt8 → Part → Prop
  | dir {record : List UInt8} (hrecord : record.length = 512)
      (htypeflag : byteAt record offsetTypeflag = 53) : IsPart record ⟨record, none⟩
  | file {record data : List UInt8} {size : ℕ} (hrecord : record.length = 512)
      (htypeflag : byteAt record offsetTypeflag = 48) (hsize : HasSize record size)
      (hdata : data.length = dataSize size) : IsPart (record ++ data)
        ⟨record, some (data.take size)⟩

/-- A record of zeros. -/
abbrev zeroRecord : List UInt8 := .replicate 512 0

/-- Records of directories and of files with their data, then two records of zeros. -/
inductive Archive : List UInt8 → List Part → Prop
  | zeros (rest : List UInt8) : Archive (zeroRecord ++ (zeroRecord ++ rest)) []
  | part {bytes rest : List UInt8} {part : Part} {parts : List Part} (hpart : IsPart bytes part)
      (hrest : Archive rest parts) : Archive (bytes ++ rest) (part :: parts)

namespace Part

variable (part : Part)

/-- What is created for a record, if its texts are those given. -/
def created (pre name : List UInt8) : Created :=
  match part.content with
  | none => .dir pre name
  | some content => .file pre name content

/-- What `start` creates for a record: the texts go on to the next zero. -/
def called : Created :=
  part.created (cstr part.record offsetPrefix) (cstr part.record offsetName)

/-- The text in a field of a record. -/
def field (offset width : ℕ) : List UInt8 :=
  ((part.record.drop offset).take width).takeWhile (· != 0)

/-- What the fields of a record describe. -/
def described : Created :=
  part.created (part.field offsetPrefix maxPrefixLen) (part.field offsetName maxNameLen)

/-- The name and the prefix are followed by a zero. -/
def Terminated : Prop :=
  0 ∈ (part.record.drop offsetPrefix).take (maxPrefixLen + 1) ∧
    0 ∈ (part.record.drop offsetName).take (maxNameLen + 1)

end Part

/-! ## The fields of a record -/

theorem foldlM_sizeDigit_eq_some_iff (digits : List UInt8) (start size : ℕ) :
    digits.foldlM (fun size c =>
        if 48 ≤ c.toNat ∧ c.toNat ≤ 55 then some (size * 8 + (c.toNat - 48)) else none) start =
        some size ↔
      (∀ c ∈ digits, 48 ≤ c.toNat ∧ c.toNat ≤ 55) ∧
        size = start * 8 ^ digits.length +
          Nat.ofDigits 8 (digits.reverse.map fun c => c.toNat - 48) := by
  induction digits generalizing start with
  | nil => simp [eq_comm]
  | cons c digits ih =>
      rw [List.foldlM_cons, List.forall_mem_cons]
      split
      next hdigit =>
        rw [Option.bind_eq_bind, Option.bind_some, ih, List.reverse_cons, List.map_append,
          List.map_singleton, Nat.ofDigits_append, Nat.ofDigits_singleton, List.length_map,
          List.length_reverse,
          List.length_cons]
        simp only [hdigit, true_and, and_true, pow_succ]
        ring_nf
      next hdigit => simp [hdigit]

theorem parseSize_eq_some_iff (record : List UInt8) (size : ℕ) :
    parseSize record = some size ↔ HasSize record size := by
  rw [parseSize, foldlM_sizeDigit_eq_some_iff, Nat.zero_mul, Nat.zero_add]
  rfl

/-- A text goes on to a zero, and ends with its field only if there is one. -/
theorem takeWhile_eq_takeWhile_take_iff {bytes : List UInt8} {width : ℕ}
    (hwidth : width < bytes.length) :
    bytes.takeWhile (· != 0) = (bytes.take width).takeWhile (· != 0) ↔ 0 ∈ bytes.take
      (width + 1) := by
  induction bytes generalizing width with
  | nil => exact absurd hwidth (Nat.not_lt_zero _)
  | cons b bytes ih =>
      by_cases hzero : b = 0
      · cases width with
        | zero => simp [hzero]
        | succ width => simp [hzero]
      · cases width with
        | zero => simp [hzero, Ne.symm hzero]
        | succ width =>
            have hrest := ih (Nat.lt_of_succ_lt_succ hwidth)
            simp only [List.take_succ_cons, List.takeWhile_cons, bne_iff_ne, ne_eq, hzero,
              not_false_eq_true, if_true, List.cons.injEq, true_and, hrest, List.mem_cons,
                Ne.symm hzero,
              false_or]

theorem Part.called_eq_iff {part : Part} (hrecord : part.record.length = 512) :
    part.called = part.described ↔ part.Terminated := by
  have hpre := takeWhile_eq_takeWhile_take_iff
    (show maxPrefixLen < (part.record.drop offsetPrefix).length by
      rw [List.length_drop, hrecord]
      decide)
  have hname := takeWhile_eq_takeWhile_take_iff
    (show maxNameLen < (part.record.drop offsetName).length by
      rw [List.length_drop, hrecord]
      decide)
  rw [Part.Terminated, ← hpre, ← hname]
  unfold called described created
  cases part.content with
  | none => exact Created.dir.injEq _ _ _ _ ▸ Iff.rfl
  | some content =>
      rw [Created.file.injEq, and_iff_left rfl]
      exact Iff.rfl

/-! ## The loop of `start` -/

theorem all_zero_iff {record : List UInt8} (hrecord : record.length = 512) :
    record.all (· == 0) = true ↔ record = zeroRecord := by
  rw [List.all_eq_true, List.eq_replicate_iff]
  simp [hrecord]

/-- What an iteration does that does not end the loop. -/
theorem iterate_continue {zeroRecordCount zeroRecordCount' : ℕ} {input input' : Pieces}
    {created created' : List Created}
    (h : iterate zeroRecordCount input created = .continue zeroRecordCount' input' created') :
    zeroRecordCount = 0 ∧ ∃ bytes, input.flatten = bytes ++ input'.flatten ∧ 512 ≤ bytes.length ∧
      (zeroRecordCount' = 1 ∧ bytes = zeroRecord ∧ created' = created ∨
        zeroRecordCount' = 0 ∧ ∃ part, IsPart bytes part ∧
          created' = created ++ [part.called]) := by
  unfold iterate at h
  rcases readInput_eq input with ⟨-, hnone⟩ | ⟨rest, hsome, hlong, hrest⟩
  · rw [hnone] at h
    exact Next.noConfusion h
  have hrecord : (input.flatten.take 512).length = 512 := by
    rw [List.length_take, min_eq_left hlong]
  have hinput : input.flatten = input.flatten.take 512 ++ rest.flatten := by
    rw [hrest, List.take_append_drop]
  rw [hsome] at h
  dsimp only at h
  split at h
  next htypeflag =>
    split_ifs at h with hzero hcount
    obtain ⟨rfl, rfl, rfl⟩ := Next.continue.inj h
    exact ⟨by omega, _, hinput, hrecord.ge, .inl ⟨by omega, (all_zero_iff hrecord).mp hzero, rfl⟩⟩
  next =>
    split_ifs at h with hcount hdir hfile
    · obtain ⟨rfl, rfl, rfl⟩ := Next.continue.inj h
      exact ⟨by omega, _, hinput, hrecord.ge, .inr ⟨by omega, _, .dir hrecord hdir, rfl⟩⟩
    · cases hsize : parseSize (input.flatten.take 512) with
      | none =>
          rw [hsize] at h
          exact Next.noConfusion h
      | some size =>
          rw [hsize] at h
          dsimp only at h
          rcases dataLoop_eq [] size rest with ⟨-, hmissing⟩ | ⟨last, hloop, henough, hlast⟩
          · rw [if_pos hmissing] at h
            exact Next.noConfusion h
          · rw [hloop, if_neg (not_not_intro rfl)] at h
            obtain ⟨rfl, rfl, rfl⟩ := Next.continue.inj h
            have hdata : (rest.flatten.take (dataSize size)).length = dataSize size := by
              rw [List.length_take, min_eq_left henough]
            have hle : size ≤ dataSize size := by
              simp only [dataSize, alignForward]
              omega
            refine ⟨by omega, _, ?_, ?_, .inr ⟨by omega, _,
              .file hrecord (not_not.mp hfile) ((parseSize_eq_some_iff _ _).mp hsize) hdata, ?_⟩⟩
            · rw [hlast, List.append_assoc, List.take_append_drop, ← hinput]
            · rw [List.length_append]
              omega
            · rw [List.take_take, min_eq_left hle]
              rfl

/-- The loop ends with the status 0 only at a second record of zeros. -/
theorem iterate_stop_zero {zeroRecordCount : ℕ} {input : Pieces} {created created' : List Created}
    (h : iterate zeroRecordCount input created = .stop 0 created') :
    zeroRecordCount ≠ 0 ∧ ∃ rest, input.flatten = zeroRecord ++ rest := by
  unfold iterate at h
  rcases readInput_eq input with ⟨-, hnone⟩ | ⟨rest, hsome, hlong, hrest⟩
  · rw [hnone] at h
    exact absurd (Next.stop.inj h).1 (by decide)
  have hrecord : (input.flatten.take 512).length = 512 := by
    rw [List.length_take, min_eq_left hlong]
  rw [hsome] at h
  dsimp only at h
  split at h
  next htypeflag =>
    split_ifs at h with hzero hcount
    · refine ⟨by omega, rest.flatten, ?_⟩
      rw [← (all_zero_iff hrecord).mp hzero, hrest, List.take_append_drop]
    · exact absurd (Next.stop.inj h).1 (by decide)
  next =>
    split_ifs at h
    · exact absurd (Next.stop.inj h).1 (by decide)
    · exact absurd (Next.stop.inj h).1 (by decide)
    · cases hsize : parseSize (input.flatten.take 512) with
      | none =>
          rw [hsize] at h
          exact absurd (Next.stop.inj h).1 (by decide)
      | some size =>
          rw [hsize] at h
          dsimp only at h
          split at h
          · exact absurd (Next.stop.inj h).1 (by decide)
          · exact Next.noConfusion h

theorem length_of_iterate {zeroRecordCount zeroRecordCount' : ℕ} {input input' : Pieces}
    {created created' : List Created}
    (h : iterate zeroRecordCount input created = .continue zeroRecordCount' input' created') :
    input'.flatten.length < input.flatten.length := by
  obtain ⟨-, bytes, hinput, hbytes, -⟩ := iterate_continue h
  rw [hinput, List.length_append]
  omega

/-- The loop of `start`. It ends because the input does. -/
def mainLoop (zeroRecordCount : ℕ) (input : Pieces) (created : List Created) : ℕ × List Created :=
  match _h : iterate zeroRecordCount input created with
  | .stop status created => (status, created)
  | .continue zeroRecordCount input created => mainLoop zeroRecordCount input created
termination_by input.flatten.length
decreasing_by exact length_of_iterate _h

/-- `start`: the status, and what was created. -/
def start (input : Pieces) : ℕ × List Created := mainLoop 0 input []

theorem mainLoop_of_stop {zeroRecordCount status : ℕ} {input : Pieces}
    {created created' : List Created}
    (h : iterate zeroRecordCount input created = .stop status created') :
    mainLoop zeroRecordCount input created = (status, created') := by
  rw [mainLoop]
  split
  next h' =>
    obtain ⟨rfl, rfl⟩ := Next.stop.inj (h.symm.trans h')
    rfl
  next h' => exact Next.noConfusion (h.symm.trans h')

theorem mainLoop_of_continue {zeroRecordCount zeroRecordCount' : ℕ} {input input' : Pieces}
    {created created' : List Created}
    (h : iterate zeroRecordCount input created = .continue zeroRecordCount' input' created') :
    mainLoop zeroRecordCount input created = mainLoop zeroRecordCount' input' created' := by
  rw [mainLoop]
  split
  next h' => exact Next.noConfusion (h.symm.trans h')
  next h' =>
    obtain ⟨rfl, rfl, rfl⟩ := Next.continue.inj (h.symm.trans h')
    rfl

/-- The records that `readInput` delivers are those of the stream. -/
theorem readInput_append {input : Pieces} {record rest : List UInt8}
    (hinput : input.flatten = record ++ rest) (hrecord : record.length = 512) :
    ∃ input', readInput input = some (record, input') ∧ input'.flatten = rest := by
  rcases readInput_eq input with ⟨hshort, -⟩ | ⟨input', hsome, -, hrest⟩
  · rw [hinput, List.length_append] at hshort
    omega
  · rw [hinput, ← hrecord, List.take_left] at hsome
    rw [hinput, ← hrecord, List.drop_left] at hrest
    exact ⟨input', hsome, hrest⟩

theorem iterate_part {input : Pieces} {bytes rest : List UInt8} {part : Part}
    (hpart : IsPart bytes part)
    (hinput : input.flatten = bytes ++ rest) (created : List Created) :
    ∃ input', iterate 0 input created = .continue 0 input' (created ++ [part.called]) ∧
      input'.flatten = rest := by
  cases hpart with
  | dir hrecord htypeflag =>
      obtain ⟨input', hread, hrest⟩ := readInput_append hinput hrecord
      refine ⟨input', ?_, hrest⟩
      unfold iterate
      rw [hread]
      dsimp only
      rw [htypeflag, if_neg (by decide), if_neg (by decide), if_pos rfl]
      rfl
  | @file record data size hrecord htypeflag hsize hdata =>
      rw [List.append_assoc] at hinput
      obtain ⟨input', hread, hrest⟩ := readInput_append hinput hrecord
      rcases dataLoop_eq [] size input' with ⟨hmissing, -⟩ | ⟨last, hloop, -, hlast⟩
      · rw [hrest, List.length_append] at hmissing
        omega
      have hle : size ≤ data.length := by
        simp only [hdata, dataSize, alignForward]
        omega
      refine ⟨last, ?_, by rw [hlast, hrest, ← hdata, List.drop_left]⟩
      unfold iterate
      rw [hread]
      dsimp only
      rw [htypeflag, if_neg (by decide), if_neg (by decide), if_neg (by decide),
        if_neg (not_not_intro rfl), (parseSize_eq_some_iff record size).mpr hsize]
      dsimp only
      rw [hloop, if_neg (not_not_intro rfl), hrest, List.take_append_of_le_length hle]
      rfl

theorem iterate_zeros {input : Pieces} {rest : List UInt8}
    (hinput : input.flatten = zeroRecord ++ rest)
    (zeroRecordCount : ℕ) (created : List Created) :
    ∃ input', iterate zeroRecordCount input created =
        (if zeroRecordCount + 1 < 2 then .continue (zeroRecordCount + 1) input' created
          else .stop 0 created) ∧ input'.flatten = rest := by
  have hrecord : zeroRecord.length = 512 := List.length_replicate
  obtain ⟨input', hread, hrest⟩ := readInput_append hinput hrecord
  refine ⟨input', ?_, hrest⟩
  unfold iterate
  rw [hread]
  dsimp only
  rw [if_pos (by decide), if_pos ((all_zero_iff hrecord).mpr rfl)]

/-- An archive ends the loop with the status 0, with everything created that its records call for.
-/
theorem mainLoop_of_archive {bytes : List UInt8} {parts : List Part} (h : Archive bytes parts)
    {input : Pieces} (hinput : input.flatten = bytes) (created : List Created) :
    mainLoop 0 input created = (0, created ++ parts.map Part.called) := by
  induction h generalizing input created with
  | zeros rest =>
      obtain ⟨input', hfirst, hinput'⟩ := iterate_zeros hinput 0 created
      obtain ⟨input'', hsecond, -⟩ := iterate_zeros hinput' 1 created
      rw [mainLoop_of_continue hfirst, mainLoop_of_stop hsecond, List.map_nil, List.append_nil]
  | part hpart hrest ih =>
      obtain ⟨input', hfirst, hinput'⟩ := iterate_part hpart hinput created
      rw [mainLoop_of_continue hfirst, ih hinput', List.append_assoc]
      rfl

theorem zeros_of_mainLoop {input : Pieces} {created : List Created}
    (h : (mainLoop 1 input created).1 = 0) : ∃ rest, input.flatten = zeroRecord ++ rest := by
  cases hnext : iterate 1 input created with
  | stop status created' =>
      rw [mainLoop_of_stop hnext] at h
      obtain rfl : status = 0 := h
      exact (iterate_stop_zero hnext).2
  | «continue» zeroRecordCount' input' created' =>
    exact absurd (iterate_continue hnext).1 (by decide)

/-- The status 0 means that the stream starts with an archive. -/
theorem archive_of_mainLoop {input : Pieces} {created : List Created}
    (h : (mainLoop 0 input created).1 = 0) : ∃ parts, Archive input.flatten parts := by
  -- The induction is on the bytes that are left.
  induction hlength : input.flatten.length using Nat.strong_induction_on
    generalizing input created with
  | _ length ih =>
      cases hnext : iterate 0 input created with
      | stop status created' =>
          rw [mainLoop_of_stop hnext] at h
          obtain rfl : status = 0 := h
          exact absurd rfl (iterate_stop_zero hnext).1
      | «continue» zeroRecordCount' input' created' =>
          have hshorter := length_of_iterate hnext
          rw [mainLoop_of_continue hnext] at h
          obtain ⟨-, bytes, hinput, -, ⟨rfl, rfl, rfl⟩ | ⟨rfl, part, hpart, rfl⟩⟩ :=
            iterate_continue hnext
          · obtain ⟨rest, hrest⟩ := zeros_of_mainLoop h
            rw [hinput, hrest]
            exact ⟨[], .zeros rest⟩
          · obtain ⟨parts, hparts⟩ := ih _ (by omega) h rfl
            rw [hinput]
            exact ⟨part :: parts, .part hpart hparts⟩

/-- `start` ends with the status 0 exactly for the streams that start with an archive, and creates
what the records of the archive describe. -/
def Extracts (input : Pieces) : Prop :=
  ((start input).1 = 0 ↔ ∃ parts, Archive input.flatten parts) ∧
    ∀ parts, Archive input.flatten parts → (start input).2 = parts.map Part.described

theorem start_status_iff (input : Pieces) :
    (start input).1 = 0 ↔ ∃ parts, Archive input.flatten parts := by
  constructor
  · exact archive_of_mainLoop
  · rintro ⟨parts, hparts⟩
    rw [start, mainLoop_of_archive hparts rfl]

theorem start_created {input : Pieces} {parts : List Part} (h : Archive input.flatten parts) :
    (start input).2 = parts.map Part.called := by
  rw [start, mainLoop_of_archive h rfl, List.nil_append]

theorem Archive.length_record {bytes : List UInt8} {parts : List Part} (h : Archive bytes parts) :
    ∀ part ∈ parts, part.record.length = 512 := by
  induction h with
  | zeros => simp
  | part hpart _ ih =>
      refine List.forall_mem_cons.mpr ⟨?_, ih⟩
      cases hpart with
      | dir hrecord => exact hrecord
      | file hrecord => exact hrecord

/-- A stream is extracted as it is described exactly if in every record of the archive at its start,
the name and the prefix have a zero in their field or directly behind it. -/
theorem extracts_iff (input : Pieces) :
    Extracts input ↔
      ∀ parts, Archive input.flatten parts → ∀ part ∈ parts, part.Terminated := by
  constructor
  · intro h parts hparts part hpart
    have hmap := h.2 parts hparts
    rw [start_created hparts, List.map_inj_left] at hmap
    exact (Part.called_eq_iff (hparts.length_record part hpart)).mp (hmap part hpart)
  · intro h
    refine ⟨start_status_iff input, fun parts hparts => ?_⟩
    rw [start_created hparts, List.map_inj_left]
    intro part hpart
    exact (Part.called_eq_iff (hparts.length_record part hpart)).mpr (h parts hparts part hpart)

/-- An archive of `tar` with an empty file whose name fills its field. -/
def fullNameStream : List UInt8 :=
  (header [] (.replicate 100 97) 48 0).toList ++ (zeroRecord ++ (zeroRecord ++ []))

/-- The file is created with the mode of the record at the end of its name. -/
theorem not_extracts_full_name :
    ¬Extracts [fullNameStream] ∧
      start [fullNameStream] = (0, [.file [] (.replicate 100 97 ++ ascii "0000777") []]) := by
  have hname : (List.replicate 100 (97 : UInt8)).length = 100 := List.length_replicate
  have hnul : (0 : UInt8) ∉ List.replicate 100 (97 : UInt8) := by
    rw [List.mem_replicate]
    decide
  have hpart : IsPart ((header [] (.replicate 100 97) 48 0).toList ++ [])
      ⟨(header [] (.replicate 100 97) 48 0).toList, some []⟩ :=
    .file (List.Vector.toList_length _) byteAt_header_typeflag
      ((parseSize_eq_some_iff _ 0).mp (parseSize_header (Nat.zero_le _))) rfl
  have harchive : Archive [fullNameStream].flatten
      [⟨(header [] (.replicate 100 97) 48 0).toList, some []⟩] := by
    rw [List.flatten_singleton, fullNameStream]
    rw [List.append_nil] at hpart
    exact .part hpart (.zeros [])
  have hstart := mainLoop_of_archive harchive rfl []
  rw [List.nil_append, List.map_singleton, Part.called, Part.created,
    cstr_header_pre hname.le (Nat.zero_le _) List.not_mem_nil,
    cstr_header_full_name hname (Nat.zero_le _) hnul] at hstart
  refine ⟨fun h => ?_, hstart⟩
  have hcreated := h.2 _ harchive
  rw [start, hstart, List.map_singleton, Part.described, Part.created] at hcreated
  obtain ⟨-, hfield, -⟩ := Created.file.inj (List.cons.inj hcreated).1
  have hlength : (Part.field ⟨(header [] (.replicate 100 97) 48 0).toList, some []⟩ offsetName
      maxNameLen).length ≤ 100 :=
    ((List.takeWhile_prefix _).length_le).trans (List.length_take_le _ _)
  rw [← hfield, List.length_append, hname] at hlength
  exact absurd hlength (by decide)

/-! ## The file system -/

/-- The file system with what is created, if it can be. -/
def create (fs : FileSystem) : Created → Option FileSystem
  | .dir pre name => (target fs pre name).map fun path => update fs path .dir
  | .file pre name content => (target fs pre name).map fun path => update fs path (.file content)

/-- The status and the file system once everything is created in turn; what cannot be created ends
the program. -/
def replay (status : ℕ) : FileSystem → List Created → ℕ × FileSystem
  | fs, [] => (status, fs)
  | fs, entry :: created =>
    match create fs entry with
    | none => (1, fs)
    | some fs => replay status fs created

theorem replay_of_none {fs : FileSystem} {entry : Created} (h : create fs entry = none) (status : ℕ)
    (created : List Created) : replay status fs (entry :: created) = (1, fs) := by
  rw [replay, h]

theorem replay_of_some {fs fs' : FileSystem} {entry : Created} (h : create fs entry = some fs')
    (status : ℕ) (created : List Created) :
    replay status fs (entry :: created) = replay status fs' created := by
  rw [replay, h]

/-- The state has the file system, and the status is the one that `start` returns with it. -/
def State.Leaves (s : State) (result : ℕ × FileSystem) : Prop :=
  s.fs = result.2 ∧
    (s.mode = .stopped result.1 ∨ result.1 = 1 ∧ ∀ status, s.mode ≠ .stopped status)

theorem untar_of_leaves {input : List UInt8} {result : ℕ × FileSystem}
    (h : (run ⟨emptyDirectory, .header 0⟩ input).Leaves result) : untar input = result := by
  obtain ⟨hfs, hmode | ⟨hstatus, hmode⟩⟩ := h
  · unfold untar
    dsimp only
    rw [hmode, hfs]
  · unfold untar
    dsimp only
    split
    next status hstopped => exact absurd hstopped (hmode status)
    next => rw [hfs, ← hstatus]

theorem run_of_short {input : List UInt8} (s : State) (h : input.length < 512) :
    run s input = s := by
  rw [run, records, if_neg (by omega)]
  rfl

/-- A record of a stream. -/
theorem run_record {input rest : List UInt8} (s : State) (hlong : 512 ≤ input.length)
    (hrest : rest = input.drop 512) : run s input = run (step s (input.take 512)) rest := by
  have hrecord : (input.take 512).length = 512 := by rw [List.length_take, min_eq_left hlong]
  rw [hrest, ← run_append s _ hrecord, List.take_append_drop]

/-- The mode while bytes of a file are missing. -/
def dataMode (path : Path) (size : ℕ) : Mode := if size > 0 then .data path size else .header 0

/-- The data of a file is written to it; where bytes are missing at the end, the input has ended. -/
theorem run_dataLoop (fs : FileSystem) (path : Path) (content : List UInt8) (size : ℕ)
    (input : Pieces) {data : List UInt8 × ℕ × Pieces} (h : dataLoop content size input = data) :
    run ⟨update fs path (.file content), dataMode path size⟩ input.flatten =
        run ⟨update fs path (.file data.1), dataMode path data.2.1⟩ data.2.2.flatten ∧
      (data.2.1 ≠ 0 → data.2.2.flatten.length < 512) := by
  induction size using Nat.strong_induction_on generalizing content input with
  | _ size ih =>
      unfold dataLoop at h
      split at h
      next hpos =>
        rcases readInput_eq input with ⟨hshort, hnone⟩ | ⟨rest, hsome, hlong, hrest⟩
        · rw [hnone] at h
          subst h
          exact ⟨rfl, fun _ => hshort⟩
        · rw [hsome] at h
          dsimp only at h
          have hwrite : (if size > 512 then 512 else size) = min 512 size := by split <;> omega
          rw [hwrite] at h
          have hstep : step ⟨update fs path (.file content), dataMode path size⟩
              (input.flatten.take 512) =
              ⟨update fs path (.file (content ++ (input.flatten.take 512).take (min 512 size))),
                dataMode path (size - min 512 size)⟩ := by
            rw [dataMode, if_pos hpos, step]
            dsimp only
            rw [appendTo_update_file]
            rfl
          rw [run_record _ hlong hrest, hstep]
          exact ih (size - min 512 size) (by omega) _ _ h
      next hzero =>
        subst h
        exact ⟨rfl, fun hleft => absurd hleft (by dsimp only; omega)⟩

/-- The state that the records of the stream lead to is the one of what an iteration creates, or of
what is left behind it. -/
def Next.Agrees (fs : FileSystem) (created : List Created) (final : State) : Next → Prop
  | .stop status created' =>
    ∃ new, created' = created ++ new ∧ final.Leaves (replay status fs new)
  | .continue zeroRecordCount input created' =>
    created' = created ∧ final = run ⟨fs, .header zeroRecordCount⟩ input.flatten ∨
      ∃ entry, created' = created ++ [entry] ∧
        (create fs entry = none ∧ final.Leaves (1, fs) ∨ ∃ fs', create fs entry = some fs' ∧
          final = run ⟨fs', .header zeroRecordCount⟩ input.flatten)

theorem leaves_stopped (fs : FileSystem) (status : ℕ) (input : List UInt8) :
    (run ⟨fs, .stopped status⟩ input).Leaves (status, fs) := by
  rw [run_stopped]
  exact ⟨rfl, .inl rfl⟩

/-- An iteration that creates nothing and ends the loop. -/
theorem agrees_stopped (fs : FileSystem) (created : List Created) (status : ℕ)
    (input : List UInt8) : Next.Agrees fs created (run ⟨fs, .stopped status⟩ input)
      (.stop status created) :=
  ⟨[], (List.append_nil _).symm, leaves_stopped fs status input⟩

theorem leaves_of_short {fs : FileSystem} {mode : Mode} (hmode : ∀ status, mode ≠ .stopped status)
    {input : List UInt8} (hshort : input.length < 512) : (run ⟨fs, mode⟩ input).Leaves (1, fs) := by
  rw [run_of_short _ hshort]
  exact ⟨rfl, .inr ⟨rfl, hmode⟩⟩

theorem dataMode_ne_stopped (path : Path) (size status : ℕ) :
    dataMode path size ≠ .stopped status := by
  unfold dataMode
  split <;> exact Mode.noConfusion

/-- A file is created and its data is written. -/
theorem agrees_file (fs : FileSystem) (created : List Created) {record : List UInt8} {size : ℕ}
    {rest : Pieces} {final : State} {data : List UInt8 × ℕ × Pieces}
    (hdata : dataLoop [] size rest = data)
    (hnone : target fs (cstr record offsetPrefix) (cstr record offsetName) = none →
      final = run ⟨fs, .stopped 1⟩ rest.flatten)
    (hsome : ∀ path, target fs (cstr record offsetPrefix) (cstr record offsetName) = some path →
      final = run ⟨update fs path (.file []), dataMode path size⟩ rest.flatten) :
    Next.Agrees fs created final
      (if data.2.1 ≠ 0 then .stop 1 (created ++
          [.file (cstr record offsetPrefix) (cstr record offsetName) data.1])
        else .continue 0 data.2.2 (created ++
          [.file (cstr record offsetPrefix) (cstr record offsetName) data.1])) := by
  obtain ⟨entry, hentry⟩ : ∃ entry, entry =
    Created.file (cstr record offsetPrefix) (cstr record offsetName) data.1 := ⟨_, rfl⟩
  rw [← hentry]
  cases htarget : target fs (cstr record offsetPrefix) (cstr record offsetName) with
  | none =>
      have hcreate : create fs entry = none := by rw [hentry, create, htarget, Option.map_none]
      have hleaves : final.Leaves (1, fs) := hnone htarget ▸ leaves_stopped fs 1 rest.flatten
      split
      next => exact ⟨[entry], rfl, by rwa [replay_of_none hcreate]⟩
      next => exact .inr ⟨entry, rfl, .inl ⟨hcreate, hleaves⟩⟩
  | some path =>
      have hcreate : create fs entry = some (update fs path (.file data.1)) := by
        rw [hentry, create, htarget, Option.map_some]
      obtain ⟨hrun, hshort⟩ := run_dataLoop fs path [] size rest hdata
      have hfinal := (hsome path htarget).trans hrun
      split
      next hleft =>
        refine ⟨[entry], rfl, ?_⟩
        rw [replay_of_some hcreate, replay, hfinal]
        exact leaves_of_short (dataMode_ne_stopped path _) (hshort hleft)
      next hleft =>
        rw [not_not.mp hleft] at hfinal
        exact .inr ⟨entry, rfl, .inr ⟨_, hcreate, hfinal⟩⟩

/-- One iteration goes on as the records of the stream do. -/
theorem agrees_iterate (fs : FileSystem) (zeroRecordCount : ℕ) (input : Pieces)
    (created : List Created) :
    (iterate zeroRecordCount input created).Agrees fs created
      (run ⟨fs, .header zeroRecordCount⟩ input.flatten) := by
  unfold iterate
  rcases readInput_eq input with ⟨hshort, hnone⟩ | ⟨rest, hsome, hlong, hrest⟩
  · rw [hnone]
    exact ⟨[], (List.append_nil _).symm,
      leaves_of_short (fun status => Mode.noConfusion) hshort⟩
  rw [hsome, run_record _ hlong hrest, step]
  dsimp only
  unfold onHeader
  dsimp only
  split
  next =>
    split
    next =>
      split
      next => exact .inl ⟨rfl, rfl⟩
      next => exact agrees_stopped fs created 0 _
    next => exact agrees_stopped fs created 1 _
  next =>
    split
    next => exact agrees_stopped fs created 1 _
    next hcount =>
      obtain rfl : zeroRecordCount = 0 := by omega
      split
      next =>
        refine .inr ⟨_, rfl, ?_⟩
        rw [create]
        split
        next htarget =>
          rw [htarget]
          exact .inl ⟨rfl, leaves_stopped fs 1 _⟩
        next path htarget =>
          rw [htarget]
          exact .inr ⟨_, rfl, rfl⟩
      next =>
        split
        next => exact agrees_stopped fs created 1 _
        next =>
          cases parseSize (input.flatten.take 512) with
          | none => exact agrees_stopped fs created 1 _
          | some size =>
              refine agrees_file fs created rfl (fun htarget => ?_) fun path htarget => ?_
              · rw [htarget]
              · rw [htarget]
                rfl

/-- The loop creates what the records of the stream create, up to the first thing that cannot be
created. -/
theorem leaves_mainLoop (fs : FileSystem) (zeroRecordCount : ℕ) (input : Pieces)
    (created : List Created) :
    ∃ new, (mainLoop zeroRecordCount input created).2 = created ++ new ∧
      (run ⟨fs, .header zeroRecordCount⟩ input.flatten).Leaves
        (replay (mainLoop zeroRecordCount input created).1 fs new) := by
  -- The induction is on the bytes that are left.
  induction hlength : input.flatten.length using Nat.strong_induction_on
    generalizing fs zeroRecordCount input created with
  | _ length ih =>
      have hagrees := agrees_iterate fs zeroRecordCount input created
      cases hnext : iterate zeroRecordCount input created with
      | stop status created' =>
          rw [hnext] at hagrees
          rw [mainLoop_of_stop hnext]
          exact hagrees
      | «continue» zeroRecordCount' input' created' =>
          have hshorter := length_of_iterate hnext
          rw [hnext] at hagrees
          rw [mainLoop_of_continue hnext]
          rcases hagrees with
            ⟨rfl, hfinal⟩ | ⟨entry, rfl, ⟨hcreate, hleaves⟩ | ⟨fs', hcreate, hfinal⟩⟩
          · rw [hfinal]
            exact ih _ (by omega) fs zeroRecordCount' input' created' rfl
          · obtain ⟨new, hnew, -⟩ := ih _ (by omega) fs zeroRecordCount' input' _ rfl
            refine ⟨entry :: new, by rw [hnew, List.append_assoc, List.singleton_append], ?_⟩
            rwa [replay_of_none hcreate]
          · obtain ⟨new, hnew, hleaves⟩ := ih _ (by omega) fs' zeroRecordCount' input' _ rfl
            refine ⟨entry :: new, by rw [hnew, List.append_assoc, List.singleton_append], ?_⟩
            rwa [hfinal, replay_of_some hcreate]

/-- The loops over pieces and over records are the same one: what is left of a stream is what the
entries leave that `start` creates for it, however it is cut. -/
theorem untar_flatten (input : Pieces) :
    untar input.flatten = replay (start input).1 emptyDirectory (start input).2 := by
  obtain ⟨new, hnew, hleaves⟩ := leaves_mainLoop emptyDirectory 0 input []
  rw [List.nil_append] at hnew
  rw [start, hnew]
  exact untar_of_leaves hleaves

/-- What `tar` has written is created again, in whatever pieces it arrives. -/
theorem replay_start_of_archive {f : Forest} {bytes : List UInt8} (hnamed : f.Named ValidName)
    (h : archive f = some bytes) (hshort : f.AllNames (·.length < maxNameLen)) {input : Pieces}
    (hinput : input.flatten = bytes) :
    replay (start input).1 emptyDirectory (start input).2 = (0, f.toFileSystem) := by
  rw [← untar_flatten, hinput]
  exact untar_of_short hnamed h hshort

end Hc.Untar
