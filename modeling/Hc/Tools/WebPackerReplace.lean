import Hc.Core.Allocator
import Hc.Core.Base64
import Hc.Core.Stream

/-!
# Replacing a part of the buffer by a file

`replaceWithFile` of `hc/tools/webPacker/ix.c`. The memory is resized before the bytes behind the
replaced range are moved: when the buffer gets smaller, pages that still hold some of them may be
decommitted first.
-/

namespace Hc.WebPacker

open Memory

/-- The allocator, and the range of it that is the buffer. The bytes in front of the buffer are the
descriptors of the include paths. -/
structure State where
  alloc : Allocator
  buffer : ℕ
  bufferSize : ℕ

/-- The bytes of the buffer. -/
def State.content (s : State) : List UInt8 := read s.alloc.mem s.buffer s.bufferSize

/-- The buffer is inside the memory of the allocator. -/
def State.Valid (s : State) : Prop := s.buffer + s.bufferSize ≤ s.alloc.size

instance (s : State) : Decidable s.Valid :=
  inferInstanceAs (Decidable (s.buffer + s.bufferSize ≤ s.alloc.size))

/-- An open file: the size that `fstatat` gives, if it succeeds, what is read, and whether a read
fails behind it. -/
structure File where
  size : Option ℕ
  reads : Pieces
  fails : Bool

/-- `util_readAll` on a file: the bytes that are stored, and the result. -/
def File.readAll (file : File) (size : ℕ) : List UInt8 × ℤ :=
  let bytes := (Hc.readAll file.reads size).1
  (bytes, if file.fails ∧ bytes.length < size then -1 else bytes.length)

/-- How a call ends. -/
inductive Outcome where
  | returned (status : ℤ) (s : State)
  | fault

/-- The descriptors in front of the buffer. -/
def includePathFds (mem : ℕ → UInt8) (buffer : ℕ) : List ℕ :=
  (List.range (buffer / 4)).map fun i => leNat (read mem (4 * i) 4)

/-- The size of what is inserted. -/
def insertSize (contentSize : ℕ) (asBase64 : Bool) : ℕ :=
  if asBase64 then Base64.encodeSize contentSize else contentSize

section Replace

variable (heap : Heap)

/-- `replaceWithFile` from the resize of the buffer on. -/
def insertFile (self : State) (replaceIndex replaceSize : ℕ) (file : File) (contentSize : ℕ)
    (asBase64 : Bool) : Outcome :=
  let insertSize := insertSize contentSize asBase64
  let newBufferSize := self.bufferSize + insertSize - replaceSize
  match self.alloc.resize heap (self.buffer + (newBufferSize + 1)) with
  | none => .returned (-4) self
  | some alloc =>
    let tail := self.buffer + (replaceIndex + replaceSize)
    let tailSize := self.bufferSize - (replaceSize + replaceIndex)
    if alloc.Faults heap tail tailSize then .fault
    else
      let gap := self.buffer + replaceIndex
      let moved := write alloc.mem (gap + insertSize) (read alloc.mem tail tailSize)
      let content := gap + insertSize - contentSize
      let (bytes, numRead) := file.readAll (contentSize + 1)
      let filled := write moved content bytes
      let done (mem : ℕ → UInt8) : State := ⟨{ alloc with mem }, self.buffer, newBufferSize⟩
      if numRead ≠ contentSize then .returned (-5) (done filled)
      else
        .returned 0 (done (if asBase64 then Base64.encode filled gap content contentSize
          else filled))

/-- `replaceWithFile`, with what `openat` opens for a descriptor and a path. -/
def replaceWithFile (openat : ℕ → List UInt8 → Option File) (self : State)
    (replaceIndex replaceSize : ℕ) (path : List UInt8) (asBase64 : Bool) : Outcome :=
  match self.alloc.resize heap (self.alloc.size + path.length + 1) with
  | none => .returned (-1) self
  | some alloc =>
    let mem := write alloc.mem self.alloc.size (path ++ [0])
    let self := { self with alloc := { alloc with mem } }
    match (includePathFds mem self.buffer).findSome? fun fd => openat fd
      (path.takeWhile (· != 0)) with
    | none => .returned (-2) self
    | some file =>
      match file.size with
      | none => .returned (-3) self
      | some contentSize => insertFile heap self replaceIndex replaceSize file contentSize asBase64

end Replace

/-! ## What the buffer is to hold -/

/-- The bytes that stand for a content. -/
def inserted (content : List UInt8) (asBase64 : Bool) : List UInt8 :=
  if asBase64 then Base64.encoding content else content

/-- The buffer with a range of it replaced. -/
def replaced (old : List UInt8) (replaceIndex replaceSize : ℕ) (content : List UInt8)
    (asBase64 : Bool) : List UInt8 :=
  old.take replaceIndex ++ inserted content asBase64 ++ old.drop (replaceIndex + replaceSize)

/-- Whatever the platform and the file system do, when the call returns 0 the range is replaced. -/
def Replaces (pageSize : ℕ+) (s : State) (replaceIndex replaceSize : ℕ) (path content : List UInt8)
    (asBase64 : Bool) : Prop :=
  ∀ (heap : Heap) (openat : ℕ → List UInt8 → Option File) (s' : State), heap.pageSize = pageSize →
    (∀ fd pathZ file, openat fd pathZ = some file → file.reads.flatten = content) →
    replaceWithFile heap openat s replaceIndex replaceSize path asBase64 = .returned 0 s' →
    s'.content = replaced s.content replaceIndex replaceSize content asBase64 ∧
      s'.bufferSize = (replaced s.content replaceIndex replaceSize content asBase64).length

theorem le_insertSize (n : ℕ) (asBase64 : Bool) : n ≤ insertSize n asBase64 := by
  cases asBase64
  · exact Nat.le_refl n
  · exact Base64.le_encodeSize n

/-- When the whole file is read, it is what was expected. -/
theorem File.readAll_eq {file : File} {contentSize : ℕ}
    (h : (file.readAll (contentSize + 1)).2 = contentSize) :
    (file.readAll (contentSize + 1)).1 = file.reads.flatten ∧
      file.reads.flatten.length = contentSize := by
  have hbytes := (Hc.readAll_eq file.reads (contentSize + 1)).1
  simp only [File.readAll, hbytes] at h ⊢
  have hlength : (file.reads.flatten.take (contentSize + 1)).length = contentSize := by
    split at h <;> omega
  have hshort : file.reads.flatten.length = contentSize := by
    rw [List.length_take] at hlength
    omega
  exact ⟨List.take_of_length_le (by omega), hshort⟩

/-! ## What the buffer holds -/

/-- The memory after the content was read and, if that was asked for, encoded: the bytes for the
content fill the gap, and the rest of the moved buffer is as it was. -/
theorem fill_gap (moved : ℕ → UInt8) (gap : ℕ) (content : List UInt8) (asBase64 : Bool) :
    let start := gap + insertSize content.length asBase64 - content.length
    let filled := write moved start content
    let final := if asBase64 then Base64.encode filled gap start content.length else filled
    read final gap (insertSize content.length asBase64) = inserted content asBase64 ∧
      (∀ i, i < gap → final i = moved i) ∧
      ∀ i, gap + insertSize content.length asBase64 ≤ i → final i = moved i := by
  have hle := le_insertSize content.length asBase64
  intro start filled final
  have hstart : gap ≤ start := by omega
  have hend : start + content.length = gap + insertSize content.length asBase64 := by omega
  cases asBase64 with
  | false =>
      have hgap : start = gap := Nat.add_sub_cancel _ _
      refine ⟨?_, fun i hi => write_of_lt _ (by omega), fun i hi => write_of_ge (by omega)⟩
      exact hgap ▸ read_write_self start content
  | true =>
      have hfinal : final = write filled gap (Base64.encoding content) := by
        simp only [final, if_true]
        rw [Base64.encode_eq_write (Or.inr hend.ge), read_write_self]
      have hlength := Base64.length_encoding content
      have hsize : insertSize content.length true = (Base64.encoding content).length := hlength.symm
      refine ⟨?_, fun i hi => ?_, fun i hi => ?_⟩
      · rw [hfinal, hsize]
        exact read_write_self gap _
      · rw [hfinal, write_of_lt _ hi]
        exact write_of_lt _ (by omega)
      · rw [hfinal, write_of_ge (by omega)]
        exact write_of_ge (by omega)

/-- The buffer after the bytes behind the replaced range were moved and the gap was filled. -/
theorem read_fill (mem : ℕ → UInt8) (buffer replaceIndex tail tailSize : ℕ) (content : List UInt8)
    (asBase64 : Bool) :
    let size := insertSize content.length asBase64
    let gap := buffer + replaceIndex
    let filled := write (write mem (gap + size) (read mem tail tailSize))
      (gap + size - content.length)
      content
    let final := if asBase64 then
      Base64.encode filled gap (gap + size - content.length) content.length else filled
    read final buffer (replaceIndex + size + tailSize) =
      read mem buffer replaceIndex ++ inserted content asBase64 ++ read mem tail tailSize := by
  intro size gap filled final
  obtain ⟨hgap, hbefore, hbehind⟩ :=
    fill_gap (write mem (gap + size) (read mem tail tailSize)) gap content asBase64
  have hhead : read final buffer replaceIndex = read mem buffer replaceIndex :=
    read_congr fun i _ hi => (hbefore i hi).trans (write_of_lt _ (by omega))
  have htail : read final (gap + size) tailSize = read mem tail tailSize := by
    calc
      read final (gap + size) tailSize
          = read (write mem (gap + size) (read mem tail tailSize)) (gap + size) tailSize :=
        read_congr fun i hi _ => hbehind i hi
      _ = read mem tail tailSize := read_write_of_length _ (length_read tail tailSize)
  rw [read_add, read_add, hhead, hgap, ← Nat.add_assoc, htail]

variable {heap : Heap} {s s' : State} {replaceIndex replaceSize contentSize : ℕ} {file : File}
  {asBase64 : Bool}

/-- What a call that returns 0 leaves in the buffer, from the memory after the resize. -/
theorem insertFile_returned_zero (hrange : replaceIndex + replaceSize ≤ s.bufferSize)
    (h : insertFile heap s replaceIndex replaceSize file contentSize asBase64 = .returned 0 s') :
    file.reads.flatten.length = contentSize ∧
      ∃ alloc, s.alloc.resize heap (s.buffer +
          (s.bufferSize + insertSize contentSize asBase64 - replaceSize + 1)) = some alloc ∧
        s'.content = read alloc.mem s.buffer replaceIndex ++ inserted file.reads.flatten asBase64 ++
          read alloc.mem (s.buffer + (replaceIndex + replaceSize))
            (s.bufferSize - (replaceSize + replaceIndex)) := by
  unfold insertFile at h
  dsimp only at h
  split at h
  next => cases h
  next alloc hresize =>
    split at h
    next => cases h
    next =>
      split at h
      next => cases h
      next hread =>
        obtain ⟨hbytes, hlength⟩ := File.readAll_eq (not_not.mp hread)
        refine ⟨hlength, alloc, hresize, ?_⟩
        subst hlength
        rw [hbytes] at h
        have hsize : s.bufferSize + insertSize file.reads.flatten.length asBase64 - replaceSize =
            replaceIndex + insertSize file.reads.flatten.length asBase64 +
              (s.bufferSize - (replaceSize + replaceIndex)) := by omega
        cases h
        rw [State.content, hsize]
        exact read_fill _ _ _ _ _ _ _

/-- The buffer stays inside the memory, however the insertion ends. -/
theorem insertFile_valid {status : ℤ} (hvalid : s.Valid)
    (h : insertFile heap s replaceIndex replaceSize file contentSize asBase64 =
    .returned status s') :
    s'.Valid := by
  unfold insertFile at h
  dsimp only at h
  split at h
  next => cases h; exact hvalid
  next alloc hresize =>
    have hsize := Allocator.resize_size hresize
    have hle : s.buffer + (s.bufferSize + insertSize contentSize asBase64 - replaceSize) ≤
        alloc.size := by omega
    split at h
    next => cases h
    next =>
      split at h
      next => cases h; exact hle
      next => cases h; exact hle

variable {openat : ℕ → List UInt8 → Option File} {path content : List UInt8}

/-- Every call leaves the buffer inside the memory. -/
theorem replaceWithFile_valid {status : ℤ} (hvalid : s.Valid)
    (h : replaceWithFile heap openat s replaceIndex replaceSize path asBase64 =
    .returned status s') :
    s'.Valid := by
  unfold replaceWithFile at h
  dsimp only at h
  split at h
  next => cases h; exact hvalid
  next alloc hresize =>
    have hsize := Allocator.resize_size hresize
    have hbuffer : s.buffer + s.bufferSize ≤ s.alloc.size := hvalid
    have hopened : s.buffer + s.bufferSize ≤ alloc.size := by omega
    split at h
    next => cases h; exact hopened
    next =>
      split at h
      next => cases h; exact hopened
      next => exact insertFile_valid (by exact hopened) h

/-- A call that returns 0 has room for the path, finds the file in an include path and inserts it.
-/
theorem replaceWithFile_returned_zero
    (h : replaceWithFile heap openat s replaceIndex replaceSize path asBase64 = .returned 0 s') :
    ∃ alloc fd pathZ file contentSize,
      s.alloc.resize heap (s.alloc.size + path.length + 1) = some alloc ∧
      fd ∈ includePathFds (write alloc.mem s.alloc.size (path ++ [0])) s.buffer ∧
      openat fd pathZ = some file ∧
      insertFile heap { s with alloc := { alloc with
        mem := write alloc.mem s.alloc.size
          (path ++ [0]) } } replaceIndex replaceSize file contentSize
        asBase64 = .returned 0 s' := by
  unfold replaceWithFile at h
  dsimp only at h
  split at h
  next => cases h
  next alloc hresize =>
    split at h
    next => cases h
    next file hfile =>
      obtain ⟨fd, hfd, hopen⟩ := List.exists_of_findSome?_eq_some hfile
      split at h
      next => cases h
      next contentSize hsize => exact ⟨alloc, fd, _, file, _, hresize, hfd, hopen, h⟩

/-- What is in the buffer when the call returns 0: all is as it should be, but for the bytes behind
the replaced range, which are those of the memory after the resize. -/
theorem content_of_returned_zero (hvalid : s.Valid)
    (hrange : replaceIndex + replaceSize ≤ s.bufferSize)
    (hfiles : ∀ fd pathZ file, openat fd pathZ = some file → file.reads.flatten = content)
    (h : replaceWithFile heap openat s replaceIndex replaceSize path asBase64 = .returned 0 s') :
    ∃ opened alloc : Allocator,
      (∀ i, i < s.alloc.size → opened.mem i = s.alloc.mem i) ∧
      opened.resize heap (s.buffer +
        (s.bufferSize + insertSize content.length asBase64 - replaceSize + 1)) = some alloc ∧
      opened.size = s.alloc.size + path.length + 1 ∧
      s'.content = s.content.take replaceIndex ++ inserted content asBase64 ++
        read alloc.mem (s.buffer + (replaceIndex + replaceSize))
          (s.bufferSize - (replaceIndex + replaceSize)) := by
  obtain ⟨opened, fd, pathZ, file, contentSize, hopened, -, hopen, hinsert⟩ :=
    replaceWithFile_returned_zero h
  obtain ⟨hlength, alloc, hresize, hcontent⟩ :=
    insertFile_returned_zero (by exact hrange) hinsert
  dsimp only at hresize hcontent
  have hgrow := Allocator.resize_grow hopened (by omega)
  have hmem (i : ℕ) (hi : i < s.alloc.size) :
      write opened.mem s.alloc.size (path ++ [0]) i = s.alloc.mem i := by
    rw [write_of_lt _ hi, hgrow]
  rw [hfiles fd pathZ file hopen] at hlength hcontent
  subst hlength
  have hsize := Allocator.resize_size hopened
  refine ⟨_, alloc, hmem, hresize, hsize, ?_⟩
  have hbuffer : s.buffer + s.bufferSize ≤ s.alloc.size := hvalid
  have hhead : read alloc.mem s.buffer replaceIndex = s.content.take replaceIndex := by
    have hle := le_alignForward
      (x := s.buffer + (s.bufferSize + insertSize content.length asBase64 -
      replaceSize + 1)) heap.pageSize.pos
    rw [State.content, take_read _ (by omega)]
    exact read_congr fun i _ hi =>
      (Allocator.resize_mem hresize (by omega)).trans (hmem i (by omega))
  rw [hcontent, hhead, Nat.add_comm replaceSize]

/-- A file that is read as `fstatat` promised. -/
def File.of (content : List UInt8) : File := ⟨some content.length, [content], false⟩

theorem File.readAll_of (content : List UInt8) :
    (File.of content).readAll (content.length + 1) = (content, (content.length : ℤ)) := by
  have hbytes := (Hc.readAll_eq [content] (content.length + 1)).1
  rw [List.flatten_singleton, List.take_of_length_le (Nat.le_succ _)] at hbytes
  simp [File.readAll, File.of, hbytes]

/-- The file is inserted when there is room for it and no load faults. -/
theorem insertFile_of {alloc : Allocator} {discarded : ℕ → UInt8}
    (hheap : heap.decommitted = some discarded)
    (hresize : s.alloc.resize heap (s.buffer +
      (s.bufferSize + insertSize content.length asBase64 - replaceSize + 1)) = some alloc) :
    ∃ s', insertFile heap s replaceIndex replaceSize (File.of content) content.length asBase64 =
      .returned 0 s' := by
  unfold insertFile
  dsimp only
  rw [hresize]
  dsimp only
  rw [if_neg (by simp [Allocator.Faults, hheap]), File.readAll_of, if_neg (not_not.mpr rfl)]
  exact ⟨_, rfl⟩

theorem findSome?_includePathFds (mem : ℕ → UInt8) (file : File) (hfds : 4 ≤ s.buffer) :
    ((includePathFds mem s.buffer).findSome? fun _ => some file) = some file := by
  obtain ⟨n, hn⟩ : ∃ n, s.buffer / 4 = n + 1 := ⟨s.buffer / 4 - 1, by omega⟩
  rw [includePathFds, hn, List.range_succ_eq_map]
  rfl

/-- Pages that hold bytes of the buffer are taken back. -/
theorem not_replaces (hvalid : s.Valid) (hrange : replaceIndex + replaceSize < s.bufferSize)
    (hfds : 4 ≤ s.buffer) {pageSize : ℕ+}
    (hroom : alignForward (s.alloc.size + path.length + 1) pageSize ≤
      max s.alloc.reserveSize (alignForward s.alloc.size pageSize))
    (hlost : alignForward (s.buffer +
      (s.bufferSize + insertSize content.length asBase64 - replaceSize + 1)) pageSize <
        s.buffer + s.bufferSize) :
    ¬Replaces pageSize s replaceIndex replaceSize path content asBase64 := by
  intro h
  -- The lost bytes read as something else than what they were.
  let heap : Heap := ⟨pageSize, fun _ _ => true, some fun i => s.alloc.mem i + 1⟩
  change alignForward _ heap.pageSize < _ at hlost
  have hbuffer : s.buffer + s.bufferSize ≤ s.alloc.size := hvalid
  have hshrink {opened : Allocator} (hsize : opened.size = s.alloc.size + path.length + 1) :
      alignForward (s.buffer + (s.bufferSize + insertSize content.length asBase64 - replaceSize +
        1))
        heap.pageSize < opened.commitSize heap := by
    have hle : opened.size ≤ opened.commitSize heap := le_alignForward heap.pageSize.pos
    exact lt_of_lt_of_le hlost (by omega)
  have hcalled : ∃ s', replaceWithFile heap (fun _ _ => some (File.of content)) s replaceIndex
      replaceSize path asBase64 = .returned 0 s' := by
    obtain ⟨opened, hopened⟩ := Option.isSome_iff_exists.mp
      (@Allocator.resize_isSome heap _ _ (fun _ _ => rfl) hroom)
    unfold replaceWithFile
    rw [hopened]
    dsimp only
    rw [findSome?_includePathFds _ _ hfds]
    have hsize := Allocator.resize_size hopened
    exact insertFile_of rfl (Allocator.resize_shrink (hshrink hsize))
  obtain ⟨s', hreturned⟩ := hcalled
  have hfiles (fd : ℕ) (pathZ : List UInt8) (file : File)
    (hfile : some (File.of content) = some file) :
      file.reads.flatten = content := by
    cases hfile
    exact List.append_nil content
  obtain ⟨opened, alloc, hmem, hresize, hsize, hcontent⟩ :=
    content_of_returned_zero hvalid hrange.le hfiles hreturned
  have hkept := (h heap _ s' rfl hfiles hreturned).1
  rw [hcontent, replaced, List.append_cancel_left_eq, State.content, drop_read _ hrange.le] at hkept
  rw [Allocator.resize_shrink (hshrink hsize)] at hresize
  cases hresize
  have hlast := congrArg (·[s.bufferSize - (replaceIndex + replaceSize) - 1]?) hkept
  dsimp only at hlast
  rw [getElem?_read _ (by omega), getElem?_read _ (by omega), Option.some.injEq, Heap.decommit,
    if_neg (by omega)] at hlast
  simp [heap] at hlast

/-- A buffer that starts with a directive and ends 8 bytes into the second page, behind the
descriptor of one include path. -/
def sampleState : State where
  alloc := ⟨fun i => ([3, 0, 0, 0] ++ ascii "/*INCLUDE(a)*/").getD i 120, 4105, 2 ^ 32⟩
  buffer := 4
  bufferSize := 4100

/-- With an empty file the last bytes of the buffer are lost. -/
theorem not_replaces_empty_file :
    ¬Replaces 4096 sampleState 0 14 (ascii "a") [] false :=
  not_replaces (by decide) (by decide) (by decide) (by decide) (by decide)

/-- The range is replaced exactly when the path has no room, there is no include path, the replaced
range is the end of the buffer, or the buffer ends in a page that the resize keeps. -/
theorem replaces_iff (pageSize : ℕ+) (s : State) (replaceIndex replaceSize : ℕ)
    (path content : List UInt8) (asBase64 : Bool) (hvalid : s.Valid)
    (hrange : replaceIndex + replaceSize ≤ s.bufferSize) :
    Replaces pageSize s replaceIndex replaceSize path content asBase64 ↔
      max s.alloc.reserveSize (alignForward s.alloc.size pageSize) <
          alignForward (s.alloc.size + path.length + 1) pageSize ∨
        s.buffer < 4 ∨ replaceIndex + replaceSize = s.bufferSize ∨
        s.buffer + s.bufferSize ≤ alignForward (s.buffer +
          (s.bufferSize + insertSize content.length asBase64 - replaceSize + 1)) pageSize := by
  constructor
  · intro h
    by_contra hcond
    push Not at hcond
    obtain ⟨hroom, hfds, htail, hlost⟩ := hcond
    exact not_replaces hvalid (lt_of_le_of_ne hrange htail) hfds hroom hlost h
  · intro hcond heap openat s' hpage hfiles hreturned
    subst hpage
    obtain ⟨_, fd, _, _, _, hopened, hfd, -, -⟩ := replaceWithFile_returned_zero hreturned
    obtain ⟨opened, alloc, hmem, hresize, -, hcontent⟩ :=
      content_of_returned_zero hvalid hrange hfiles hreturned
    have hbuffer : s.buffer + s.bufferSize ≤ s.alloc.size := hvalid
    have htail : read alloc.mem (s.buffer + (replaceIndex + replaceSize))
        (s.bufferSize - (replaceIndex + replaceSize)) =
          s.content.drop (replaceIndex + replaceSize) := by
      rw [State.content, drop_read _ hrange]
      rcases hcond with hroom | hfds | hend | hpages
      · rw [Allocator.resize_eq_none hroom] at hopened
        cases hopened
      · rw [includePathFds, Nat.div_eq_of_lt hfds] at hfd
        cases hfd
      · rw [hend, Nat.sub_self]
        rfl
      · exact read_congr fun i _ hi =>
          (Allocator.resize_mem hresize (by omega)).trans (hmem i (by omega))
    have hreplaced : s'.content = replaced s.content replaceIndex replaceSize content asBase64 := by
      rw [hcontent, htail, replaced]
    refine ⟨hreplaced, ?_⟩
    rw [← hreplaced]
    exact (length_read _ _).symm

theorem replaces_long_file : Replaces 4096 sampleState 0 14 (ascii "a") (ascii "var a = 1;") true :=
  (replaces_iff 4096 sampleState 0 14 (ascii "a") (ascii "var a = 1;") true (by decide)
    (by decide)).mpr (.inr (.inr (.inr (by decide))))

end Hc.WebPacker
