import Hc.Core.Allocator
import Hc.Foundation.InsertionSort
import Hc.Foundation.Memory
import Hc.Tools.Tar

/-!
# The traversal of a directory

`add` of `hc/tools/tar/ix.c`. There is no recursion: the directories that are open are frames in the
memory of the allocator, one behind the other. A frame is a `struct state`, the directory entries as
`getdents` stores them, and an array of pointers to the names of the entries, which is sorted in
place. A frame that is left is not freed; the next one is written over it.

Addresses are offsets from `alloc.mem`, and pointers in memory are addresses in eight bytes.
-/

namespace Hc.Tar

open Memory

/-! ## What `add` calls -/

/-- A `struct linux_dirent64`. -/
structure Dirent where
  /-- `d_ino` and `d_off`. -/
  head : List UInt8
  type : UInt8
  name : List UInt8
  padding : List UInt8
  head_length : head.length = 16
  no_nul : 0 ∉ name
  reclen_lt : 20 + name.length + padding.length < 2 ^ 16

namespace Dirent

/-- `d_reclen`. -/
def reclen (entry : Dirent) : ℕ := 20 + entry.name.length + entry.padding.length

/-- The entry as it is stored. -/
def bytes (entry : Dirent) : List UInt8 :=
  entry.head ++ leBytes 2 entry.reclen ++ [entry.type] ++ entry.name ++ [0] ++ entry.padding

end Dirent

/-- What a path leads to. A directory is listed by several calls of `getdents`. -/
inductive Node where
  | dir (reads : List (List Dirent))
  | file (content : List UInt8)
  | other

/-- The reasons to give up. -/
inductive Failure where
  | openat
  | fstatat
  | notRegular
  | getdents
  | resize
  | writeRecord
deriving DecidableEq

/-- The system that `add` runs on. -/
structure System where
  heap : Heap
  /-- The address of the reserved memory. -/
  mem : ℕ
  mem_pos : 0 < mem
  node : Path → Node
  /-- The descriptor of a new file while others are in use, if there is one left. -/
  openFd : List ℕ → Option ℕ
  openFd_spec : ∀ used fd, openFd used = some fd → fd ∉ used ∧ fd < 2 ^ 31
  /-- Whether a call fails on a path. -/
  fails : Failure → Path → Bool

/-- A record that was written. -/
structure Record where
  pre : List UInt8
  name : List UInt8
  content : Option (List UInt8)
deriving DecidableEq

/-- The variables of `add`, the descriptors in use, `prefix`, and the output. -/
structure Machine where
  alloc : Allocator
  allocSize : ℕ
  /-- The pointer `state`. -/
  state : ℕ
  currentFd : ℕ
  fds : List (ℕ × Path)
  pre : List UInt8
  records : List Record
  written : List UInt8

/-- Why a run has no result: a call failed, or the model gave it too few iterations. -/
inductive Stop where
  | failed (failure : Failure)
  | fuel
deriving DecidableEq

/-- `isDot`; the byte behind a text is zero. -/
def isDot (name : List UInt8) : Bool := byteAt name 0 == 46 && byteAt name 1 == 0

/-- `isDotDot`. -/
def isDotDot (name : List UInt8) : Bool :=
  byteAt name 0 == 46 && byteAt name 1 == 46 && byteAt name 2 == 0

namespace Machine

/-- The number in `size` bytes of memory. -/
def load (m : Machine) (size offset : ℕ) : ℕ := leNat (read m.alloc.mem offset size)

/-- Store a number in `size` bytes of memory. -/
def store (m : Machine) (size offset value : ℕ) : Machine :=
  { m with alloc := { m.alloc with mem := write m.alloc.mem offset (leBytes size value) } }

/-- Bytes that are stored behind the memory in use. -/
def append (m : Machine) (bytes : List UInt8) : Machine :=
  { m with
    alloc := { m.alloc with mem := write m.alloc.mem m.allocSize bytes }
    allocSize := m.allocSize + bytes.length }

/-- The text at an offset. -/
def cstr (m : Machine) (offset : ℕ) : List UInt8 :=
  (read m.alloc.mem offset (m.alloc.size - offset)).takeWhile (· != 0)

/-- `close`. -/
def close (m : Machine) (fd : ℕ) : Machine := { m with fds := m.fds.filter (·.1 != fd) }

/-- The array of pointers at an offset. -/
def pointers (m : Machine) : ℕ → ℕ → List ℕ
  | _, 0 => []
  | offset, length + 1 => m.load 8 offset :: m.pointers (offset + 8) length

variable (sys : System)

/-- `allocator_resize`. -/
def resize (m : Machine) (newSize : ℕ) : Except Stop Machine :=
  match m.alloc.resize sys.heap newSize with
  | none => .error (.failed .resize)
  | some alloc => .ok { m with alloc }

/-- `openat`, with `currentFd` as the result. -/
def openat (m : Machine) (path : Path) : Except Stop Machine :=
  if sys.fails .openat path then .error (.failed .openat)
  else
    match sys.openFd (m.fds.map Prod.fst) with
    | none => .error (.failed .openat)
    | some fd => .ok { m with currentFd := fd, fds := (fd, path) :: m.fds }

/-- `sortNames` on the array of pointers at an offset. -/
def sortNames (m : Machine) (names length : ℕ) : Machine :=
  let precedes (left right : ℕ) : Bool :=
    cstrCmp (m.cstr (left - sys.mem)) (m.cstr (right - sys.mem)) < 0
  let sorted := InsertionSort.sort precedes (m.pointers names length)
  { m with alloc := { m.alloc with mem := write m.alloc.mem names (sorted.flatMap (leBytes 8)) } }

/-! ## The loops -/

/-- The loop that reads directory entries, with what is left to read. -/
def readEntries (path : Path) : List (List Dirent) → Machine → Except Stop Machine
  | [], m => do
    let m ← m.resize sys (m.allocSize + 8192)
    if sys.fails .getdents path then .error (.failed .getdents) else .ok m
  | entries :: reads, m => do
    let m ← m.resize sys (m.allocSize + 8192)
    if sys.fails .getdents path then .error (.failed .getdents)
    else
      let bytes := entries.flatMap Dirent.bytes
      if bytes.length = 0 then .ok m
      else readEntries path reads (m.append bytes)

/-- `getdents` on what is not a directory fails. -/
def readDirectory (m : Machine) : Except Stop Machine :=
  match m.fds.lookup m.currentFd with
  | none => .error (.failed .getdents)
  | some path =>
    match sys.node path with
    | .dir reads => readEntries sys path reads m
    | _ => .error (.failed .getdents)

/-- One more pointer at the end of the list of names. -/
def pushName (m : Machine) (currentName : ℕ) : Except Stop Machine := do
  let m := { m with allocSize := m.allocSize + 8 }
  let m ← m.resize sys m.allocSize
  return m.store 8 (m.allocSize - 8) currentName

/-- The loop that builds the list of names, from the entry at `current` on. -/
def buildNames : ℕ → ℕ → Machine → Except Stop Machine
  | 0, _, _ => .error .fuel
  | fuel + 1, current, m =>
    if sys.mem + current = m.load 8 (m.state - sys.mem + 8) then .ok m
    else
      let reclen := m.load 2 (current + 16)
      let currentName := m.cstr (current + 19)
      if isDot currentName || isDotDot currentName then buildNames fuel (current + reclen) m
      else do
        let m ← m.pushName sys (sys.mem + (current + 19))
        buildNames fuel (current + reclen) m

/-- The outer loop of `add` up to the loop over the entries: `currentFd` becomes a new frame. -/
def enter (m : Machine) : Except Stop Machine := do
  let newState := m.allocSize
  let m ← ({ m with allocSize := m.allocSize + 24 } : Machine).readDirectory sys
  let m := m.store 8 newState m.state
  let m := m.store 8 (newState + 8) (sys.mem + m.allocSize)
  let m := m.store 4 (newState + 16) m.currentFd
  let m := { m with state := sys.mem + newState }
  let m ← m.buildNames sys (m.allocSize + 1) (newState + 24)
  let names := m.load 8 (newState + 8) - sys.mem
  return m.sortNames sys names ((m.allocSize - names) / 8)

/-- The part of the loop over the entries that writes the one that was opened, and whether it is a
directory, which is entered. -/
def writeEntry (path : Path) (name : List UInt8) (m : Machine) : Except Stop (Bool × Machine) :=
  if sys.fails .fstatat path then .error (.failed .fstatat)
  else
    match sys.node path with
    | .other => .error (.failed .notRegular)
    | .dir _ =>
      match writeRecord m.pre name none with
      | none => .error (.failed .writeRecord)
      | some bytes =>
        if sys.fails .writeRecord path then .error (.failed .writeRecord)
        else
          .ok (true, { m with
            records := m.records ++ [⟨m.pre, name, none⟩]
            written := m.written ++ bytes
            pre := enterDirectory m.pre name })
    | .file content =>
      match writeRecord m.pre name (some content) with
      | none => .error (.failed .writeRecord)
      | some bytes =>
        if sys.fails .writeRecord path then .error (.failed .writeRecord)
        else
          .ok (false, ({ m with
            records := m.records ++ [⟨m.pre, name, some content⟩]
            written := m.written ++ bytes } : Machine).close m.currentFd)

/-- The part of the loop over the entries from the next entry on. -/
def nextEntry (m : Machine) : Except Stop (Bool × Machine) := do
  let state := m.state - sys.mem
  let names := m.load 8 (state + 8)
  let name := m.cstr (m.load 8 (names - sys.mem) - sys.mem)
  let m := m.store 8 (state + 8) (names + 8)
  match m.fds.lookup (m.load 4 (state + 16)) with
  | none => .error (.failed .openat)
  | some directory =>
    let path := directory ++ [name]
    let m ← m.openat sys path
    writeEntry sys path name m

/-- The loops of `add`, for `fuel` iterations at most: at the start of the outer loop, or in the
loop over the entries of the current frame. -/
def loop : ℕ → Bool → Machine → Except Stop Machine
  | 0, _, _ => .error .fuel
  | fuel + 1, true, m => do
    let m ← m.enter sys
    loop fuel false m
  | fuel + 1, false, m =>
    let state := m.state - sys.mem
    if m.load 8 (state + 8) = sys.mem + m.allocSize then
      let m := m.close (m.load 4 (state + 16))
      let prev := m.load 8 state
      if prev = 0 then .ok m
      else loop fuel false { m with allocSize := state, state := prev, pre := leaveDirectory m.pre }
    else do
      let (entered, m) ← m.nextEntry sys
      loop fuel entered m

/-- `add` of the directory at a path. -/
def add (fuel : ℕ) (m : Machine) (path : Path) : Except Stop Machine := do
  let m ← ({ m with allocSize := 0, state := 0 } : Machine).openat sys path
  m.loop sys fuel true

end Machine

end Hc.Tar
