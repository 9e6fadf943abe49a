import Hc.Core.Util
import Hc.Foundation.Bytes
import Hc.Tools.FileTree

/-!
# The archivers

`hc/tools/tar` writes the content of a directory as an archive, and `hc/tools/untar`
recreates an archive below its working directory. System calls are taken to
succeed where the file system allows them, and files do not change meanwhile.
-/

namespace Hc.Tar

/-! ## `tar.h` -/

def offsetName : ℕ := 0
def offsetMode : ℕ := 100
def offsetSize : ℕ := 124
def offsetMtime : ℕ := 136
def offsetChksum : ℕ := 148
def offsetTypeflag : ℕ := 156
def offsetMagic : ℕ := 257
def offsetVersion : ℕ := 263
def offsetPrefix : ℕ := 345
def maxNameLen : ℕ := 100
def maxPrefixLen : ℕ := 155
def maxFileSize : ℕ := 0o77777777777

/-! ## Writing -/

/-- `enterDirectory`: the new content of `prefix`. -/
def enterDirectory (pre name : List UInt8) : List UInt8 :=
  if pre = [] then name
  else if pre.length > maxPrefixLen then pre
  else pre ++ 47 :: name

/-- `leaveDirectory`: the last name and the slash before it are taken off. -/
def leaveDirectory (pre : List UInt8) : List UInt8 :=
  ((pre.reverse.dropWhile (· != 47)).drop 1).reverse

/-- The octal digits of a number in a field of the given width. -/
def octalField (number : ℕ) : ℕ → List UInt8
  | 0 => []
  | width + 1 =>
    byteAt (ascii "01234567") ((number >>> (3 * width)) &&& 7) :: octalField number width

/-- The header that `writeRecord` builds, before the checksum is filled in. -/
def headerFields (pre name : List UInt8) (typeflag : UInt8) (size : ℕ) : Bytes 512 :=
  let buffer : Bytes 512 := List.Vector.replicate 512 0
  let buffer := buffer.write offsetName name
  let buffer := buffer.write offsetPrefix pre
  let buffer := buffer.write offsetMode (ascii "0000777")
  let buffer := buffer.write offsetSize (octalField size 11)
  let buffer := buffer.write offsetMtime (ascii "00000000000")
  let buffer := buffer.write offsetChksum (ascii "        ")
  let buffer := buffer.write offsetTypeflag [typeflag]
  let buffer := buffer.write offsetMagic (ascii "ustar")
  buffer.write offsetVersion (ascii "00")

/-- The header that `writeRecord` writes. -/
def header (pre name : List UInt8) (typeflag : UInt8) (size : ℕ) : Bytes 512 :=
  let buffer := headerFields pre name typeflag size
  let checksum := (buffer.toList.map UInt8.toNat).sum
  buffer.write offsetChksum (octalField checksum 7)

/-- `math_PAD_BYTES(size, 512)`. -/
def padBytes (size : ℕ) : ℕ := (512 - size % 512) % 512

/-- `writeRecord`: the bytes written for a file with its content, or for a directory;
`none` when a length check fails. -/
def writeRecord (pre name : List UInt8) (content : Option (List UInt8)) : Option (List UInt8) :=
  if name.length > maxNameLen ∨ pre.length > maxPrefixLen ∨
      (content.getD []).length > maxFileSize then
    none
  else
    match content with
    | none => some (header pre name 53 0).toList
    | some content =>
      some ((header pre name 48 content.length).toList ++
        if content.length = 0 then []
        else content ++ List.replicate (padBytes content.length) 0)

/-- `util_cstrCmp`. -/
def cstrCmp : List UInt8 → List UInt8 → ℤ
  | [], [] => 0
  | [], r :: _ => -(r.toNat : ℤ)
  | l :: _, [] => l.toNat
  | l :: left, r :: right =>
    if l ≠ r then (l.toNat : ℤ) - r.toNat else cstrCmp left right

/-- One insertion of `sortNames`; the sorted part is given from its end. -/
def insertName (item : Item) : List Item → List Item
  | [] => [item]
  | prev :: before =>
    if cstrCmp item.name prev.name ≥ 0 then item :: prev :: before
    else prev :: insertName item before

/-- `sortNames`. -/
def sortNames (items : List Item) : List Item :=
  (items.foldl (fun sorted item => insertName item sorted) []).reverse

/-- The entries of a directory, with the directories among them sorted. -/
def sortedItems : Forest → List Item
  | .nil => []
  | .file name content rest => .file name content :: sortedItems rest
  | .dir name children rest =>
    .dir name (Forest.ofItems (sortNames (sortedItems children))) :: sortedItems rest

/-- The directory in the order in which `add` goes through it. -/
def sorted (f : Forest) : Forest := Forest.ofItems (sortNames (sortedItems f))

/-- The loop of `add` over sorted entries: the bytes written, and `prefix` afterwards. -/
def addEntries : Forest → List UInt8 → Option (List UInt8 × List UInt8)
  | .nil, pre => some ([], pre)
  | .file name content rest, pre => do
    let record ← writeRecord pre name (some content)
    let (bytes, pre) ← addEntries rest pre
    return (record ++ bytes, pre)
  | .dir name children rest, pre => do
    let record ← writeRecord pre name none
    let (inner, pre) ← addEntries children (enterDirectory pre name)
    let (bytes, pre) ← addEntries rest (leaveDirectory pre)
    return (record ++ inner ++ bytes, pre)

/-- `add` with an empty prefix, followed by `finaliseOutput`. -/
def archive (f : Forest) : Option (List UInt8) := do
  let (bytes, _) ← addEntries (sorted f) []
  return bytes ++ List.replicate 1024 0

end Hc.Tar

namespace Hc.Untar

open Tar

/-! ## The file system -/

/-- The path after one more component. -/
def descend (path : Path) (component : List UInt8) : Path :=
  if component = [] ∨ component = [46] then path
  else if component = [46, 46] then path.dropLast
  else path ++ [component]

/-- The path that a text leads to, component by component. -/
def resolve (path : Path) (component : List UInt8) : List UInt8 → Path
  | [] => descend path component
  | c :: text =>
    if c = 47 then resolve (descend path component) [] text
    else resolve path (component ++ [c]) text

/-- The path that a new entry `name` gets below the directory `prefix`, if it can be
created there. -/
def target (fs : FileSystem) (pre name : List UInt8) : Option Path :=
  let directory := if pre = [] then [] else resolve [] [] pre
  let path := resolve directory [] name
  if fs directory = some .dir ∧ name ≠ [] ∧ fs path.dropLast = some .dir ∧ fs path = none then
    some path
  else
    none

/-- The file system with another entry at a path. -/
def update (fs : FileSystem) (path : Path) (entry : Entry) : FileSystem :=
  fun other => if other = path then some entry else fs other

/-- An empty directory. -/
def emptyDirectory : FileSystem := fun path => if path = [] then some .dir else none

/-! ## Reading -/

/-- The string at an offset of a record. -/
def cstr (record : List UInt8) (offset : ℕ) : List UInt8 :=
  (record.drop offset).takeWhile (· != 0)

/-- `parseSize`. -/
def parseSize (record : List UInt8) : Option ℕ :=
  ((record.drop offsetSize).take 11).foldlM (fun size c =>
    if 48 ≤ c.toNat ∧ c.toNat ≤ 55 then some (size * 8 + (c.toNat - 48)) else none) 0

/-- What the next record is for: a header, after some zero records; the content of
a file, of which some bytes are missing; or nothing, because the loop was left. -/
inductive Mode where
  | header (zeroRecordCount : ℕ)
  | data (path : Path) (size : ℕ)
  | stopped (status : ℕ)

structure State where
  fs : FileSystem
  mode : Mode

/-- `writeToFile` on the open file. -/
def appendTo (fs : FileSystem) (path : Path) (bytes : List UInt8) : FileSystem :=
  match fs path with
  | some (.file content) => update fs path (.file (content ++ bytes))
  | _ => fs

/-- The header part of the loop of `start`. -/
def onHeader (fs : FileSystem) (zeroRecordCount : ℕ) (record : List UInt8) : State :=
  let typeflag := byteAt record offsetTypeflag
  if typeflag = 0 then
    if record.all (· == 0) then
      if zeroRecordCount + 1 < 2 then ⟨fs, .header (zeroRecordCount + 1)⟩ else ⟨fs, .stopped 0⟩
    else
      ⟨fs, .stopped 1⟩
  else if zeroRecordCount > 0 then
    ⟨fs, .stopped 1⟩
  else if typeflag = 53 then
    match target fs (cstr record offsetPrefix) (cstr record offsetName) with
    | none => ⟨fs, .stopped 1⟩
    | some path => ⟨update fs path .dir, .header 0⟩
  else if typeflag ≠ 48 then
    ⟨fs, .stopped 1⟩
  else
    match parseSize record with
    | none => ⟨fs, .stopped 1⟩
    | some size =>
      match target fs (cstr record offsetPrefix) (cstr record offsetName) with
      | none => ⟨fs, .stopped 1⟩
      | some path =>
        ⟨update fs path (.file []), if size > 0 then .data path size else .header 0⟩

/-- The loop of `start` on one record. -/
def step (s : State) (record : List UInt8) : State :=
  match s.mode with
  | .header zeroRecordCount => onHeader s.fs zeroRecordCount record
  | .data path size =>
    let toWrite := min 512 size
    ⟨appendTo s.fs path (record.take toWrite),
      if size - toWrite > 0 then .data path (size - toWrite) else .header 0⟩
  | .stopped status => ⟨s.fs, .stopped status⟩

/-- The records that `readInput` delivers; an incomplete one is an error. -/
def records (input : List UInt8) : List (List UInt8) :=
  if 512 ≤ input.length then input.take 512 :: records (input.drop 512) else []
termination_by input.length
decreasing_by
  rw [List.length_drop]
  omega

/-- The state when the input ends. -/
def run (s : State) (input : List UInt8) : State := (records input).foldl step s

/-- `start`: the exit status and what is left in the working directory, which was
empty before. -/
def untar (input : List UInt8) : ℕ × FileSystem :=
  let s := run ⟨emptyDirectory, .header 0⟩ input
  match s.mode with
  | .stopped status => (status, s.fs)
  | _ => (1, s.fs)

end Hc.Untar
