import Mathlib.Data.List.TakeWhile
import Hc.Foundation.Attempt
import Hc.Tools.TarAdd
import Hc.Tools.TarOrder

/-!
# The frames of `add`

What the memory holds for an open directory, and that a directory that is entered gets such a frame
behind the memory in use, with the names that `getdents` gave in order.
-/

namespace Hc.Tar

open Memory

/-- How far a run can go: the paths it can come to, how many descriptors are in use before a
path is opened, the size that the memory gets, and the size of the reserved range. -/
structure Limits where
  paths : List Path
  files : ℕ
  memory : ℕ
  reserve : ℕ

/-- A run that gives up because the system made a call fail that the run can make; that
`writeRecord` fails, or that an entry is neither a file nor a directory, is not among the
reasons. -/
inductive Expected (sys : System) (lim : Limits) : Stop → Prop where
  | openat (path : Path) (hpath : path ∈ lim.paths) (h : sys.fails .openat path = true) :
    Expected sys lim (.failed .openat)
  | openFd (used : List ℕ) (hused : used.length ≤ lim.files) (h : sys.openFd used = none) :
    Expected sys lim (.failed .openat)
  | fstatat (path : Path) (hpath : path ∈ lim.paths) (h : sys.fails .fstatat path = true) :
    Expected sys lim (.failed .fstatat)
  | getdents (path : Path) (hpath : path ∈ lim.paths) (h : sys.fails .getdents path = true) :
    Expected sys lim (.failed .getdents)
  | reserve (h : lim.reserve < alignForward lim.memory sys.heap.pageSize) :
    Expected sys lim (.failed .resize)
  | commit (offset n : ℕ) (hend : offset + n ≤ alignForward lim.memory sys.heap.pageSize)
    (h : sys.heap.commit offset n = false) : Expected sys lim (.failed .resize)

/-- The system makes no call fail that a run within the limits can make, and the reserved range
has room for it. -/
structure Supplied (sys : System) (lim : Limits) : Prop where
  calls : ∀ failure, ∀ path ∈ lim.paths, sys.fails failure path = false
  files : ∀ used : List ℕ, used.length ≤ lim.files → (sys.openFd used).isSome
  reserve : alignForward lim.memory sys.heap.pageSize ≤ lim.reserve
  commit : ∀ offset n, sys.heap.commit offset n = true

theorem Supplied.not_expected {sys : System} {lim : Limits} (h : Supplied sys lim) (stop : Stop) :
    ¬Expected sys lim stop := by
  intro hstop
  cases hstop with
  | openat path hpath hfails => simp [h.calls _ path hpath] at hfails
  | openFd used hused hnone => simpa [hnone] using h.files used hused
  | fstatat path hpath hfails => simp [h.calls _ path hpath] at hfails
  | getdents path hpath hfails => simp [h.calls _ path hpath] at hfails
  | reserve hfull => exact absurd h.reserve (not_le.mpr hfull)
  | commit offset n _ hcommit => simp [h.commit] at hcommit

/-- A text in memory that ends in front of an address. -/
structure Text (mem : ℕ → UInt8) (stop offset : ℕ) (name : List UInt8) : Prop where
  no_nul : 0 ∉ name
  fits : offset + (name.length + 1) ≤ stop
  bytes : read mem offset (name.length + 1) = name ++ [0]

theorem Text.congr {mem mem' : ℕ → UInt8} {stop offset : ℕ} {name : List UInt8}
    (h : Text mem stop offset name) (hsame : SameBelow stop mem mem') :
      Text mem' stop offset name where
  no_nul := h.no_nul
  fits := h.fits
  bytes := (hsame.read_eq h.fits).trans h.bytes

namespace Machine

variable {m m' : Machine} {size offset value : ℕ}

theorem load_eq (h : read m.alloc.mem offset size = leBytes size value) (hlt : value < 256 ^ size) :
    m.load size offset = value := by
  rw [load, h, leNat_leBytes, Nat.mod_eq_of_lt hlt]

/-- The text that a pointer leads to. -/
theorem cstr_eq {stop : ℕ} {name : List UInt8} (h : Text m.alloc.mem stop offset name)
    (hstop : stop ≤ m.alloc.size) : m.cstr offset = name := by
  have hfits := h.fits
  obtain ⟨rest, hrest⟩ : ∃ rest, m.alloc.size - offset = name.length + 1 + rest :=
    ⟨m.alloc.size - offset - (name.length + 1), by omega⟩
  have hname : ∀ c ∈ name, (c != 0) = true := by
    intro c hc
    have hne : c ≠ 0 := fun hzero => h.no_nul (hzero ▸ hc)
    simpa using hne
  rw [cstr, hrest, read_add, h.bytes, List.append_assoc, List.takeWhile_append_of_pos hname]
  simp

theorem cstr_no_nul (m : Machine) (offset : ℕ) : 0 ∉ m.cstr offset := by
  intro hmem
  have hne := List.mem_takeWhile_imp hmem
  simp at hne

theorem length_flatMap_leBytes (values : List ℕ) :
    (values.flatMap (leBytes 8)).length = 8 * values.length := by
  induction values with
  | nil => rfl
  | cons value values ih =>
      rw [List.flatMap_cons, List.length_append, length_leBytes, ih, List.length_cons]
      omega

theorem pointers_eq {values : List ℕ} (hvalues : ∀ value ∈ values, value < 2 ^ 64)
    (h : read m.alloc.mem offset (8 * values.length) = values.flatMap (leBytes 8)) :
    m.pointers offset values.length = values := by
  induction values generalizing offset with
  | nil => rfl
  | cons value values ih =>
      rw [List.length_cons, Nat.mul_succ, Nat.add_comm _ 8, read_add, List.flatMap_cons] at h
      obtain ⟨hfirst, hrest⟩ := List.append_inj h (by simp)
      rw [List.length_cons, pointers, load_eq hfirst (hvalues value List.mem_cons_self),
        ih (fun v hv => hvalues v (.tail _ hv)) hrest]

/-! ## Reading a directory -/

variable {sys : System} {lim : Limits}

/-- The committed memory is inside the reserved one, and that is inside the address space. -/
structure Fits (sys : System) (lim : Limits) (m : Machine) : Prop where
  commit : m.alloc.commitSize sys.heap ≤ m.alloc.reserveSize
  reserve : sys.mem + m.alloc.reserveSize < 2 ^ 64
  reserve_eq : m.alloc.reserveSize = lim.reserve

theorem Fits.size_lt (h : Fits sys lim m) : sys.mem + m.alloc.size < 2 ^ 64 := by
  have hcommit := h.commit
  have hreserve := h.reserve
  have hle : m.alloc.size ≤ m.alloc.commitSize sys.heap := le_alignForward sys.heap.pageSize.pos
  omega

theorem Fits.append {bytes : List UInt8} (h : Fits sys lim m) : Fits sys lim (m.append bytes) :=
  ⟨h.commit, h.reserve, h.reserve_eq⟩

/-- More memory is in use, and what was in use is unchanged. -/
structure Grows (sys : System) (lim : Limits) (m m' : Machine) : Prop where
  same : m' = { m with alloc := m'.alloc, allocSize := m'.allocSize }
  below : SameBelow m.allocSize m.alloc.mem m'.alloc.mem
  le : m.allocSize ≤ m'.allocSize
  allocated : m'.allocSize ≤ m'.alloc.size
  fits : Fits sys lim m'

theorem Grows.trans {m'' : Machine} (h : Grows sys lim m m') (h' : Grows sys lim m' m'') :
    Grows sys lim m m'' where
  same := by rw [h'.same, h.same]
  below := h.below.trans (h'.below.mono h.le)
  le := h.le.trans h'.le
  allocated := h'.allocated
  fits := h'.fits

theorem Grows.append {bytes : List UInt8} (hfits : Fits sys lim m)
    (hsize : m.allocSize + bytes.length ≤ m.alloc.size) : Grows sys lim m (m.append bytes) where
  same := rfl
  below := sameBelow_write bytes le_rfl
  le := Nat.le_add_right _ _
  allocated := hsize
  fits := hfits.append

/-- The memory in use is kept by a resize that has room for it. -/
theorem resize_spec (hfits : Fits sys lim m) {newSize : ℕ} (hsize : m.allocSize ≤ newSize)
    (hmemory : newSize ≤ lim.memory) :
    Attempts (Expected sys lim) (m.resize sys newSize) fun m' =>
      Grows sys lim m m' ∧ m'.allocSize = m.allocSize ∧ m'.alloc.size = newSize := by
  unfold resize
  split
  next hresize =>
    have hle : alignForward newSize sys.heap.pageSize ≤
        alignForward lim.memory sys.heap.pageSize :=
      alignForward_mono hmemory
    rcases Allocator.of_resize_eq_none hresize with hfull | ⟨hcommit, hfails⟩
    · exact .error (.reserve (hfits.reserve_eq ▸ hfull.trans_le hle))
    · exact .error (.commit _ _ (by omega) hfails)
  next alloc hresize =>
    obtain ⟨hcommit, hreserve⟩ := Allocator.resize_commitSize hresize hfits.commit
    have hle : newSize ≤ alignForward newSize sys.heap.pageSize :=
      le_alignForward sys.heap.pageSize.pos
    have hnew := Allocator.resize_size hresize
    refine .ok ⟨⟨rfl, fun i hi => ?_, le_rfl, ?_, hcommit, ?_, ?_⟩, rfl, hnew⟩
    · exact Allocator.resize_mem hresize (by omega)
    · exact hsize.trans hnew.ge
    · exact hreserve ▸ hfits.reserve
    · exact hreserve.trans hfits.reserve_eq

end Machine

theorem Dirent.length_bytes (entry : Dirent) : entry.bytes.length = entry.reclen := by
  have hhead := entry.head_length
  simp only [Dirent.bytes, List.length_append, length_leBytes, List.length_singleton, Dirent.reclen]
  omega

theorem Dirent.length_bytes_pos {entries : List Dirent} (h : entries ≠ []) :
    (entries.flatMap Dirent.bytes).length ≠ 0 := by
  obtain ⟨entry, rest, rfl⟩ := List.exists_cons_of_ne_nil h
  have hlength := entry.length_bytes
  rw [List.flatMap_cons, List.length_append, hlength, Dirent.reclen]
  omega

namespace Machine

variable {m m' : Machine} {sys : System} {lim : Limits}

/-- All entries of a directory are stored behind the memory in use. -/
theorem readEntries_spec {path : Path} {reads : List (List Dirent)}
    (hreads : ∀ entries ∈ reads, entries ≠ [] ∧ (entries.flatMap Dirent.bytes).length ≤ 8192)
    (hfits : Fits sys lim m) (hpath : path ∈ lim.paths)
    (hmemory : m.allocSize + (reads.flatten.flatMap Dirent.bytes).length + 8192 ≤ lim.memory) :
    Attempts (Expected sys lim) (m.readEntries sys path reads) fun m' =>
      Grows sys lim m m' ∧
        m'.allocSize = m.allocSize + (reads.flatten.flatMap Dirent.bytes).length ∧
        read m'.alloc.mem m.allocSize (reads.flatten.flatMap Dirent.bytes).length =
          reads.flatten.flatMap Dirent.bytes := by
  induction reads generalizing m with
  | nil =>
      rw [readEntries]
      refine (resize_spec hfits (Nat.le_add_right _ _) hmemory).bind
        fun m' ⟨hgrows, halloc, _⟩ => ?_
      split
      next hfails => exact .error (.getdents path hpath hfails)
      next => exact .ok ⟨hgrows, halloc, rfl⟩
  | cons entries reads ih =>
      obtain ⟨hentries, hlength⟩ := hreads entries List.mem_cons_self
      rw [List.flatten_cons, List.flatMap_append, List.length_append] at hmemory
      rw [readEntries]
      refine (resize_spec hfits (Nat.le_add_right _ _) (by omega)).bind
        fun m₁ ⟨hgrows₁, halloc, hsize⟩ => ?_
      split
      next hfails => exact .error (.getdents path hpath hfails)
      next =>
        dsimp only
        rw [if_neg (Dirent.length_bytes_pos hentries)]
        have hmemory₁ : (m₁.append (entries.flatMap Dirent.bytes)).allocSize +
            (reads.flatten.flatMap Dirent.bytes).length + 8192 ≤ lim.memory := by
          change m₁.allocSize + (entries.flatMap Dirent.bytes).length + _ + 8192 ≤ _
          omega
        refine (ih (fun other hother => hreads other (.tail _ hother)) hgrows₁.fits.append
          hmemory₁).mono fun m' ⟨hgrows, hsize', hread⟩ => ?_
        have hbytes : read m'.alloc.mem m.allocSize (entries.flatMap Dirent.bytes).length =
            entries.flatMap Dirent.bytes := by
          rw [← halloc, hgrows.below.read_eq le_rfl]
          exact read_write_self _ _
        have happend : Grows sys lim m₁ (m₁.append (entries.flatMap Dirent.bytes)) :=
          .append hgrows₁.fits (by omega)
        rw [List.flatten_cons, List.flatMap_append, List.length_append, read_add, hbytes]
        refine ⟨(hgrows₁.trans happend).trans hgrows, ?_, ?_⟩
        · rw [hsize', append, halloc, Nat.add_assoc]
        · rw [append, halloc] at hread
          rw [hread]

/-! ## The names -/

/-- The pointers to the names of the entries that are not skipped, the first entry being at an
offset. -/
def namePointers (sys : System) (current : ℕ) : List Dirent → List ℕ
  | [] => []
  | entry :: entries =>
    if isDot entry.name || isDotDot entry.name then namePointers sys
      (current + entry.reclen) entries
    else (sys.mem + (current + 19)) :: namePointers sys (current + entry.reclen) entries

/-- The names of the entries that are not skipped. -/
def visibleNames (entries : List Dirent) : List (List UInt8) :=
  (entries.map Dirent.name).filter fun name => !(isDot name || isDotDot name)

/-- The length and the name of an entry in memory. -/
theorem read_dirent {mem : ℕ → UInt8} {current : ℕ} {entry : Dirent}
    (h : read mem current entry.reclen = entry.bytes) :
    read mem (current + 16) 2 = leBytes 2 entry.reclen ∧
      read mem (current + 19) (entry.name.length + 1) = entry.name ++ [0] := by
  have hreclen : entry.reclen = 20 + entry.name.length + entry.padding.length := rfl
  have hhead := entry.head_length
  have htail : entry.bytes.drop 16 =
      leBytes 2 entry.reclen ++ ([entry.type] ++ (entry.name ++ [0] ++ entry.padding)) := by
    simp only [Dirent.bytes, List.append_assoc]
    exact List.drop_left' hhead
  have hdrop : read mem (current + 16) (entry.reclen - 16) = entry.bytes.drop 16 := by
    rw [← drop_read current (by omega), h]
  refine ⟨?_, ?_⟩
  · rw [← take_read (current + 16) (by omega : 2 ≤ entry.reclen - 16), hdrop, htail]
    exact List.take_left' (length_leBytes 2 _)
  · have hname := congrArg (List.drop 3) hdrop
    rw [drop_read _ (by omega), htail] at hname
    have hname := congrArg (List.take (entry.name.length + 1)) hname
    rw [take_read _ (by omega)] at hname
    rw [show current + 19 = current + 16 + 3 from rfl, hname]
    have hdrop₃ (more : List UInt8) : (leBytes 2 entry.reclen ++ ([entry.type] ++ more)).drop 3 =
      more := by
      rw [← List.append_assoc]
      exact List.drop_left' (by simp)
    rw [hdrop₃]
    exact List.take_left' (by simp)

theorem pushName_spec (hfits : Fits sys lim m) (hmemory : m.allocSize + 8 ≤ lim.memory)
    (currentName : ℕ) :
    Attempts (Expected sys lim) (m.pushName sys currentName) fun m' =>
      Grows sys lim m m' ∧ m'.allocSize = m.allocSize + 8 ∧
        read m'.alloc.mem m.allocSize 8 = leBytes 8 currentName := by
  rw [pushName]
  have hresize := resize_spec (m := { m with allocSize := m.allocSize + 8 })
    ⟨hfits.commit, hfits.reserve, hfits.reserve_eq⟩ le_rfl hmemory
  refine hresize.bind fun m₁ ⟨hgrows, halloc, hsize⟩ => .ok ?_
  have hoffset : m₁.allocSize - 8 = m.allocSize := by
    rw [halloc]
    exact Nat.add_sub_cancel _ _
  rw [hoffset]
  refine ⟨⟨?_, ?_, ?_, ?_, hgrows.fits.commit, hgrows.fits.reserve, hgrows.fits.reserve_eq⟩,
    halloc, ?_⟩
  · exact congrArg (fun x : Machine => { x with
      alloc := (m₁.store 8 m.allocSize currentName).alloc, allocSize := m₁.allocSize }) hgrows.same
  · exact (hgrows.below.mono (Nat.le_add_right _ _)).trans (sameBelow_write _ le_rfl)
  · exact halloc.ge.trans' (Nat.le_add_right _ _)
  · exact hgrows.allocated
  · exact read_write_of_length _ (length_leBytes 8 currentName)

/-- A pointer is stored behind the memory in use for every name that is not skipped. -/
theorem buildNames_spec {entries : List Dirent} {fuel current first : ℕ} (hfits : Fits sys lim m)
    (hallocated : m.allocSize ≤ m.alloc.size)
    (hnames : read m.alloc.mem (m.state - sys.mem + 8) 8 = leBytes 8 (sys.mem + first))
    (hstate : m.state - sys.mem + 16 ≤ first) (hfirst : first ≤ m.allocSize)
    (hend : current + (entries.flatMap Dirent.bytes).length = first)
    (hread : read m.alloc.mem current (entries.flatMap Dirent.bytes).length =
      entries.flatMap Dirent.bytes) (hfuel : entries.length < fuel)
    (hmemory : m.allocSize + 8 * (namePointers sys current entries).length ≤ lim.memory) :
    Attempts (Expected sys lim) (m.buildNames sys fuel current) fun m' =>
      Grows sys lim m m' ∧
        m'.allocSize = m.allocSize + 8 * (namePointers sys current entries).length ∧
        read m'.alloc.mem m.allocSize (8 * (namePointers sys current entries).length) =
          (namePointers sys current entries).flatMap (leBytes 8) := by
  have hsize := hfits.size_lt
  have hload : m.load 8 (m.state - sys.mem + 8) = sys.mem + first := load_eq hnames (by omega)
  obtain ⟨fuel, rfl⟩ : ∃ n, fuel = n + 1 := ⟨fuel - 1, by omega⟩
  induction entries generalizing m fuel current with
  | nil =>
      rw [List.flatMap_nil, List.length_nil, Nat.add_zero] at hend
      rw [buildNames, hload, hend, if_pos rfl]
      exact .ok ⟨⟨rfl, .refl _ _, le_rfl, hallocated, hfits⟩, rfl, rfl⟩
  | cons entry entries ih =>
      rw [List.flatMap_cons, List.length_append, entry.length_bytes] at hend hread
      rw [read_add] at hread
      obtain ⟨hentry, hrest⟩ := List.append_inj hread (by rw [length_read, entry.length_bytes])
      obtain ⟨hreclen, hname⟩ := read_dirent hentry
      have hpos : entry.reclen = 20 + entry.name.length + entry.padding.length := rfl
      have hlen : m.load 2 (current + 16) = entry.reclen := load_eq hreclen (hpos ▸ entry.reclen_lt)
      have htext : m.cstr (current + 19) = entry.name :=
        cstr_eq ⟨entry.no_nul, by omega, hname⟩ hallocated
      obtain ⟨fuel, rfl⟩ : ∃ n, fuel = n + 1 := ⟨fuel - 1, by simp at hfuel; omega⟩
      rw [buildNames, hload, if_neg (by omega)]
      dsimp only
      rw [namePointers] at hmemory
      rw [hlen, htext, namePointers]
      split
      next hskip =>
        rw [if_pos hskip] at hmemory
        exact ih hfits hallocated hnames hstate hfirst (by omega) hrest hmemory hsize hload fuel
          (by simp at hfuel; omega)
      next hkeep =>
        rw [if_neg hkeep, List.length_cons] at hmemory
        refine (pushName_spec hfits (by omega) (sys.mem + (current + 19))).bind fun m₁ hpushed => ?_
        obtain ⟨hgrows, halloc, hpointer⟩ := hpushed
        have hstate₁ : m₁.state = m.state := by rw [hgrows.same]
        have hnames₁ : read m₁.alloc.mem (m₁.state - sys.mem + 8) 8 = leBytes 8
          (sys.mem + first) := by
          rw [hstate₁, hgrows.below.read_eq (by omega), hnames]
        have hrest₁ := (hgrows.below.read_eq (by omega)).trans hrest
        have hsize₁ := hgrows.fits.size_lt
        refine (ih hgrows.fits hgrows.allocated hnames₁ (by omega) (by omega)
          (by omega) hrest₁ (by omega) hsize₁
          (load_eq hnames₁ (by omega)) fuel (by simp at hfuel; omega)).mono fun m' hbuilt => ?_
        obtain ⟨hgrows', halloc', hpointers⟩ := hbuilt
        rw [List.length_cons, Nat.mul_succ, Nat.add_comm _ 8, read_add, List.flatMap_cons,
          hgrows'.below.read_eq halloc.ge, hpointer, ← halloc, hpointers]
        exact ⟨hgrows.trans hgrows', by omega, rfl⟩

/-- Pointers to texts between two addresses. -/
abbrev Texts (sys : System) (mem : ℕ → UInt8) (low stop : ℕ) : List ℕ → List (List UInt8) → Prop :=
  List.Forall₂ fun p name => sys.mem + low ≤ p ∧ Text mem stop (p - sys.mem) name

section Texts

variable {low stop : ℕ} {pointers : List ℕ} {names : List (List UInt8)}

theorem Texts.congr {mem mem' : ℕ → UInt8} {stop' : ℕ} (h : Texts sys mem low stop pointers names)
    (hsame : ∀ offset n, low ≤ offset → offset + n ≤ stop → read mem' offset n = read mem offset n)
    (hle : stop ≤ stop') : Texts sys mem' low stop' pointers names := by
  refine h.imp fun p name ⟨hlow, htext⟩ => ⟨hlow, htext.no_nul, htext.fits.trans hle, ?_⟩
  exact (hsame _ _ (by omega) htext.fits).trans htext.bytes

/-- The texts that pointers lead to are the names. -/
theorem Texts.names_eq (h : Texts sys m.alloc.mem low stop pointers names)
    (hstop : stop ≤ m.alloc.size) : names = pointers.map fun p => m.cstr (p - sys.mem) := by
  induction h with
  | nil => rfl
  | cons hp _ ih => rw [List.map_cons, cstr_eq hp.2 hstop, ← ih]

theorem Texts.of_mem (h : Texts sys m.alloc.mem low stop pointers names)
    (hstop : stop ≤ m.alloc.size) {p : ℕ} (hp : p ∈ pointers) :
    sys.mem + low ≤ p ∧ Text m.alloc.mem stop (p - sys.mem) (m.cstr (p - sys.mem)) := by
  induction h with
  | nil => cases hp
  | cons hfirst _ ih =>
      rcases List.mem_cons.mp hp with rfl | hp
      · rw [cstr_eq hfirst.2 hstop]
        exact hfirst
      · exact ih hp

end Texts

/-- The pointers lead to the names. -/
theorem namePointers_texts {mem : ℕ → UInt8} {entries : List Dirent} {low current stop : ℕ}
    (hlow : low ≤ current) (hend : current + (entries.flatMap Dirent.bytes).length ≤ stop)
    (hread : read mem current (entries.flatMap Dirent.bytes).length =
    entries.flatMap Dirent.bytes) :
    Texts sys mem low stop (namePointers sys current entries) (visibleNames entries) := by
  induction entries generalizing current with
  | nil => exact .nil
  | cons entry entries ih =>
      rw [List.flatMap_cons, List.length_append, entry.length_bytes] at hend hread
      rw [read_add] at hread
      obtain ⟨hentry, hrest⟩ := List.append_inj hread (by rw [length_read, entry.length_bytes])
      have hreclen : entry.reclen = 20 + entry.name.length + entry.padding.length := rfl
      have hnext := ih (by omega) (by omega) hrest
      rw [namePointers, visibleNames, List.map_cons]
      split
      next hskip =>
        rw [List.filter_cons_of_neg (by rw [hskip]; decide)]
        exact hnext
      next hkeep =>
        rw [List.filter_cons_of_pos (by rw [Bool.eq_false_of_not_eq_true hkeep]; rfl)]
        refine .cons ⟨by omega, ?_⟩ hnext
        rw [Nat.add_sub_cancel_left]
        exact ⟨entry.no_nul, by omega, (read_dirent hentry).2⟩

/-- An array of pointers from `first` to `stop` that lead to texts in front of it. -/
structure NamesAt (sys : System) (mem : ℕ → UInt8) (low first stop : ℕ) (pointers : List ℕ)
    (names : List (List UInt8)) : Prop where
  stop_eq : first + 8 * pointers.length = stop
  read_eq : read mem first (8 * pointers.length) = pointers.flatMap (leBytes 8)
  texts : Texts sys mem low first pointers names

theorem NamesAt.congr {mem mem' : ℕ → UInt8} {low first stop : ℕ} {pointers : List ℕ}
    {names : List (List UInt8)} (h : NamesAt sys mem low first stop pointers names)
    (hsame : SameBelow stop mem mem') : NamesAt sys mem' low first stop pointers names where
  stop_eq := h.stop_eq
  read_eq := (hsame.read_eq h.stop_eq.le).trans h.read_eq
  texts := h.texts.congr (fun _ _ _ hle => hsame.read_eq (by have := h.stop_eq; omega)) le_rfl

section Names

variable {low first : ℕ} {pointers : List ℕ} {names : List (List UInt8)}
  (h : NamesAt sys m.alloc.mem low first m.allocSize pointers names) (hfits : Fits sys lim m)
  (hallocated : m.allocSize ≤ m.alloc.size)

include h hfits hallocated

/-- Pointers into the memory in use are addresses. -/
theorem NamesAt.pointer_lt : ∀ p ∈ pointers, p < 2 ^ 64 := by
  intro p hp
  have hstop := h.stop_eq
  obtain ⟨hle, htext⟩ := h.texts.of_mem (by omega) hp
  have hend := htext.fits
  have hsize := hfits.size_lt
  omega

/-- The array is sorted in place. -/
theorem sortNames_spec {sorted : List (List UInt8)} (hperm : names.Perm sorted)
    (hsorted : sorted.Pairwise Precedes) :
    ∃ pointers', NamesAt sys (m.sortNames sys first pointers.length).alloc.mem low first m.allocSize
        pointers' sorted ∧
      SameBelow first m.alloc.mem (m.sortNames sys first pointers.length).alloc.mem := by
  have hstop := h.stop_eq
  rw [sortNames, pointers_eq (h.pointer_lt hfits hallocated) h.read_eq]
  dsimp only
  set key : ℕ → List UInt8 := fun p => m.cstr (p - sys.mem)
  set pointers' := InsertionSort.sort
    (fun left right => decide (cstrCmp (key left) (key right) < 0))
    pointers
  have hperm' : pointers'.Perm pointers := InsertionSort.sort_perm pointers
  have hpairwise : pointers'.Pairwise fun a b => codes (key a) ≤ codes (key b) := by
    refine InsertionSort.sort_pairwise (P := fun _ => True) (fun a b _ _ => ?_) fun _ _ => trivial
    rw [decide_eq_true_iff]
    exact cstrCmp_neg_iff (m.cstr_no_nul _) (m.cstr_no_nul _)
  have hnames : pointers'.map key = sorted := by
    have hall : (pointers'.map key).Perm sorted := by
      refine (hperm'.map key).trans ?_
      rw [← h.texts.names_eq (by omega)]
      exact hperm
    refine hall.eq_of_pairwise (fun a b _ _ hab hba => codes_injective (le_antisymm hab hba))
      (List.pairwise_map.mpr hpairwise) (hsorted.imp fun hlt => le_of_lt hlt)
  have hsame : SameBelow first m.alloc.mem
    (write m.alloc.mem first (pointers'.flatMap (leBytes 8))) :=
    sameBelow_write _ le_rfl
  refine ⟨pointers', ⟨?_, ?_, ?_⟩, hsame⟩
  · rw [hperm'.length_eq, hstop]
  · exact read_write_of_length _ (length_flatMap_leBytes pointers')
  · rw [← hnames, Texts, List.forall₂_map_right_iff, List.forall₂_same]
    intro p hp
    obtain ⟨hbase, htext⟩ := h.texts.of_mem (by omega) (hperm'.mem_iff.mp hp)
    exact ⟨hbase, htext.congr hsame⟩

end Names

/-! ## Frames -/

/-- A frame of the memory from `start` to `stop`: a `struct state`, and the names that are left. -/
structure FrameAt (sys : System) (mem : ℕ → UInt8) (start stop prev fd first : ℕ)
    (pointers : List ℕ)
    (names : List (List UInt8)) : Prop where
  prev_eq : read mem start 8 = leBytes 8 prev
  names_eq : read mem (start + 8) 8 = leBytes 8 (sys.mem + first)
  rootFd_eq : read mem (start + 16) 4 = leBytes 4 fd
  start_le : start + 24 ≤ first
  namesAt : NamesAt sys mem (start + 24) first stop pointers names

theorem FrameAt.congr {mem mem' : ℕ → UInt8} {start stop prev fd first : ℕ} {pointers : List ℕ}
    {names : List (List UInt8)} (h : FrameAt sys mem start stop prev fd first pointers names)
    (hsame : SameBelow stop mem mem') :
      FrameAt sys mem' start stop prev fd first pointers names := by
  have hstart := h.start_le
  have hstop := h.namesAt.stop_eq
  exact ⟨(hsame.read_eq (by omega)).trans h.prev_eq, (hsame.read_eq (by omega)).trans h.names_eq,
    (hsame.read_eq (by omega)).trans h.rootFd_eq, hstart, h.namesAt.congr hsame⟩

/-- A directory that is listed: no read is empty or exceeds the room for it, and the entries that
are not skipped are the names, in any order. -/
def Enumerates (reads : List (List Dirent)) (names : List (List UInt8)) : Prop :=
  (∀ entries ∈ reads, entries ≠ [] ∧ (entries.flatMap Dirent.bytes).length ≤ 8192) ∧
    (visibleNames reads.flatten).Perm names

/-- The size of a frame: a `struct state`, the entries, and the pointers to the names. -/
def frameSize (reads : List (List Dirent)) (names : List (List UInt8)) : ℕ :=
  24 + (reads.flatten.flatMap Dirent.bytes).length + 8 * names.length

/-- What becomes of the memory when a directory is entered. -/
structure Entered (sys : System) (lim : Limits) (m m' : Machine) (names : List (List UInt8))
    (size : ℕ) : Prop where
  same : m' = { m with
    alloc := m'.alloc, allocSize := m'.allocSize, state := sys.mem + m.allocSize }
  below : SameBelow m.allocSize m.alloc.mem m'.alloc.mem
  allocSize_eq : m'.allocSize = m.allocSize + size
  allocated : m'.allocSize ≤ m'.alloc.size
  fits : Fits sys lim m'
  frame : ∃ first pointers,
    FrameAt sys m'.alloc.mem m.allocSize m'.allocSize m.state m.currentFd first pointers names

theorem length_le_length_flatMap (entries : List Dirent) :
    entries.length ≤ (entries.flatMap Dirent.bytes).length := by
  induction entries with
  | nil => exact le_rfl
  | cons entry entries ih =>
      have hreclen : entry.reclen = 20 + entry.name.length + entry.padding.length := rfl
      rw [List.flatMap_cons, List.length_append, entry.length_bytes, List.length_cons]
      omega

/-- The stores into a new `struct state`. -/
theorem store_state (m : Machine) (start prev names fd : ℕ) :
    let mem := (((m.store 8 start prev).store 8 (start + 8) names).store 4
      (start + 16) fd).alloc.mem
    read mem start 8 = leBytes 8 prev ∧ read mem (start + 8) 8 = leBytes 8 names ∧
      read mem (start + 16) 4 = leBytes 4 fd ∧ SameBelow start m.alloc.mem mem ∧
      ∀ offset n, start + 24 ≤ offset → read mem offset n = read m.alloc.mem offset n := by
  intro mem
  refine ⟨?_, ?_, ?_, ?_, fun offset n hle => ?_⟩
  · refine (read_write_of_le _ (by omega)).trans ((read_write_of_le _ le_rfl).trans ?_)
    exact read_write_of_length _ (length_leBytes 8 prev)
  · exact (read_write_of_le _ (by omega)).trans (read_write_of_length _ (length_leBytes 8 names))
  · exact read_write_of_length _ (length_leBytes 4 fd)
  · exact ((sameBelow_write _ le_rfl).trans (sameBelow_write _ (Nat.le_add_right _ _))).trans
      (sameBelow_write _ (Nat.le_add_right _ _))
  · refine (read_write_of_ge ?_).trans ((read_write_of_ge ?_).trans (read_write_of_ge ?_)) <;>
      rw [length_leBytes] <;> omega

/-- A directory that is entered gets a frame with its names in order. -/
theorem enter_spec {path : Path} {reads : List (List Dirent)} {names : List (List UInt8)}
    (hfits : Fits sys lim m) (hpath : m.fds.lookup m.currentFd = some path)
    (hnode : sys.node path = .dir reads) (henum : Enumerates reads names)
    (hsorted : names.Pairwise Precedes) (hvisited : path ∈ lim.paths)
    (hmemory : m.allocSize + frameSize reads names + 8192 ≤ lim.memory) :
    Attempts (Expected sys lim) (m.enter sys) fun m' =>
      Entered sys lim m m' names (frameSize reads names) := by
  rw [enter, readDirectory, hpath]
  dsimp only
  rw [hnode]
  have hfits₀ : Fits sys lim { m with allocSize := m.allocSize + 24 } :=
    ⟨hfits.commit, hfits.reserve, hfits.reserve_eq⟩
  rw [frameSize] at hmemory
  have hmemory₀ : m.allocSize + 24 + (reads.flatten.flatMap Dirent.bytes).length + 8192 ≤
      lim.memory := by omega
  refine (readEntries_spec henum.1 hfits₀ hvisited hmemory₀).bind
    fun m₁ ⟨hgrows₁, halloc₁, hread₁⟩ => ?_
  dsimp only at halloc₁ hread₁
  have hstate₁ : m₁.state = m.state := by rw [hgrows₁.same]
  have hfd₁ : m₁.currentFd = m.currentFd := by rw [hgrows₁.same]
  have hallocated₁ := hgrows₁.allocated
  have hsize₁ := hgrows₁.fits.size_lt
  obtain ⟨hprev, hnames, hfd, hbelow, habove⟩ :=
    store_state m₁ m.allocSize m₁.state (sys.mem + m₁.allocSize) m₁.currentFd
  set m₂ : Machine := { ((m₁.store 8 m.allocSize m₁.state).store 8 (m.allocSize + 8)
    (sys.mem + m₁.allocSize)).store 4 (m.allocSize + 16) m₁.currentFd with
      state := sys.mem + m.allocSize } with hm₂
  have hoffset : m₂.state - sys.mem = m.allocSize := Nat.add_sub_cancel_left _ _
  have halloc₂ : m₂.allocSize = m₁.allocSize := rfl
  have hread₂ := (habove _ _ le_rfl).trans hread₁
  have hfuel := length_le_length_flatMap reads.flatten
  have htexts₂ : Texts sys m₂.alloc.mem (m.allocSize + 24) m₁.allocSize
      (namePointers sys (m.allocSize + 24) reads.flatten) (visibleNames reads.flatten) :=
    namePointers_texts le_rfl halloc₁.ge hread₂
  have hcount : (namePointers sys (m.allocSize + 24) reads.flatten).length = names.length :=
    htexts₂.length_eq.trans henum.2.length_eq
  refine (buildNames_spec (m := m₂)
    ⟨hgrows₁.fits.commit, hgrows₁.fits.reserve, hgrows₁.fits.reserve_eq⟩ hallocated₁
    (by rw [hoffset]; exact hnames) (by rw [hoffset]; omega) le_rfl (by omega) hread₂
    (show reads.flatten.length < m₁.allocSize + 1 by omega)
    (show m₁.allocSize + 8 * _ ≤ lim.memory by omega)).bind fun m₃
      ⟨hgrows₃, halloc₃, hread₃⟩ => .ok ?_
  set pointers := namePointers sys (m.allocSize + 24) reads.flatten
  change m₃.allocSize = m₁.allocSize + 8 * pointers.length at halloc₃
  have hbelow₃ : SameBelow m₁.allocSize m₂.alloc.mem m₃.alloc.mem := hgrows₃.below
  have hnamesAt : NamesAt sys m₃.alloc.mem (m.allocSize + 24) m₁.allocSize m₃.allocSize pointers
      (visibleNames reads.flatten) :=
    ⟨halloc₃.symm, hread₃, namePointers_texts le_rfl halloc₁.ge
      ((hbelow₃.read_eq halloc₁.ge).trans hread₂)⟩
  have hload : m₃.load 8 (m.allocSize + 8) = sys.mem + m₁.allocSize :=
    load_eq ((hbelow₃.read_eq (by omega)).trans hnames) (by omega)
  have hlength : (m₃.allocSize - m₁.allocSize) / 8 = pointers.length := by omega
  rw [hload, Nat.add_sub_cancel_left, hlength]
  obtain ⟨pointers', hnamesAt', hbelow'⟩ :=
    sortNames_spec hnamesAt hgrows₃.fits hgrows₃.allocated henum.2 hsorted
  have hbelow₄ := hbelow₃.trans hbelow'
  refine ⟨?_, ?_, show m₃.allocSize = _ by rw [frameSize]; omega, hgrows₃.allocated,
    ⟨hgrows₃.fits.commit, hgrows₃.fits.reserve, hgrows₃.fits.reserve_eq⟩, m₁.allocSize, pointers',
    ?_, ?_, ?_, by omega, hnamesAt'⟩
  · set alloc := (m₃.sortNames sys m₁.allocSize pointers.length).alloc
    exact (congrArg (fun x : Machine =>
      { x with alloc, allocSize := m₃.allocSize }) hgrows₃.same).trans
      (congrArg (fun x : Machine => { x with
        alloc, allocSize := m₃.allocSize, state := sys.mem + m.allocSize }) hgrows₁.same)
  · exact ((hgrows₁.below.mono (Nat.le_add_right _ _)).trans hbelow).trans (hbelow₄.mono (by omega))
  · rw [← hstate₁]
    exact (hbelow₄.read_eq (by omega)).trans hprev
  · exact (hbelow₄.read_eq (by omega)).trans hnames
  · rw [← hfd₁]
    exact (hbelow₄.read_eq (by omega)).trans hfd

end Machine

end Hc.Tar
