import Hc.Tools.TarAddFrames

/-!
# What `add` writes

The loops are followed over a directory tree: what is written for a directory does not touch the
frames below it, so the traversal is that of the tree, with the entries of every directory in order.
-/

namespace Hc.Tar

open Memory

/-! ## The records of a tree -/

/-- The name of a directory behind that of the directories above it. -/
def joinName (pre name : List UInt8) : List UInt8 := if pre = [] then name else pre ++ 47 :: name

/-- One record for every entry, the directories in front of what is in them. -/
def treeRecords (pre : List UInt8) : Forest → List Record
  | .nil => []
  | .file name content rest => ⟨pre, name, some content⟩ :: treeRecords pre rest
  | .dir name children rest =>
    ⟨pre, name, none⟩ :: (treeRecords (joinName pre name) children ++ treeRecords pre rest)

/-- What is written for a record. -/
def Record.bytes (record : Record) : List UInt8 :=
  (writeRecord record.pre record.name record.content).getD []

/-- `writeRecord` succeeds for a record. -/
def Record.Fits (record : Record) : Prop :=
  ∃ bytes, writeRecord record.pre record.name record.content = some bytes

instance (record : Record) : Decidable record.Fits :=
  decidable_of_iff (writeRecord record.pre record.name record.content).isSome
    Option.isSome_iff_exists

theorem enterDirectory_eq {pre name : List UInt8} (h : pre.length ≤ maxPrefixLen) :
    enterDirectory pre name = joinName pre name := by
  rw [enterDirectory, joinName, if_neg (not_lt.mpr h)]

/-- The tree is what the system has below a path; directories may be listed in any order. -/
def Listed (sys : System) (path : Path) : Forest → Prop
  | .nil => True
  | .file name content rest => sys.node (path ++ [name]) = .file content ∧ Listed sys path rest
  | .dir name children rest =>
    (∃ reads, sys.node (path ++ [name]) = .dir reads ∧ Machine.Enumerates reads children.names) ∧
      Listed sys (path ++ [name]) children ∧ Listed sys path rest

/-- The paths of the entries of a tree. -/
def treePaths (path : Path) : Forest → List Path
  | .nil => []
  | .file name _ rest => (path ++ [name]) :: treePaths path rest
  | .dir name children rest =>
    (path ++ [name]) :: (treePaths (path ++ [name]) children ++ treePaths path rest)

/-- How many directories are inside one another. -/
def depth : Forest → ℕ
  | .nil => 0
  | .file _ _ rest => depth rest
  | .dir _ children rest => max (depth children + 1) (depth rest)

/-- What `getdents` delivers for a path. -/
def listing (sys : System) (path : Path) : List (List Dirent) :=
  match sys.node path with
  | .dir reads => reads
  | _ => []

/-- The size of the frames that are open together at most, for what is in a directory. -/
def framesSize (sys : System) (path : Path) : Forest → ℕ
  | .nil => 0
  | .file _ _ rest => framesSize sys path rest
  | .dir name children rest =>
    max (Machine.frameSize (listing sys (path ++ [name])) children.names +
      framesSize sys (path ++ [name]) children) (framesSize sys path rest)

/-- How far `add` goes for a tree: every path is opened once, with the directories above it open,
and `getdents` has 8192 bytes of room behind the frames. -/
def limits (sys : System) (m : Machine) (top : Path) (f : Forest) : Limits where
  paths := top :: treePaths top f
  files := m.fds.length + 1 + depth f
  memory := Machine.frameSize (listing sys top) f.names + framesSize sys top f + 8192
  reserve := m.alloc.reserveSize

namespace Machine

variable {sys : System} {lim : Limits} {m m' : Machine}

/-! ## The rules of the loops -/

/-- With enough iterations the loops end in an expected failure or with the property. -/
def Leads (sys : System) (lim : Limits) (entered : Bool) (m : Machine) (Q : Machine → Prop) :
    Prop :=
  ∃ k, ∀ fuel, Attempts (Expected sys lim) (m.loop sys (fuel + k) entered) Q

variable {Q : Machine → Prop}

theorem Leads.enter
    (h : Attempts (Expected sys lim) (m.enter sys) fun m' => Leads sys lim false m' Q) :
    Leads sys lim true m Q := by
  rcases h with ⟨stop, hstop, herror⟩ | ⟨m', hok, k, hk⟩
  · refine ⟨1, fun fuel => ?_⟩
    rw [loop, herror]
    exact .error hstop
  · refine ⟨k + 1, fun fuel => ?_⟩
    rw [← Nat.add_assoc, loop, hok]
    exact hk fuel

theorem Leads.next (hnames : m.load 8 (m.state - sys.mem + 8) ≠ sys.mem + m.allocSize)
    (h : Attempts (Expected sys lim) (m.nextEntry sys) fun next => Leads sys lim next.1 next.2 Q) :
    Leads sys lim false m Q := by
  rcases h with ⟨stop, hstop, herror⟩ | ⟨next, hok, k, hk⟩
  · refine ⟨1, fun fuel => ?_⟩
    rw [loop]
    dsimp only
    rw [if_neg hnames, herror]
    exact .error hstop
  · refine ⟨k + 1, fun fuel => ?_⟩
    rw [← Nat.add_assoc, loop]
    dsimp only
    rw [if_neg hnames, hok]
    exact hk fuel

theorem Leads.pop {start prev fd : ℕ} (hstate : m.state - sys.mem = start)
    (hnames : m.load 8 (start + 8) = sys.mem + m.allocSize) (hprev : m.load 8 start = prev)
    (hfd : m.load 4 (start + 16) = fd) (hne : prev ≠ 0)
    (h : Leads sys lim false { m with
      fds := (m.close fd).fds, allocSize := start, state := prev, pre := leaveDirectory m.pre } Q) :
    Leads sys lim false m Q := by
  obtain ⟨k, hk⟩ := h
  refine ⟨k + 1, fun fuel => ?_⟩
  rw [← Nat.add_assoc, loop]
  dsimp only
  subst hstate hprev hfd
  rw [if_pos hnames, if_neg (show ¬(m.close _).load 8 _ = 0 from hne)]
  exact hk fuel

theorem Leads.return {start fd : ℕ} (hstate : m.state - sys.mem = start)
    (hnames : m.load 8 (start + 8) = sys.mem + m.allocSize) (hprev : m.load 8 start = 0)
    (hfd : m.load 4 (start + 16) = fd) (h : Q (m.close fd)) : Leads sys lim false m Q := by
  refine ⟨1, fun fuel => ?_⟩
  rw [loop]
  dsimp only
  subst hstate hfd
  rw [if_pos hnames, if_pos (show (m.close _).load 8 _ = 0 from hprev)]
  exact .ok h

/-! ## One entry -/

theorem openat_spec {path : Path} (hpath : path ∈ lim.paths) (hfiles : m.fds.length ≤ lim.files) :
    Attempts (Expected sys lim) (m.openat sys path) fun m' =>
      m' = { m with currentFd := m'.currentFd, fds := (m'.currentFd, path) :: m.fds } ∧
        m'.currentFd ∉ m.fds.map Prod.fst ∧ m'.currentFd < 2 ^ 31 := by
  rw [openat]
  split
  next hfails => exact .error (.openat path hpath hfails)
  next =>
    split
    next hfd => exact .error (.openFd _ (by rwa [List.length_map]) hfd)
    next fd hfd => exact .ok ⟨rfl, sys.openFd_spec _ fd hfd⟩

/-- A descriptor that was opened is closed. -/
theorem filter_fresh {fds : List (ℕ × Path)} {fd : ℕ} (h : fd ∉ fds.map Prod.fst) (path : Path) :
    ((fd, path) :: fds).filter (·.1 != fd) = fds := by
  rw [List.filter_cons_of_neg (by simp), List.filter_eq_self]
  intro entry hentry
  have hne : entry.1 ≠ fd := fun heq => h (List.mem_map.mpr ⟨entry, hentry, heq⟩)
  simpa using hne

variable {start prev fd first p : ℕ} {pointers : List ℕ} {name : List UInt8}
  {names : List (List UInt8)}

/-- `++state->names`. -/
theorem FrameAt.next
    (h : FrameAt sys m.alloc.mem start m.allocSize prev fd first (p :: pointers) (name :: names)) :
    FrameAt sys (m.store 8 (start + 8) (sys.mem + first + 8)).alloc.mem start m.allocSize prev fd
      (first + 8) pointers names := by
  have hstart := h.start_le
  have hstop := h.namesAt.stop_eq
  rw [List.length_cons] at hstop
  have hread := h.namesAt.read_eq
  rw [List.length_cons, Nat.mul_succ, Nat.add_comm _ 8, read_add, List.flatMap_cons] at hread
  have habove (offset n : ℕ) (hle : start + 16 ≤ offset) :
      read (m.store 8 (start + 8) (sys.mem + first + 8)).alloc.mem offset n =
        read m.alloc.mem offset n :=
    read_write_of_ge (by rw [length_leBytes]; omega)
  refine ⟨?_, ?_, ?_, by omega, by omega, ?_, ?_⟩
  · exact (read_write_of_le _ le_rfl).trans h.prev_eq
  · exact read_write_of_length _ (length_leBytes 8 _)
  · exact (habove _ _ le_rfl).trans h.rootFd_eq
  · exact (habove _ _ (by omega)).trans (List.append_inj_right hread (by simp))
  · cases h.namesAt.texts with
    | cons _ hrest =>
        exact Texts.congr hrest (fun offset n hle _ => habove _ _ (by omega)) (Nat.le_add_right _ _)

section WriteEntry

variable {path : Path} {bytes : List UInt8} (hsys : ∀ path, sys.fails .writeRecord path = false)
  (hpath : path ∈ lim.paths)

include hsys hpath

theorem writeEntry_file {content : List UInt8} (hnode : sys.node path = .file content)
    (hwrite : writeRecord m.pre name (some content) = some bytes) :
    Attempts (Expected sys lim) (writeEntry sys path name m) fun next =>
      next = (false, { m with
        fds := m.fds.filter (·.1 != m.currentFd)
        records := m.records ++ [⟨m.pre, name, some content⟩]
        written := m.written ++ bytes }) := by
  rw [writeEntry, hnode]
  dsimp only
  rw [hwrite, hsys]
  split
  next hfails => exact .error (.fstatat path hpath hfails)
  next => exact .ok rfl

theorem writeEntry_dir {reads : List (List Dirent)} (hnode : sys.node path = .dir reads)
    (hwrite : writeRecord m.pre name none = some bytes) :
    Attempts (Expected sys lim) (writeEntry sys path name m) fun next =>
      next = (true, { m with
        records := m.records ++ [⟨m.pre, name, none⟩]
        written := m.written ++ bytes
        pre := enterDirectory m.pre name }) := by
  rw [writeEntry, hnode]
  dsimp only
  rw [hwrite, hsys]
  split
  next hfails => exact .error (.fstatat path hpath hfails)
  next => exact .ok rfl

end WriteEntry

/-- The loop over the entries is at a frame, which is that of the directory at a path. -/
structure AtFrame (sys : System) (lim : Limits) (m : Machine) (start prev fd first : ℕ)
    (pointers : List ℕ) (names : List (List UInt8)) (path : Path) : Prop where
  state_eq : m.state = sys.mem + start
  frame : FrameAt sys m.alloc.mem start m.allocSize prev fd first pointers names
  root : m.fds.lookup fd = some path
  fd_lt : fd < 2 ^ 31
  prev_lt : prev < 2 ^ 64
  allocated : m.allocSize ≤ m.alloc.size
  fits : Fits sys lim m

namespace AtFrame

variable {path : Path}

section Loads

variable (h : AtFrame sys lim m start prev fd first pointers names path)

include h

theorem offset_eq : m.state - sys.mem = start := by
  rw [h.state_eq, Nat.add_sub_cancel_left]

theorem first_lt : sys.mem + first < 2 ^ 64 := by
  have hsize := h.fits.size_lt
  have hallocated := h.allocated
  have hstop := h.frame.namesAt.stop_eq
  omega

theorem load_names : m.load 8 (start + 8) = sys.mem + first :=
  load_eq h.frame.names_eq h.first_lt

theorem load_prev : m.load 8 start = prev := load_eq h.frame.prev_eq h.prev_lt

theorem load_fd : m.load 4 (start + 16) = fd :=
  load_eq h.frame.rootFd_eq (h.fd_lt.trans (by decide))

end Loads

variable (h : AtFrame sys lim m start prev fd first (p :: pointers) (name :: names) path)

include h

theorem load_name : m.cstr (m.load 8 first - sys.mem) = name := by
  have hread := h.frame.namesAt.read_eq
  have hstop := h.frame.namesAt.stop_eq
  have hallocated := h.allocated
  rw [List.length_cons, Nat.mul_succ, Nat.add_comm _ 8, read_add, List.flatMap_cons] at hread
  have hpointer := List.append_inj_left hread (by simp)
  have hlt := h.frame.namesAt.pointer_lt h.fits h.allocated p List.mem_cons_self
  rw [load_eq hpointer hlt]
  cases h.frame.namesAt.texts with
  | cons htext _ => exact cstr_eq htext.2 (by omega)

/-- The next name is taken from the array and opened. -/
theorem nextEntry_eq : m.nextEntry sys =
    (m.store 8 (start + 8) (sys.mem + first + 8)).openat sys (path ++ [name]) >>=
      writeEntry sys (path ++ [name]) name := by
  have hfd : (m.store 8 (start + 8) (sys.mem + first + 8)).load 4 (start + 16) = fd :=
    load_eq h.frame.next.rootFd_eq (h.fd_lt.trans (by decide))
  have hroot : (m.store 8 (start + 8) (sys.mem + first + 8)).fds.lookup fd = some path := h.root
  rw [nextEntry, h.offset_eq, h.load_names, Nat.add_sub_cancel_left, h.load_name]
  dsimp only
  rw [hfd, hroot]

/-- A file is written and closed. -/
theorem nextEntry_file {content bytes : List UInt8}
    (hsys : ∀ path, sys.fails .writeRecord path = false)
    (hpath : path ++ [name] ∈ lim.paths) (hfiles : m.fds.length ≤ lim.files)
    (hnode : sys.node (path ++ [name]) = .file content)
    (hwrite : writeRecord m.pre name (some content) = some bytes) :
    Attempts (Expected sys lim) (m.nextEntry sys) fun next => ∃ opened,
      next = (false, { m with
        alloc := (m.store 8 (start + 8) (sys.mem + first + 8)).alloc
        currentFd := opened
        records := m.records ++ [⟨m.pre, name, some content⟩]
        written := m.written ++ bytes }) := by
  rw [h.nextEntry_eq]
  have hfiles₁ : (m.store 8 (start + 8) (sys.mem + first + 8)).fds.length ≤ lim.files := hfiles
  refine (openat_spec hpath hfiles₁).bind fun m₁ ⟨hsame, hfresh, _⟩ => ?_
  generalize hopened : m₁.currentFd = opened at hsame hfresh
  have hfds : m₁.fds.filter (·.1 != m₁.currentFd) = m.fds := by
    rw [hopened, hsame]
    exact filter_fresh hfresh _
  refine (writeEntry_file hsys hpath hnode (by rw [hsame]; exact hwrite)).mono fun next hnext =>
    ⟨opened, ?_⟩
  rw [hnext, hfds, hsame]
  rfl

/-- A directory is written, and stays open. -/
theorem nextEntry_dir {reads : List (List Dirent)} {bytes : List UInt8}
    (hsys : ∀ path, sys.fails .writeRecord path = false)
    (hpath : path ++ [name] ∈ lim.paths) (hfiles : m.fds.length ≤ lim.files)
    (hnode : sys.node (path ++ [name]) = .dir reads)
    (hwrite : writeRecord m.pre name none = some bytes) :
    Attempts (Expected sys lim) (m.nextEntry sys) fun next => ∃ opened,
      opened ∉ m.fds.map Prod.fst ∧ opened < 2 ^ 31 ∧
      next = (true, { m with
        alloc := (m.store 8 (start + 8) (sys.mem + first + 8)).alloc
        currentFd := opened
        fds := (opened, path ++ [name]) :: m.fds
        records := m.records ++ [⟨m.pre, name, none⟩]
        written := m.written ++ bytes
        pre := enterDirectory m.pre name }) := by
  rw [h.nextEntry_eq]
  have hfiles₁ : (m.store 8 (start + 8) (sys.mem + first + 8)).fds.length ≤ lim.files := hfiles
  refine (openat_spec hpath hfiles₁).bind fun m₁ ⟨hsame, hfresh, hlt⟩ => ?_
  generalize m₁.currentFd = opened at hsame hfresh hlt
  refine (writeEntry_dir hsys hpath hnode (by rw [hsame]; exact hwrite)).mono
    fun next hnext => ⟨opened, hfresh, hlt, ?_⟩
  rw [hnext, hsame]
  rfl

omit h in
theorem next_ne (h : AtFrame sys lim m start prev fd first (p :: pointers) (name :: names) path) :
    m.load 8 (m.state - sys.mem + 8) ≠ sys.mem + m.allocSize := by
  have hstop := h.frame.namesAt.stop_eq
  rw [List.length_cons] at hstop
  rw [h.offset_eq, h.load_names]
  omega

omit h in
theorem exists_cons (h : AtFrame sys lim m start prev fd first pointers (name :: names) path) :
    ∃ p ps, pointers = p :: ps := by
  obtain ⟨p, ps, -, -, hpointers⟩ := List.forall₂_cons_right_iff.mp h.frame.namesAt.texts
  exact ⟨p, ps, hpointers⟩

end AtFrame

/-! ## Whole directories -/

/-- The loop over the entries has come to the end of a frame, and records were written. -/
structure Finished (sys : System) (lim : Limits) (m m' : Machine) (start prev fd : ℕ) (path : Path)
    (records : List Record) : Prop where
  same : m' = { m with
    alloc := m'.alloc
    currentFd := m'.currentFd
    records := m.records ++ records
    written := m.written ++ records.flatMap Record.bytes }
  below : SameBelow start m.alloc.mem m'.alloc.mem
  atFrame : ∃ first, AtFrame sys lim m' start prev fd first [] [] path

/-- A directory was entered from a frame: its own frame is above, and the frame below is one entry
further. -/
structure Descended (sys : System) (lim : Limits) (m m' : Machine) (start prev fd first : ℕ)
    (pointers : List ℕ) (names : List (List UInt8)) (path : Path) (name : List UInt8)
    (children : List (List UInt8)) (opened size : ℕ) : Prop where
  same : m' = { m with
    alloc := m'.alloc
    allocSize := m'.allocSize
    state := sys.mem + m.allocSize
    currentFd := opened
    fds := (opened, path ++ [name]) :: m.fds
    records := m.records ++ [⟨m.pre, name, none⟩]
    written := m.written ++ Record.bytes ⟨m.pre, name, none⟩
    pre := enterDirectory m.pre name }
  allocSize_eq : m'.allocSize = m.allocSize + size
  fresh : opened ∉ m.fds.map Prod.fst
  below : SameBelow start m.alloc.mem m'.alloc.mem
  outer : FrameAt sys m'.alloc.mem start m.allocSize prev fd (first + 8) pointers names
  inner : ∃ first' pointers',
    AtFrame sys lim m' m.allocSize m.state opened first' pointers' children (path ++ [name])

/-- The next name is a directory, which is written and entered. -/
theorem AtFrame.descend {reads : List (List Dirent)} {children : List (List UInt8)} {path : Path}
    (hsys : ∀ path, sys.fails .writeRecord path = false)
    (h : AtFrame sys lim m start prev fd first (p :: pointers) (name :: names) path)
    (hnode : sys.node (path ++ [name]) = .dir reads) (henum : Enumerates reads children)
    (hsorted : children.Pairwise Precedes) (hfits : Record.Fits ⟨m.pre, name, none⟩)
    (hpath : path ++ [name] ∈ lim.paths) (hfiles : m.fds.length ≤ lim.files)
    (hmemory : m.allocSize + frameSize reads children + 8192 ≤ lim.memory)
    (hQ : ∀ m' opened, Descended sys lim m m' start prev fd first pointers names path name children
      opened (frameSize reads children) → Leads sys lim false m' Q) : Leads sys lim false m Q := by
  obtain ⟨bytes, hwrite⟩ := hfits
  have hrecord : Record.bytes ⟨m.pre, name, none⟩ = bytes := by rw [Record.bytes, hwrite]; rfl
  refine .next h.next_ne ((h.nextEntry_dir hsys hpath hfiles hnode hwrite).mono ?_)
  rintro ⟨_, m₁⟩ ⟨opened, hfresh, hopened, hnext⟩
  obtain ⟨rfl, hm₁⟩ := Prod.mk.inj hnext
  have hframe₁ : FrameAt sys m₁.alloc.mem start m.allocSize prev fd (first + 8) pointers names := by
    rw [hm₁]
    exact h.frame.next
  have hallocSize₁ : m₁.allocSize = m.allocSize := by rw [hm₁]
  have hstate₁ : m₁.state = m.state := by rw [hm₁]
  have hcurrentFd₁ : m₁.currentFd = opened := by rw [hm₁]
  have hfds₁ : m₁.fds = (opened, path ++ [name]) :: m.fds := by rw [hm₁]
  have hfits₁ : Fits sys lim m₁ := by
    rw [hm₁]
    exact ⟨h.fits.commit, h.fits.reserve, h.fits.reserve_eq⟩
  have hbelow₁ : SameBelow start m.alloc.mem m₁.alloc.mem := by
    rw [hm₁]
    exact sameBelow_write _ (Nat.le_add_right _ _)
  have hstop := hframe₁.namesAt.stop_eq
  have hstart := hframe₁.start_le
  have hfirst := h.first_lt
  refine .enter ((enter_spec hfits₁ (by rw [hfds₁, hcurrentFd₁]; exact List.lookup_cons_self) hnode
    henum hsorted hpath (hallocSize₁ ▸ hmemory)).mono fun m₂ hentered => ?_)
  obtain ⟨first₂, pointers₂, hframe₂⟩ := hentered.frame
  have hbelow₂ := hentered.below
  rw [hallocSize₁, hstate₁, hcurrentFd₁] at hframe₂
  rw [hallocSize₁] at hbelow₂
  have hfds₂ : m₂.fds = (opened, path ++ [name]) :: m.fds := by rw [hentered.same, ← hfds₁]
  have hallocSize₂ := hentered.allocSize_eq
  rw [hallocSize₁] at hallocSize₂
  refine hQ m₂ opened ⟨?_, hallocSize₂, hfresh, hbelow₁.trans (hbelow₂.mono (by omega)),
    hframe₁.congr hbelow₂, first₂, pointers₂, ?_⟩
  · rw [hentered.same, hm₁, hrecord]
  · exact ⟨by rw [hentered.same, ← hallocSize₁], hframe₂,
      by rw [hfds₂]; exact List.lookup_cons_self, hopened, by rw [h.state_eq]; omega,
      hentered.allocated, hentered.fits⟩

/-- At the end of a directory that was entered, the loop is back at the frame below, which is as it
was. -/
theorem Descended.ascend {m' m₃ : Machine} {children : List (List UInt8)} {opened size : ℕ}
    {path : Path} {records : List Record}
    (hdescended : Descended sys lim m m' start prev fd first pointers names path name children
      opened size)
    (h : AtFrame sys lim m start prev fd first (p :: pointers) (name :: names) path)
    (hname : ValidName name) (hlength : m.pre.length ≤ maxPrefixLen)
    (hdone : Finished sys lim m' m₃ m.allocSize m.state opened (path ++ [name]) records)
    (hQ : ∀ m₄, m₄ = { m with
        alloc := m₄.alloc
        currentFd := m₄.currentFd
        records := m.records ++ ⟨m.pre, name, none⟩ :: records
        written := m.written ++ (⟨m.pre, name, none⟩ :: records).flatMap Record.bytes } →
      SameBelow start m.alloc.mem m₄.alloc.mem →
      AtFrame sys lim m₄ start prev fd (first + 8) pointers names path → Leads sys lim false m₄ Q) :
    Leads sys lim false m₃ Q := by
  obtain ⟨first₃, hat₃⟩ := hdone.atFrame
  have hstop₃ := hat₃.frame.namesAt.stop_eq
  have hstart₃ := hat₃.frame.start_le
  have hallocated₃ := hat₃.allocated
  rw [List.length_nil, Nat.mul_zero, Nat.add_zero] at hstop₃
  have hstart := h.frame.start_le
  have hstop := hdescended.outer.namesAt.stop_eq
  have hstart' := hdescended.outer.start_le
  refine .pop hat₃.offset_eq (by rw [hat₃.load_names, hstop₃]) hat₃.load_prev hat₃.load_fd
    (by have := sys.mem_pos; rw [h.state_eq]; omega) ?_
  have hfds : (m₃.close opened).fds = m.fds := by
    rw [hdone.same, close, hdescended.same]
    exact filter_fresh hdescended.fresh _
  have hpre : leaveDirectory m₃.pre = m.pre := by
    rw [hdone.same, hdescended.same]
    exact leaveDirectory_enterDirectory hname.no_slash hlength
  have hrecords : m₃.records = m.records ++ ⟨m.pre, name, none⟩ :: records := by
    rw [hdone.same, hdescended.same, ← List.append_cons]
  have hwritten : m₃.written =
      m.written ++ (⟨m.pre, name, none⟩ :: records).flatMap Record.bytes := by
    have hentered : m'.written = m.written ++ Record.bytes ⟨m.pre, name, none⟩ := by
      rw [hdescended.same]
    rw [hdone.same, hentered, List.flatMap_cons, List.append_assoc]
  refine hQ _ ?_ (hdescended.below.trans (hdone.below.mono (by omega)))
    ⟨h.state_eq, hdescended.outer.congr hdone.below, hfds ▸ h.root, h.fd_lt, h.prev_lt,
      show m.allocSize ≤ m₃.alloc.size by omega, hat₃.fits.commit, hat₃.fits.reserve,
      hat₃.fits.reserve_eq⟩
  rw [hfds, hpre, hrecords, hwritten]

theorem entries_spec {g : Forest} {path : Path} (hsys : ∀ path, sys.fails .writeRecord path = false)
    (hnamed : g.AllNames ValidName) (hascending : Ascending g) (hlisted : Listed sys path g)
    (h : AtFrame sys lim m start prev fd first pointers g.names path)
    (hfits : ∀ record ∈ treeRecords m.pre g, record.Fits)
    (hpaths : ∀ p ∈ treePaths path g, p ∈ lim.paths) (hfiles : m.fds.length + depth g ≤ lim.files)
    (hmemory : m.allocSize + framesSize sys path g + 8192 ≤ lim.memory)
    (hQ : ∀ m', Finished sys lim m m' start prev fd path (treeRecords m.pre g) →
      Leads sys lim false m' Q) : Leads sys lim false m Q := by
  induction g generalizing m start prev fd first pointers path with
  | nil =>
      obtain rfl : pointers = [] := List.forall₂_nil_right_iff.mp h.frame.namesAt.texts
      refine hQ m ⟨?_, .refl _ _, first, h⟩
      simp [treeRecords]
  | file name content rest ih =>
      change AtFrame sys lim m start prev fd first pointers (name :: rest.names) path at h
      obtain ⟨p, pointers, rfl⟩ := h.exists_cons
      obtain ⟨bytes, hwrite⟩ := hfits _ List.mem_cons_self
      rw [treePaths, List.forall_mem_cons] at hpaths
      have hopen := h.nextEntry_file hsys hpaths.1 (Nat.le_of_add_right_le hfiles) hlisted.1 hwrite
      refine .next h.next_ne (hopen.mono ?_)
      rintro _ ⟨opened, rfl⟩
      have hbytes : Record.bytes ⟨m.pre, name, some content⟩ = bytes := by
        rw [Record.bytes, hwrite]
        rfl
      refine ih hnamed.2 hascending.2 hlisted.2
        ⟨h.state_eq, h.frame.next, h.root, h.fd_lt, h.prev_lt,
        h.allocated, h.fits.commit, h.fits.reserve, h.fits.reserve_eq⟩
          (fun record hrecord => hfits record (.tail _ hrecord)) hpaths.2 hfiles hmemory
        fun m' hdone => hQ m' ⟨hdone.same.trans ?_, ?_, hdone.atFrame⟩
      · rw [treeRecords, List.flatMap_cons, hbytes, ← List.append_cons, ← List.append_assoc]
      · exact (sameBelow_write _ (Nat.le_add_right _ _)).trans hdone.below
  | dir name children rest ihChildren ihRest =>
      change AtFrame sys lim m start prev fd first pointers (name :: rest.names) path at h
      obtain ⟨p, pointers, rfl⟩ := h.exists_cons
      obtain ⟨⟨reads, hnode, henum⟩, hlistedChildren, hlistedRest⟩ := hlisted
      have hrecord := hfits _ List.mem_cons_self
      have hlength := (length_of_writeRecord hrecord.choose_spec).2
      rw [treeRecords, List.forall_mem_cons, List.forall_mem_append] at hfits
      rw [treePaths, List.forall_mem_cons, List.forall_mem_append] at hpaths
      rw [depth] at hfiles
      have hlisting : listing sys (path ++ [name]) = reads := by rw [listing, hnode]
      rw [framesSize, hlisting] at hmemory
      refine h.descend hsys hnode henum ((ascending_iff children).mp hascending.2.1).1 hrecord
        hpaths.1 (by omega) (by omega) fun m₂ opened hdescended => ?_
      obtain ⟨first₂, pointers₂, hat₂⟩ := hdescended.inner
      have hpre₂ : m₂.pre = joinName m.pre name := by
        rw [hdescended.same, ← enterDirectory_eq hlength]
      have hallocSize₂ := hdescended.allocSize_eq
      have hfds₂ : m₂.fds.length = m.fds.length + 1 := by rw [hdescended.same]; rfl
      refine ihChildren hnamed.2.1 hascending.2.1 hlistedChildren hat₂
        (by rw [hpre₂]; exact hfits.2.1) hpaths.2.1 (by omega) (by omega)
        fun m₃ hdone => hdescended.ascend h hnamed.1 hlength hdone fun m₄ hsame hbelow hat₄ => ?_
      have hpre₄ : m₄.pre = m.pre := by rw [hsame]
      have hfds₄ : m₄.fds = m.fds := by rw [hsame]
      have hallocSize₄ : m₄.allocSize = m.allocSize := by rw [hsame]
      refine ihRest hnamed.2.2 hascending.2.2 hlistedRest hat₄ (by rw [hpre₄]; exact hfits.2.2)
        hpaths.2.2 (by rw [hfds₄]; omega) (by omega)
        fun m₅ hdone₅ => hQ m₅ ⟨?_, hbelow.trans hdone₅.below, hdone₅.atFrame⟩
      rw [hdone₅.same, hpre₄, hsame, hpre₂, treeRecords, ← List.cons_append, List.flatMap_append,
        List.append_assoc, List.append_assoc]

/-! ## The tree -/

/-- The system has the tree at a path. -/
def Lists (sys : System) (top : Path) (f : Forest) : Prop :=
  (∃ reads, sys.node top = .dir reads ∧ Enumerates reads f.names) ∧ Listed sys top f

/-- What `add` leaves when it returns 0: records were written, and the rest is as it was. -/
structure Adds (m m' : Machine) (records : List Record) : Prop where
  records_eq : m'.records = m.records ++ records
  written_eq : m'.written = m.written ++ records.flatMap Record.bytes
  pre_eq : m'.pre = m.pre
  fds_eq : m'.fds = m.fds

theorem add_spec {g : Forest} {top : Path} (hsys : ∀ path, sys.fails .writeRecord path = false)
    (hnamed : g.AllNames ValidName) (hascending : Ascending g) (hlists : Lists sys top g)
    (hfits : Fits sys (limits sys m top g) m)
    (hrecords : ∀ record ∈ treeRecords m.pre g, record.Fits) :
    ∃ k, ∀ fuel, Attempts (Expected sys (limits sys m top g)) (m.add sys (fuel + k) top) fun m' =>
      Adds m m' (treeRecords m.pre g) := by
  obtain ⟨⟨reads, hnode, henum⟩, hlisted⟩ := hlists
  have hlisting : listing sys top = reads := by rw [listing, hnode]
  have hmemory : (limits sys m top g).memory =
      frameSize reads g.names + framesSize sys top g + 8192 := by rw [limits, hlisting]
  have hfiles : (limits sys m top g).files = m.fds.length + 1 + depth g := rfl
  have hpaths : ∀ p ∈ treePaths top g, p ∈ (limits sys m top g).paths := fun p hp => .tail _ hp
  have htop : top ∈ (limits sys m top g).paths := List.mem_cons_self
  generalize limits sys m top g = lim at *
  rcases openat_spec (m := { m with allocSize := 0, state := 0 }) htop
    (show m.fds.length ≤ lim.files by omega) with
    ⟨stop, hstop, herror⟩ | ⟨m₁, hok, hm₁, hfresh, hlt⟩
  · refine ⟨0, fun fuel => ?_⟩
    rw [add, herror]
    exact .error hstop
  generalize hcurrentFd₁ : m₁.currentFd = opened at hm₁ hfresh hlt
  have hfds₁ : m₁.fds = (opened, top) :: m.fds := by rw [hm₁]
  have hallocSize₁ : m₁.allocSize = 0 := by rw [hm₁]
  have hstate₁ : m₁.state = 0 := by rw [hm₁]
  have hfits₁ : Fits sys lim m₁ := by
    rw [hm₁]
    exact ⟨hfits.commit, hfits.reserve, hfits.reserve_eq⟩
  have hloop : Leads sys lim true m₁ fun m' => Adds m m' (treeRecords m.pre g) := by
    refine .enter ((enter_spec hfits₁
      (by rw [hfds₁, hcurrentFd₁]; exact List.lookup_cons_self) hnode
      henum ((ascending_iff g).mp hascending).1 htop (by omega)).mono fun m₂ hentered => ?_)
    obtain ⟨first, pointers, hframe⟩ := hentered.frame
    rw [hallocSize₁, hstate₁, hcurrentFd₁] at hframe
    have hfds₂ : m₂.fds = (opened, top) :: m.fds := by rw [hentered.same, ← hfds₁]
    have hpre₂ : m₂.pre = m.pre := by rw [hentered.same, hm₁]
    have hat : AtFrame sys lim m₂ 0 0 opened first pointers g.names top :=
      ⟨by rw [hentered.same, hallocSize₁], hframe, by rw [hfds₂]; exact List.lookup_cons_self, hlt,
        by decide, hentered.allocated, hentered.fits⟩
    have hallocSize₂ := hentered.allocSize_eq
    have hlength₂ : m₂.fds.length = m.fds.length + 1 := by rw [hfds₂]; rfl
    refine entries_spec hsys hnamed hascending hlisted hat (by rw [hpre₂]; exact hrecords) hpaths
      (by omega) (by omega) fun m₃ hdone => ?_
    obtain ⟨first₃, hat₃⟩ := hdone.atFrame
    have hstop₃ := hat₃.frame.namesAt.stop_eq
    rw [List.length_nil, Nat.mul_zero, Nat.add_zero] at hstop₃
    refine .return hat₃.offset_eq (by rw [hat₃.load_names, hstop₃]) hat₃.load_prev hat₃.load_fd
      ⟨?_, ?_, ?_, ?_⟩
    · change m₃.records = _
      rw [hdone.same, hpre₂, hentered.same, hm₁]
    · change m₃.written = _
      rw [hdone.same, hpre₂, hentered.same, hm₁]
    · change m₃.pre = _
      rw [hdone.same, hpre₂]
    · rw [hdone.same, close, hfds₂]
      exact filter_fresh hfresh _
  obtain ⟨k, hk⟩ := hloop
  refine ⟨k, fun fuel => ?_⟩
  rw [add, hok]
  exact hk fuel

/-! ## Any order of the entries -/

/-- The system has an entry of a directory. -/
def ListedItem (sys : System) (path : Path) : Item → Prop
  | .file name content => sys.node (path ++ [name]) = .file content
  | .dir name children => Lists sys (path ++ [name]) children

theorem listed_iff {path : Path} (f : Forest) :
    Listed sys path f ↔ ∀ item ∈ f.items, ListedItem sys path item := by
  induction f with
  | nil => simp [Listed, Forest.items]
  | file name content rest ih =>
      simp only [Listed, ih, Forest.items, List.forall_mem_cons, ListedItem]
  | dir name children rest _ ih =>
      simp only [Listed, ih, Forest.items, List.forall_mem_cons, ListedItem, Lists, and_assoc]

/-- The tree may be given in any order. -/
theorem lists_sorted {top : Path} {f : Forest} (h : Lists sys top f) : Lists sys top
    (sorted f) := by
  induction f using Forest.induction_items generalizing top with
  | step f ih =>
      obtain ⟨⟨reads, hnode, hreads, hperm⟩, hlisted⟩ := h
      refine ⟨⟨reads, hnode, hreads, hperm.trans (sorted_reorders.names_perm f).symm⟩, ?_⟩
      rw [listed_iff, sorted_reorders.forall_items]
      intro item hitem
      have hitem' := (listed_iff f).mp hlisted item hitem
      cases item with
      | file name content => exact hitem'
      | dir name children => exact ih _ hitem hitem'

/-- What `add` writes for a tree is one record for every entry, in an order that does not depend on
the one in which the system lists the directories, and the names of every directory are in strictly
ascending order; nothing else is changed. It gives up only when the system makes a call fail that
it comes to, and it returns where the descriptors and the reserved memory are enough for the
tree. -/
theorem add_emits {f : Forest} (hnamed : f.Named ValidName) :
    Ascending (sorted f) ∧ Forest.Reorders sorted ∧
      ∀ (sys : System) (top : Path) (m : Machine), (∀ path, sys.fails .writeRecord path = false) →
        Lists sys top f → m.alloc.commitSize sys.heap ≤ m.alloc.reserveSize →
        sys.mem + m.alloc.reserveSize < 2 ^ 64 →
        (∀ record ∈ treeRecords m.pre (sorted f), record.Fits) →
        (∃ k, ∀ fuel,
          Attempts (Expected sys (limits sys m top (sorted f))) (m.add sys (fuel + k) top) fun m' =>
            Adds m m' (treeRecords m.pre (sorted f))) ∧
        (Supplied sys (limits sys m top (sorted f)) → ∃ k, ∀ fuel, ∃ m',
          m.add sys (fuel + k) top = .ok m' ∧ Adds m m' (treeRecords m.pre (sorted f))) := by
  refine ⟨sorted_ascending hnamed, sorted_reorders,
    fun sys top m hsys hlists hcommit hreserve hrecords => ?_⟩
  have hrun := add_spec hsys (sorted_reorders.named hnamed).allNames (sorted_ascending hnamed)
    (lists_sorted hlists) ⟨hcommit, hreserve, rfl⟩ hrecords
  refine ⟨hrun, fun hsupplied => ?_⟩
  obtain ⟨k, hk⟩ := hrun
  refine ⟨k, fun fuel => ?_⟩
  rcases hk fuel with ⟨stop, hstop, -⟩ | hok
  · exact absurd hstop (hsupplied.not_expected stop)
  · exact hok

/-- The recursive model writes the same bytes. -/
theorem addEntries_eq {g : Forest} {pre : List UInt8} (hnamed : g.AllNames ValidName)
    (hrecords : ∀ record ∈ treeRecords pre g, record.Fits) :
    addEntries g pre = some ((treeRecords pre g).flatMap Record.bytes, pre) := by
  induction g generalizing pre with
  | nil => rfl
  | file name content rest ih =>
      obtain ⟨bytes, hwrite⟩ := hrecords _ List.mem_cons_self
      dsimp only at hwrite
      have hrest := ih hnamed.2 fun record hrecord => hrecords record (.tail _ hrecord)
      rw [addEntries, hwrite, hrest, treeRecords, List.flatMap_cons, Record.bytes, hwrite]
      rfl
  | dir name children rest ihChildren ihRest =>
      obtain ⟨bytes, hwrite⟩ := hrecords _ List.mem_cons_self
      dsimp only at hwrite
      have hlength := (length_of_writeRecord hwrite).2
      rw [treeRecords, List.forall_mem_cons, List.forall_mem_append] at hrecords
      rw [addEntries, hwrite, enterDirectory_eq hlength, treeRecords, List.flatMap_cons,
        List.flatMap_append, Record.bytes, hwrite, ← List.append_assoc]
      simp only [Option.bind_eq_bind, Option.bind_some, ihChildren hnamed.2.1 hrecords.2.1]
      rw [← enterDirectory_eq hlength, leaveDirectory_enterDirectory hnamed.1.no_slash hlength,
        ihRest hnamed.2.2 hrecords.2.2]
      rfl

/-- With an empty prefix, the records of `add` are those of the archive. -/
theorem archive_eq {f : Forest} (hnamed : f.Named ValidName)
    (hrecords : ∀ record ∈ treeRecords [] (sorted f), record.Fits) :
    archive f = some ((treeRecords [] (sorted f)).flatMap Record.bytes ++
      List.replicate 1024 0) := by
  rw [archive, addEntries_eq (sorted_reorders.named hnamed).allNames hrecords]
  rfl

/-! ## An example -/

/-- An entry of a listing. -/
def sampleDirent (name : List UInt8) (hnul : 0 ∉ name) (hlength : name.length < 2 ^ 10) : Dirent :=
  ⟨List.replicate 16 1, 0, name, [], by decide, hnul, by rw [List.length_nil]; omega⟩

/-- A directory with a file `b` and a directory `a`, in which there is a file `c`. -/
def sampleForest : Forest :=
  .file (ascii "b") (ascii "x") (.dir (ascii "a") (.file (ascii "c") [] .nil) .nil)

/-- A system that has the tree, with the entries of the top directory in two reads. -/
def sampleSystem : System where
  heap := ⟨4096, fun _ _ => true, none⟩
  mem := 4096
  mem_pos := by decide
  node path :=
    if path = [] then
      .dir [[sampleDirent (ascii "..") (by decide) (by decide),
        sampleDirent (ascii "b") (by decide) (by decide)],
        [sampleDirent (ascii ".") (by decide) (by decide),
        sampleDirent (ascii "a") (by decide) (by decide)]]
    else if path = [ascii "a"] then .dir [[sampleDirent (ascii "c") (by decide) (by decide)]]
    else if path = [ascii "b"] then .file (ascii "x")
    else if path = [ascii "a", ascii "c"] then .file []
    else .other
  openFd used := (List.range 16).find? (· ∉ used)
  openFd_spec used fd h := by
    have hfresh := List.find?_some h
    have hlt := List.mem_range.mp (List.mem_of_find?_eq_some h)
    exact ⟨by simpa using hfresh, by omega⟩
  fails _ _ := false

def sampleMachine : Machine := ⟨⟨fun _ => 7, 0, 2 ^ 32⟩, 0, 0, 0, [], ascii "p", [], []⟩

theorem named_sample : sampleForest.Named ValidName :=
  ⟨by decide, by decide, by decide, by decide, ⟨by decide, by decide, trivial⟩, trivial⟩

theorem lists_sample : Lists sampleSystem [] sampleForest := by
  refine ⟨⟨_, rfl, ?_, by decide⟩, rfl, ⟨_, rfl, ?_, by decide⟩, ⟨rfl, trivial⟩, trivial⟩
  · exact List.forall_mem_cons.mpr ⟨⟨List.cons_ne_nil _ _, by decide⟩,
      List.forall_mem_singleton.mpr ⟨List.cons_ne_nil _ _, by decide⟩⟩
  · exact List.forall_mem_singleton.mpr ⟨List.cons_ne_nil _ _, by decide⟩

theorem supplied_sample :
    Supplied sampleSystem (limits sampleSystem sampleMachine [] (sorted sampleForest)) where
  calls _ _ _ := rfl
  files used hused := by
    have hfiles : (limits sampleSystem sampleMachine [] (sorted sampleForest)).files = 2 := by
      decide
    rw [hfiles] at hused
    by_contra hnone
    have hall : List.range 16 ⊆ used := by
      intro fd hfd
      by_contra hfree
      exact hnone (List.find?_isSome.mpr ⟨fd, hfd, by simpa using hfree⟩)
    have hlength := (List.subperm_of_subset List.nodup_range hall).length_le
    rw [List.length_range] at hlength
    omega
  reserve := by decide +kernel
  commit _ _ := rfl

theorem add_emits_sample : ∃ k, ∀ fuel, ∃ m',
    sampleMachine.add sampleSystem (fuel + k) [] = .ok m' ∧
      Adds sampleMachine m' (treeRecords (ascii "p") (sorted sampleForest)) :=
  ((add_emits named_sample).2.2 sampleSystem [] sampleMachine (fun _ => rfl) lists_sample
    (by decide) (by decide) (by decide +kernel)).2 supplied_sample

example : (sampleMachine.add sampleSystem 8 []).toOption.map Machine.records =
    some [⟨ascii "p", ascii "a", none⟩, ⟨ascii "p/a", ascii "c", some []⟩,
      ⟨ascii "p", ascii "b", some (ascii "x")⟩] := by decide +kernel

end Machine

end Hc.Tar
