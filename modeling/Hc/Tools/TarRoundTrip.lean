import Hc.Tools.TarHeader

/-!
# From a tree to an archive and back

The reader is followed record by record over what the writer produces. A record is
found again with its name as the reader sees it, which differs from the name of the
tree exactly when that fills its field.
-/

namespace Hc.Tar

/-! ## The order of the entries -/

theorem insertName_perm (item : Item) (items : List Item) :
    (insertName item items).Perm (item :: items) := by
  induction items with
  | nil => exact .refl _
  | cons prev before ih =>
      rw [insertName]
      split
      · exact .refl _
      · exact (ih.cons prev).trans (.swap item prev before)

theorem foldl_insertName_perm (items acc : List Item) :
    (items.foldl (fun sorted item => insertName item sorted) acc).Perm (items ++ acc) := by
  induction items generalizing acc with
  | nil => exact .refl _
  | cons item items ih =>
      refine (ih (insertName item acc)).trans ?_
      refine ((insertName_perm item acc).append_left items).trans ?_
      exact List.perm_middle

theorem sortNames_perm (items : List Item) : (sortNames items).Perm items := by
  have h := foldl_insertName_perm items []
  rw [List.append_nil] at h
  exact (List.reverse_perm _).trans h

theorem sortedItems_eq (f : Forest) : sortedItems f = f.items.map (Item.mapChildren sorted) := by
  induction f with
  | nil => rfl
  | file name content rest ih => rw [sortedItems, ih]; rfl
  | dir name children rest _ ih => rw [sortedItems, ih]; rfl

theorem sorted_reorders : Forest.Reorders sorted := by
  intro f
  rw [sorted, Forest.items_ofItems, ← sortedItems_eq]
  exact sortNames_perm _

/-! ## The prefix -/

/-- A name that a directory can list. -/
structure ValidName (name : List UInt8) : Prop where
  nonempty : name ≠ []
  no_nul : 0 ∉ name
  no_slash : 47 ∉ name
  not_dot : name ≠ [46]
  not_dotDot : name ≠ [46, 46]

instance (name : List UInt8) : Decidable (ValidName name) :=
  decidable_of_iff (name ≠ [] ∧ 0 ∉ name ∧ 47 ∉ name ∧ name ≠ [46] ∧ name ≠ [46, 46])
    ⟨fun ⟨h₁, h₂, h₃, h₄, h₅⟩ => ⟨h₁, h₂, h₃, h₄, h₅⟩,
      fun h => ⟨h.nonempty, h.no_nul, h.no_slash, h.not_dot, h.not_dotDot⟩⟩

theorem dropWhile_no_slash {name : List UInt8} (h : 47 ∉ name) (rest : List UInt8) :
    (name ++ rest).dropWhile (· != 47) = rest.dropWhile (· != 47) := by
  refine List.dropWhile_append_of_pos fun c hc => ?_
  have hne : c ≠ 47 := fun hslash => h (hslash ▸ hc)
  simpa using hne

/-- `leaveDirectory` undoes `enterDirectory`. -/
theorem leaveDirectory_enterDirectory {pre name : List UInt8} (hname : 47 ∉ name)
    (hpre : pre.length ≤ maxPrefixLen) : leaveDirectory (enterDirectory pre name) = pre := by
  have hreverse : 47 ∉ name.reverse := by rwa [List.mem_reverse]
  unfold leaveDirectory enterDirectory
  by_cases hempty : pre = []
  · have hdrop := dropWhile_no_slash hreverse []
    rw [List.append_nil] at hdrop
    rw [if_pos hempty, hdrop, hempty]
    rfl
  · rw [if_neg hempty, if_neg (by omega), List.reverse_append, List.reverse_cons,
      List.append_assoc, dropWhile_no_slash hreverse _]
    change ((47 :: pre.reverse).drop 1).reverse = pre
    rw [List.drop_succ_cons, List.drop_zero, List.reverse_reverse]

theorem no_nul_enterDirectory {pre name : List UInt8} (hpre : 0 ∉ pre) (hname : 0 ∉ name) :
    0 ∉ enterDirectory pre name := by
  unfold enterDirectory
  split
  · exact hname
  · split
    · exact hpre
    · simp [hpre, hname]

/-! ## What `add` has written -/

theorem length_of_writeRecord {pre name record : List UInt8} {content : Option (List UInt8)}
    (h : writeRecord pre name content = some record) :
    name.length ≤ maxNameLen ∧ pre.length ≤ maxPrefixLen := by
  unfold writeRecord at h
  split at h
  next => cases h
  next hchecks =>
    simp only [not_or, not_lt, gt_iff_lt] at hchecks
    exact ⟨hchecks.1, hchecks.2.1⟩

theorem addEntries_file {name content pre bytes pre' : List UInt8} {rest : Forest}
    (h : addEntries (.file name content rest) pre = some (bytes, pre')) :
    ∃ record more, writeRecord pre name (some content) = some record ∧
      addEntries rest pre = some (more, pre') ∧ bytes = record ++ more := by
  rw [addEntries] at h
  obtain ⟨record, hrecord, h⟩ := Option.bind_eq_some_iff.mp h
  obtain ⟨⟨more, pre''⟩, hmore, h⟩ := Option.bind_eq_some_iff.mp h
  obtain ⟨rfl, rfl⟩ := Prod.mk.inj (Option.some.inj h)
  exact ⟨record, more, hrecord, hmore, rfl⟩

theorem addEntries_dir {name pre bytes pre' : List UInt8} {children rest : Forest}
    (h : addEntries (.dir name children rest) pre = some (bytes, pre')) :
    ∃ record inner pre'' more, writeRecord pre name none = some record ∧
      addEntries children (enterDirectory pre name) = some (inner, pre'') ∧
      addEntries rest (leaveDirectory pre'') = some (more, pre') ∧
      bytes = record ++ inner ++ more := by
  rw [addEntries] at h
  obtain ⟨record, hrecord, h⟩ := Option.bind_eq_some_iff.mp h
  obtain ⟨⟨inner, pre''⟩, hinner, h⟩ := Option.bind_eq_some_iff.mp h
  obtain ⟨⟨more, pre₃⟩, hmore, h⟩ := Option.bind_eq_some_iff.mp h
  obtain ⟨rfl, rfl⟩ := Prod.mk.inj (Option.some.inj h)
  exact ⟨record, inner, pre'', more, hrecord, hinner, hmore, rfl⟩

/-- The prefix is restored after every directory. -/
theorem pre_addEntries {f : Forest} (hnamed : f.AllNames ValidName) {pre bytes pre' : List UInt8}
    (h : addEntries f pre = some (bytes, pre')) : pre' = pre := by
  induction f generalizing pre bytes pre' with
  | nil =>
      obtain ⟨rfl, rfl⟩ := Prod.mk.inj (Option.some.inj h)
      rfl
  | file name content rest ih =>
      obtain ⟨record, more, hrecord, hmore, rfl⟩ := addEntries_file h
      exact ih hnamed.2 hmore
  | dir name children rest ihChildren ihRest =>
      obtain ⟨record, inner, pre'', more, hrecord, hinner, hmore, rfl⟩ := addEntries_dir h
      obtain ⟨hname, hchildren, hrest⟩ := hnamed
      obtain rfl := ihChildren hchildren hinner
      rw [leaveDirectory_enterDirectory hname.no_slash (length_of_writeRecord hrecord).2] at hmore
      exact ihRest hrest hmore

/-- Names that are written fit their field. -/
theorem allNames_of_addEntries {f : Forest} {pre bytes pre' : List UInt8}
    (h : addEntries f pre = some (bytes, pre')) : f.AllNames (·.length ≤ maxNameLen) := by
  induction f generalizing pre bytes pre' with
  | nil => exact trivial
  | file name content rest ih =>
      obtain ⟨record, more, hrecord, hmore, rfl⟩ := addEntries_file h
      exact ⟨(length_of_writeRecord hrecord).1, ih hmore⟩
  | dir name children rest ihChildren ihRest =>
      obtain ⟨record, inner, pre'', more, hrecord, hinner, hmore, rfl⟩ := addEntries_dir h
      exact ⟨(length_of_writeRecord hrecord).1, ihChildren hinner, ihRest hmore⟩

end Hc.Tar

namespace Hc.Untar

open Tar

/-! ## Paths -/

theorem resolve_no_slash (path : Path) (component : List UInt8) {text : List UInt8}
    (h : 47 ∉ text) : resolve path component text = descend path (component ++ text) := by
  induction text generalizing component with
  | nil => rw [resolve, List.append_nil]
  | cons c text ih =>
      obtain ⟨hc, htext⟩ := not_or.mp (List.mem_cons.not.mp h)
      rw [resolve, if_neg (Ne.symm hc), ih _ htext, List.append_assoc, List.singleton_append]

theorem resolve_slash (path : Path) (component text more : List UInt8) :
    resolve path component (text ++ 47 :: more) = resolve
      (resolve path component text) [] more := by
  induction text generalizing path component with
  | nil =>
      rw [List.nil_append]
      exact if_pos rfl
  | cons c text ih =>
      rw [List.cons_append, resolve, resolve]
      split
      · exact ih _ _
      · exact ih _ _

theorem resolve_validName (path : Path) {name : List UInt8} (h : ValidName name) :
    resolve path [] name = path ++ [name] := by
  rw [resolve_no_slash path [] h.no_slash, List.nil_append, descend,
    if_neg (by simp [h.nonempty, h.not_dot]), if_neg h.not_dotDot]

theorem resolve_enterDirectory {pre name : List UInt8} (hname : ValidName name)
    (hpre : pre.length ≤ maxPrefixLen) :
    resolve [] [] (enterDirectory pre name) = resolve [] [] pre ++ [name] := by
  unfold enterDirectory
  by_cases hempty : pre = []
  · rw [if_pos hempty, hempty, resolve_validName [] hname]
    rfl
  · rw [if_neg hempty, if_neg (by omega), resolve_slash, resolve_validName _ hname]

/-- Where an entry of the directory that the prefix leads to is created. -/
theorem target_validName (fs : FileSystem) (pre : List UInt8) {name : List UInt8}
    (h : ValidName name) : target fs pre name =
      if fs (resolve [] [] pre) = some .dir ∧ fs (resolve [] [] pre ++ [name]) = none then
        some (resolve [] [] pre ++ [name])
      else
        none := by
  have hdirectory : (if pre = [] then [] else resolve [] [] pre) = resolve [] [] pre := by
    split
    next hempty => rw [hempty]; rfl
    next => rfl
  simp [target, hdirectory, resolve_validName _ h, h.nonempty]

/-! ## Records -/

theorem run_nil (s : State) : run s [] = s := by
  rw [run, records, if_neg (by decide)]
  rfl

theorem run_append {record : List UInt8} (s : State) (more : List UInt8)
    (h : record.length = 512) : run s (record ++ more) = run (step s record) more := by
  rw [run, records, if_pos (by rw [List.length_append, h]; omega), ← h, List.take_left,
    List.drop_left, List.foldl_cons]
  rfl

theorem run_stopped (fs : FileSystem) (status : ℕ) (input : List UInt8) :
    run ⟨fs, .stopped status⟩ input = ⟨fs, .stopped status⟩ := by
  unfold run
  induction records input with
  | nil => rfl
  | cons record records ih => exact ih

theorem update_update (fs : FileSystem) (path : Path) (first second : Entry) :
    update (update fs path first) path second = update fs path second := by
  funext other
  unfold update
  split <;> rfl

theorem appendTo_update_file (fs : FileSystem) (path : Path) (content bytes : List UInt8) :
    appendTo (update fs path (.file content)) path bytes =
      update fs path (.file (content ++ bytes)) := by
  rw [appendTo, show update fs path (.file content) path = some (.file content) by simp [update]]
  exact update_update fs path _ _

/-- The content of a file is read up to its padding. -/
theorem run_data (fs : FileSystem) (path : Path) (done content more : List UInt8)
    (hcontent : content ≠ []) :
    run ⟨update fs path (.file done), .data path content.length⟩
        (content ++ (List.replicate (padBytes content.length) 0 ++ more)) =
      run ⟨update fs path (.file (done ++ content)), .header 0⟩ more := by
  induction hlength : content.length using Nat.strong_induction_on generalizing done content with
  | _ length ih =>
      subst hlength
      have hpos : 0 < content.length := List.length_pos_iff.mpr hcontent
      by_cases hlast : content.length ≤ 512
      · have hrecord :
            (content ++ List.replicate (padBytes content.length) (0 : UInt8)).length = 512 := by
          rw [List.length_append, List.length_replicate, padBytes]
          omega
        rw [← List.append_assoc, run_append _ _ hrecord]
        simp only [step, Nat.min_eq_right hlast, Nat.sub_self, lt_irrefl, if_false,
          List.take_left, appendTo_update_file]
      · have hrecord : (content.take 512).length = 512 := by
          rw [List.length_take]
          omega
        have hdrop : (content.drop 512).length = content.length - 512 := List.length_drop
        have hpad : padBytes content.length = padBytes (content.drop 512).length := by
          rw [hdrop, padBytes, padBytes]
          omega
        have hne : content.drop 512 ≠ [] := List.ne_nil_of_length_pos (by omega)
        have hrest := ih _ (by omega) (done ++ content.take 512) _ hne rfl
        rw [List.append_assoc, List.take_append_drop, ← hpad] at hrest
        rw [← hrest]
        conv_lhs => rw [← List.take_append_drop 512 content, List.append_assoc,
          run_append _ _ hrecord]
        simp only [step, List.take_append_drop, Nat.min_eq_left
          (show 512 ≤ content.length by omega), List.take_take, min_self, appendTo_update_file,
          hdrop]
        rw [if_pos (by omega)]

/-- The name that the reader finds where the writer put a name. -/
def readName (name : List UInt8) : List UInt8 :=
  if name.length < maxNameLen then name else name ++ ascii "0000777"

theorem readName_of_lt {name : List UInt8} (h : name.length < maxNameLen) : readName name = name :=
  if_pos h

theorem length_readName_ne {name : List UInt8} : (readName name).length ≠ maxNameLen := by
  have hmode : (ascii "0000777").length = 7 := rfl
  unfold readName
  split
  · omega
  · rw [List.length_append]
    omega

theorem readName_validName {name : List UInt8} (h : ValidName name) : ValidName
    (readName name) := by
  unfold readName
  split
  next => exact h
  next hfull =>
    have hlength : 100 ≤ (name ++ ascii "0000777").length := by
      rw [List.length_append]
      exact le_add_right (not_lt.mp hfull)
    have hmode : 0 ∉ ascii "0000777" ∧ 47 ∉ ascii "0000777" := by decide
    refine ⟨?_, by simp [h.no_nul, hmode.1], by simp [h.no_slash, hmode.2], ?_, ?_⟩
    · exact fun heq => absurd (heq ▸ hlength) (by decide)
    · exact fun heq => absurd (heq ▸ hlength) (by decide)
    · exact fun heq => absurd (heq ▸ hlength) (by decide)

theorem cstr_header_readName {pre name : List UInt8} {typeflag : UInt8} {size : ℕ}
    (hname : name.length ≤ maxNameLen) (hpre : pre.length ≤ maxPrefixLen) (h : 0 ∉ name) :
    cstr (header pre name typeflag size).toList offsetName = readName name := by
  unfold readName
  split
  next hlt => exact cstr_header_name hlt hpre h
  next hfull => exact cstr_header_full_name (le_antisymm hname (not_lt.mp hfull)) hpre h

/-- What the record of an entry creates. -/
def createdEntry : Option (List UInt8) → Entry
  | none => .dir
  | some content => .file content

/-- The header of a directory. -/
theorem onHeader_dir {pre name : List UInt8} (fs : FileSystem) (hpre : 0 ∉ pre) (hname : 0 ∉ name)
    (hpreLen : pre.length ≤ maxPrefixLen) (hnameLen : name.length ≤ maxNameLen) :
    onHeader fs 0 (header pre name 53 0).toList =
      match target fs pre (readName name) with
      | none => ⟨fs, .stopped 1⟩
      | some path => ⟨update fs path .dir, .header 0⟩ := by
  unfold onHeader
  simp only [byteAt_header_typeflag, cstr_header_pre hnameLen hpreLen hpre,
    cstr_header_readName hnameLen hpreLen hname]
  rfl

/-- The header of a file. -/
theorem onHeader_file {pre name : List UInt8} {size : ℕ} (fs : FileSystem) (hpre : 0 ∉ pre)
    (hname : 0 ∉ name) (hpreLen : pre.length ≤ maxPrefixLen) (hnameLen : name.length ≤ maxNameLen)
    (hsize : size ≤ maxFileSize) :
    onHeader fs 0 (header pre name 48 size).toList =
      match target fs pre (readName name) with
      | none => ⟨fs, .stopped 1⟩
      | some path => ⟨update fs path (.file []), if size > 0 then .data path size
        else .header 0⟩ := by
  unfold onHeader
  simp only [byteAt_header_typeflag, cstr_header_pre hnameLen hpreLen hpre,
    cstr_header_readName hnameLen hpreLen hname, parseSize_header hsize]
  rfl

/-- The record of an entry is read as that entry with the name as the reader finds it. -/
theorem run_writeRecord {pre name : List UInt8} {content : Option (List UInt8)}
    {record : List UInt8} (fs : FileSystem) (more : List UInt8) (hpre : 0 ∉ pre) (hname : 0 ∉ name)
    (h : writeRecord pre name content = some record) :
    run ⟨fs, .header 0⟩ (record ++ more) =
      match target fs pre (readName name) with
      | none => ⟨fs, .stopped 1⟩
      | some path => run ⟨update fs path (createdEntry content), .header 0⟩ more := by
  unfold writeRecord at h
  split at h
  next => cases h
  next hchecks =>
    simp only [not_or, not_lt, gt_iff_lt] at hchecks
    obtain ⟨hnameLen, hpreLen, hsize⟩ := hchecks
    cases content with
    | none =>
        obtain rfl := Option.some.inj h
        rw [run_append _ _ (List.Vector.toList_length _)]
        simp only [step, onHeader_dir fs hpre hname hpreLen hnameLen]
        cases target fs pre (readName name) with
        | none => exact run_stopped fs 1 more
        | some path => rfl
    | some content =>
        obtain rfl := Option.some.inj h
        rw [Option.getD_some] at hsize
        rw [List.append_assoc, run_append _ _ (List.Vector.toList_length _)]
        simp only [step, onHeader_file fs hpre hname hpreLen hnameLen hsize]
        cases target fs pre (readName name) with
        | none => exact run_stopped fs 1 _
        | some path =>
            by_cases hempty : content = []
            · simp [hempty, createdEntry]
            · have hpos : 0 < content.length := List.length_pos_iff.mpr hempty
              simp only [gt_iff_lt, if_pos hpos, if_neg hpos.ne', List.append_assoc]
              exact run_data fs path [] content more hempty

theorem step_zeros (fs : FileSystem) (zeroRecordCount : ℕ) :
    step ⟨fs, .header zeroRecordCount⟩ (List.replicate 512 0) =
      if zeroRecordCount + 1 < 2 then ⟨fs, .header (zeroRecordCount + 1)⟩ else
        ⟨fs, .stopped 0⟩ := by
  have htypeflag : byteAt (List.replicate 512 0) offsetTypeflag = 0 := by
    rw [byteAt, List.getD_eq_getElem?_getD, List.getElem?_replicate, if_pos (by decide),
      Option.getD_some]
  have hall : (List.replicate 512 (0 : UInt8)).all (· == 0) = true := by
    rw [List.all_replicate]
    rfl
  simp only [step, onHeader, htypeflag, hall, if_true]

/-- The end marker is found. -/
theorem run_end (fs : FileSystem) :
    run ⟨fs, .header 0⟩ (List.replicate 1024 0) = ⟨fs, .stopped 0⟩ := by
  rw [show 1024 = 512 + 512 from rfl, List.replicate_add, run_append _ _ List.length_replicate,
    step_zeros, if_pos (by decide), ← List.append_nil (List.replicate 512 0),
    run_append _ _ List.length_replicate, step_zeros, if_neg (by decide), run_nil]

/-! ## Reading a tree back -/

/-- A file system with a directory put at a path. -/
def graft (fs : FileSystem) (path : Path) (f : Forest) : FileSystem := fun other =>
  if path <+: other then (f.lookup (other.drop path.length)).or (fs other) else fs other

theorem graft_append (fs : FileSystem) (path : Path) (f : Forest) (rest : Path) :
    graft fs path f (path ++ rest) = (f.lookup rest).or (fs (path ++ rest)) := by
  rw [graft, if_pos (List.prefix_append path rest), List.drop_left]

theorem graft_of_not_below (fs : FileSystem) (path : Path) (f : Forest) {other : Path}
    (h : ¬ path <+: other) : graft fs path f other = fs other :=
  if_neg h

/-- Two file systems are the same below a path and elsewhere. -/
theorem ext_below {fs fs' : FileSystem} (path : Path)
    (hbelow : ∀ rest, fs (path ++ rest) = fs' (path ++ rest))
    (helse : ∀ other, ¬ path <+: other → fs other = fs' other) : fs = fs' := by
  funext other
  by_cases h : path <+: other
  · obtain ⟨rest, rfl⟩ := h
    exact hbelow rest
  · exact helse other h

theorem graft_nil (fs : FileSystem) (path : Path) : graft fs path .nil = fs := by
  refine ext_below path (fun rest => ?_) (fun other h => graft_of_not_below fs path _ h)
  rw [graft_append, Forest.lookup, Option.none_or]

theorem update_append (fs : FileSystem) (path rest : Path) (name : List UInt8) (entry : Entry) :
    update fs (path ++ [name]) entry (path ++ rest) =
      if rest = [name] then some entry else fs (path ++ rest) := by
  unfold update
  simp only [List.append_cancel_left_eq]

theorem update_of_not_below (fs : FileSystem) (path : Path) (name : List UInt8) (entry : Entry)
    {other : Path} (h : ¬ path <+: other) : update fs (path ++ [name]) entry other = fs other := by
  refine if_neg ?_
  rintro rfl
  exact h (List.prefix_append path [name])

theorem not_below_self (path : Path) (name : List UInt8) : ¬ path ++ [name] <+: path := by
  intro h
  have hlength := h.length_le
  rw [List.length_append, List.length_singleton] at hlength
  omega

theorem not_below_sibling {path tail : Path} {name head : List UInt8} (h : head ≠ name) :
    ¬ path ++ [name] <+: path ++ head :: tail := by
  rintro ⟨below, heq⟩
  rw [List.append_assoc, List.append_cancel_left_eq] at heq
  exact h (List.cons_eq_cons.mp heq).1.symm

theorem update_self {fs : FileSystem} {path : Path} (name : List UInt8) (entry : Entry) :
    update fs (path ++ [name]) entry path = fs path :=
  if_neg fun heq => not_below_self path name ⟨[], by rw [List.append_nil, ← heq]⟩

/-- Nothing is at or below the given names of a directory. -/
def Fresh (fs : FileSystem) (path : Path) (names : List (List UInt8)) : Prop :=
  ∀ name ∈ names, ∀ rest, fs (path ++ name :: rest) = none

theorem Fresh.cons {fs : FileSystem} {path : Path} {name : List UInt8} {names : List (List UInt8)}
    (h : Fresh fs path (name :: names)) : Fresh fs path [name] ∧ Fresh fs path names := by
  refine ⟨fun other hother => ?_, fun other hother => h other (List.mem_cons_of_mem _ hother)⟩
  rw [List.mem_singleton.mp hother]
  exact h name List.mem_cons_self

theorem Fresh.update {fs : FileSystem} {path : Path} {names : List (List UInt8)}
    (h : Fresh fs path names) {name : List UInt8} (hname : name ∉ names) (entry : Entry) :
    Fresh (update fs (path ++ [name]) entry) path names := by
  intro other hother rest
  rw [update_append, if_neg, h other hother]
  rintro heq
  exact hname ((List.cons_eq_cons.mp heq).1 ▸ hother)

theorem Fresh.graft {fs : FileSystem} {path : Path} {names : List (List UInt8)}
    (h : Fresh fs path names) {name : List UInt8} (hname : name ∉ names) (f : Forest) :
    Fresh (graft fs (path ++ [name]) f) path names := by
  intro other hother rest
  have hne : other ≠ name := fun heq => hname (heq ▸ hother)
  rw [graft_of_not_below _ _ _ (not_below_sibling hne), h other hother]

theorem graft_file {fs : FileSystem} {path : Path} {name content : List UInt8} {rest : Forest}
    (hfresh : Fresh fs path [name]) (hname : name ∉ rest.names) :
    graft (update fs (path ++ [name]) (.file content)) path rest =
      graft fs path (.file name content rest) := by
  refine ext_below path (fun below => ?_) fun other h => ?_
  · rw [graft_append, graft_append, update_append]
    cases below with
    | nil => rw [Forest.lookup_nil_path, Forest.lookup_nil_path, if_neg (by simp)]
    | cons head tail =>
        rw [Forest.lookup]
        by_cases hhead : head = name
        · subst hhead
          rw [Forest.lookup_of_not_mem hname, hfresh head (by simp) tail, Option.none_or,
            Option.or_none, List.head?_cons, if_pos rfl, List.tail_cons]
          cases tail with
          | nil => simp
          | cons next tail => simp
        · rw [if_neg (by simp [hhead]), if_neg (by simpa using hhead)]
  · rw [graft_of_not_below _ _ _ h, graft_of_not_below _ _ _ h, update_of_not_below _ _ _ _ h]

theorem graft_dir {fs : FileSystem} {path : Path} {name : List UInt8} {children rest : Forest}
    (hfresh : Fresh fs path [name]) (hname : name ∉ rest.names) :
    graft (graft (update fs (path ++ [name]) .dir) (path ++ [name]) children) path rest =
      graft fs path (.dir name children rest) := by
  refine ext_below path (fun below => ?_) fun other h => ?_
  · rw [graft_append, graft_append]
    cases below with
    | nil =>
        rw [Forest.lookup_nil_path, Forest.lookup_nil_path, List.append_nil,
          graft_of_not_below _ _ _ (not_below_self path name), update_self]
    | cons head tail =>
        rw [Forest.lookup]
        by_cases hhead : head = name
        · subst hhead
          have hinner := graft_append (update fs (path ++ [head]) .dir)
            (path ++ [head]) children tail
          rw [← List.append_cons, update_append, hfresh head (by simp) tail] at hinner
          rw [Forest.lookup_of_not_mem hname, hfresh head (by simp) tail, hinner, Option.none_or,
            Option.or_none, List.head?_cons, if_pos rfl, List.tail_cons]
          cases tail with
          | nil => simp [Forest.lookup_nil_path]
          | cons next tail => simp
        · rw [if_neg (by simpa using hhead), graft_of_not_below _ _ _ (not_below_sibling hhead),
            update_append, if_neg (by simp [hhead])]
  · have hbelow : ¬ path ++ [name] <+: other := fun hpre =>
      h ((List.prefix_append path [name]).trans hpre)
    rw [graft_of_not_below _ _ _ h, graft_of_not_below _ _ _ h, graft_of_not_below _ _ _ hbelow,
      update_of_not_below _ _ _ _ h]

/-- Following a record whose name is short, at a place where nothing is. -/
theorem run_writeRecord_fresh {pre name : List UInt8} {content : Option (List UInt8)}
    {record : List UInt8} {fs : FileSystem} (more : List UInt8) (hpre : 0 ∉ pre)
    (hname : ValidName name) (hshort : name.length < maxNameLen)
    (h : writeRecord pre name content = some record) (hdir : fs (resolve [] [] pre) = some .dir)
    (hfresh : Fresh fs (resolve [] [] pre) [name]) :
    run ⟨fs, .header 0⟩ (record ++ more) =
      run ⟨update fs (resolve [] [] pre ++ [name]) (createdEntry content), .header 0⟩ more := by
  rw [run_writeRecord fs more hpre hname.no_nul h, readName_of_lt hshort,
    target_validName fs pre hname, if_pos ⟨hdir, hfresh name (by simp) []⟩]

/-- The loop of `add` over a directory is read as that directory. -/
theorem run_addEntries {f : Forest} (hnamed : f.Named ValidName)
    (hshort : f.AllNames (·.length < maxNameLen)) {pre bytes pre' : List UInt8} (hpre : 0 ∉ pre)
    (h : addEntries f pre = some (bytes, pre')) {fs : FileSystem}
    (hdir : fs (resolve [] [] pre) = some .dir) (hfresh : Fresh fs (resolve [] [] pre) f.names)
    (more : List UInt8) :
    run ⟨fs, .header 0⟩ (bytes ++ more) =
      run ⟨graft fs (resolve [] [] pre) f, .header 0⟩ more := by
  induction f generalizing pre bytes pre' fs more with
  | nil =>
      obtain ⟨rfl, rfl⟩ := Prod.mk.inj (Option.some.inj h)
      rw [graft_nil, List.nil_append]
  | file name content rest ih =>
      obtain ⟨record, after, hrecord, hafter, rfl⟩ := addEntries_file h
      obtain ⟨hname, hnew, hrest⟩ := hnamed
      obtain ⟨hfreshName, hfreshRest⟩ : Fresh fs (resolve [] [] pre) [name] ∧
        Fresh fs (resolve [] [] pre) rest.names := Fresh.cons hfresh
      rw [List.append_assoc,
        run_writeRecord_fresh _ hpre hname hshort.1 hrecord hdir hfreshName,
        ih hrest hshort.2 hpre hafter ((update_self _ _).trans hdir)
          (hfreshRest.update hnew _) more]
      exact congrArg (fun fs => run ⟨fs, .header 0⟩ more) (graft_file hfreshName hnew)
  | dir name children rest ihChildren ihRest =>
      obtain ⟨record, inner, pre'', after, hrecord, hinner, hafter, rfl⟩ := addEntries_dir h
      obtain ⟨hname, hnew, hchildren, hrest⟩ := hnamed
      obtain ⟨hfreshName, hfreshRest⟩ : Fresh fs (resolve [] [] pre) [name] ∧
        Fresh fs (resolve [] [] pre) rest.names := Fresh.cons hfresh
      have hpreLen := (length_of_writeRecord hrecord).2
      obtain rfl := pre_addEntries hchildren.allNames hinner
      rw [leaveDirectory_enterDirectory hname.no_slash hpreLen] at hafter
      have hpath := resolve_enterDirectory hname hpreLen
      rw [List.append_assoc, List.append_assoc,
        run_writeRecord_fresh _ hpre hname hshort.1 hrecord hdir hfreshName]
      have hdirChildren : update fs (resolve [] [] pre ++ [name]) .dir
          (resolve [] [] (enterDirectory pre name)) = some .dir := by
        rw [hpath, update, if_pos rfl]
      have hfreshChildren : Fresh (update fs (resolve [] [] pre ++ [name]) .dir)
          (resolve [] [] (enterDirectory pre name)) children.names := by
        intro child _ below
        rw [hpath, ← List.append_cons, update_append, if_neg (by simp), hfreshName name (by simp)]
      rw [createdEntry, ihChildren hchildren hshort.2.1 (no_nul_enterDirectory hpre hname.no_nul)
        hinner hdirChildren hfreshChildren, hpath]
      have hdirRest : graft (update fs (resolve [] [] pre ++ [name]) .dir)
          (resolve [] [] pre ++ [name]) children (resolve [] [] pre) = some .dir := by
        rw [graft_of_not_below _ _ _ (not_below_self _ name), update_self, hdir]
      rw [ihRest hrest hshort.2.2 hpre hafter hdirRest
        ((hfreshRest.update hnew _).graft hnew children), graft_dir hfreshName hnew]

/-! ## Names that fill their field -/

/-- No entry has a name that fills its field. -/
def NoFull (fs : FileSystem) : Prop :=
  ∀ path name, fs (path ++ [name]) ≠ none → name.length ≠ maxNameLen

theorem NoFull.update {fs : FileSystem} (h : NoFull fs) (path : Path) {name : List UInt8}
    (hname : name.length ≠ maxNameLen) (entry : Entry) :
    NoFull (update fs (path ++ [name]) entry) := by
  intro other last hfound
  unfold Untar.update at hfound
  split at hfound
  next heq =>
    obtain ⟨-, hlast⟩ := List.append_inj' heq rfl
    rwa [List.singleton_inj.mp hlast]
  next => exact h other last hfound

theorem noFull_run_writeRecord {pre name : List UInt8} {content : Option (List UInt8)}
    {record more : List UInt8} {fs : FileSystem} (hpre : 0 ∉ pre) (hname : ValidName name)
    (h : writeRecord pre name content = some record)
    (hmore : ∀ fs, NoFull fs → NoFull (run ⟨fs, .header 0⟩ more).fs) (hfs : NoFull fs) :
    NoFull (run ⟨fs, .header 0⟩ (record ++ more)).fs := by
  rw [run_writeRecord fs more hpre hname.no_nul h, target_validName fs pre
    (readName_validName hname)]
  split
  next => exact hfs
  next path hpath =>
    split at hpath
    next =>
      obtain rfl := Option.some.inj hpath
      exact hmore _ (hfs.update _ length_readName_ne _)
    next => cases hpath

/-- The loop of `add` creates no entry whose name fills its field, whether the reader
goes through it or stops. -/
theorem noFull_run_addEntries {f : Forest} (hnamed : f.Named ValidName)
    {pre bytes pre' more : List UInt8} (hpre : 0 ∉ pre) (h : addEntries f pre = some (bytes, pre'))
    (hmore : ∀ fs, NoFull fs → NoFull (run ⟨fs, .header 0⟩ more).fs) {fs : FileSystem}
    (hfs : NoFull fs) : NoFull (run ⟨fs, .header 0⟩ (bytes ++ more)).fs := by
  induction f generalizing pre bytes pre' more fs with
  | nil =>
      obtain ⟨rfl, rfl⟩ := Prod.mk.inj (Option.some.inj h)
      exact hmore fs hfs
  | file name content rest ih =>
      obtain ⟨record, after, hrecord, hafter, rfl⟩ := addEntries_file h
      rw [List.append_assoc]
      exact noFull_run_writeRecord hpre hnamed.1 hrecord
        (fun fs hfs => ih hnamed.2.2 hpre hafter hmore hfs) hfs
  | dir name children rest ihChildren ihRest =>
      obtain ⟨record, inner, pre'', after, hrecord, hinner, hafter, rfl⟩ := addEntries_dir h
      obtain ⟨hname, -, hchildren, hrest⟩ := hnamed
      obtain rfl := pre_addEntries hchildren.allNames hinner
      rw [leaveDirectory_enterDirectory hname.no_slash (length_of_writeRecord hrecord).2] at hafter
      rw [List.append_assoc, List.append_assoc]
      refine noFull_run_writeRecord hpre hname hrecord (fun fs hfs => ?_) hfs
      refine ihChildren hchildren (no_nul_enterDirectory hpre hname.no_nul) hinner
        (fun fs hfs => ?_) hfs
      exact ihRest hrest hpre hafter hmore hfs

/-! ## The round trip -/

theorem untar_eq (input : List UInt8) :
    (untar input).2 = (run ⟨emptyDirectory, .header 0⟩ input).fs := by
  unfold untar
  dsimp only
  split <;> rfl

theorem noFull_emptyDirectory : NoFull emptyDirectory := by
  intro path name hfound
  simp [emptyDirectory] at hfound

theorem noFull_untar {f : Forest} {bytes : List UInt8} (hnamed : f.Named ValidName)
    (h : archive f = some bytes) : NoFull (untar bytes).2 := by
  obtain ⟨⟨entries, pre⟩, hentries, h⟩ := Option.bind_eq_some_iff.mp h
  obtain rfl := Option.some.inj h
  rw [untar_eq]
  refine noFull_run_addEntries (sorted_reorders.named hnamed) (by simp) hentries
    (fun fs hfs => ?_) noFull_emptyDirectory
  rwa [run_end]

theorem graft_emptyDirectory (f : Forest) : graft emptyDirectory [] f = f.toFileSystem := by
  refine ext_below [] (fun path => ?_) fun other h => absurd (List.nil_prefix) h
  rw [graft_append, List.nil_append, emptyDirectory, Forest.toFileSystem]
  split
  next hempty => rw [hempty, Forest.lookup_nil_path, Option.none_or]
  next => rw [Option.or_none]

theorem untar_of_short {f : Forest} {bytes : List UInt8} (hnamed : f.Named ValidName)
    (h : archive f = some bytes) (hshort : f.AllNames (·.length < maxNameLen)) :
    untar bytes = (0, f.toFileSystem) := by
  obtain ⟨⟨entries, pre⟩, hentries, h⟩ := Option.bind_eq_some_iff.mp h
  obtain rfl := Option.some.inj h
  have hfresh : Fresh emptyDirectory (resolve [] [] []) (sorted f).names := by
    intro name _ rest
    exact if_neg (by simp)
  have hrun := run_addEntries (sorted_reorders.named hnamed)
    ((sorted_reorders.allNames_iff f).mpr hshort) (by simp) hentries rfl hfresh
      (List.replicate 1024 0)
  have hgraft : graft emptyDirectory (resolve [] [] []) (sorted f) = f.toFileSystem := by
    refine (graft_emptyDirectory _).trans ?_
    funext path
    rw [Forest.toFileSystem, Forest.toFileSystem, sorted_reorders.lookup_eq hnamed]
  rw [run_end, hgraft] at hrun
  unfold untar
  rw [hrun]

/-- An archive is read back as the tree it was made from exactly when no name fills its
field. -/
theorem untar_archive_iff {f : Forest} {bytes : List UInt8} (hnamed : f.Named ValidName)
    (h : archive f = some bytes) :
    untar bytes = (0, f.toFileSystem) ↔ f.AllNames (·.length < maxNameLen) := by
  refine ⟨fun heq => ?_, untar_of_short hnamed h⟩
  have hfull := noFull_untar hnamed h
  rw [heq] at hfull
  obtain ⟨⟨entries, pre⟩, hentries, -⟩ := Option.bind_eq_some_iff.mp h
  have hfits := (sorted_reorders.allNames_iff f).mp (allNames_of_addEntries hentries)
  refine Forest.AllNames.mp ?_ hfits
  refine Forest.allNames_of_lookup hnamed fun path name hfound hle => ?_
  refine lt_of_le_of_ne hle (hfull path name ?_)
  change f.toFileSystem (path ++ [name]) ≠ none
  rw [Forest.toFileSystem, if_neg (by simp)]
  exact hfound

/-- A directory with a file in it. -/
def sampleTree : Forest := .dir (ascii "d") (.file (ascii "f") (ascii "x") .nil) .nil

theorem archive_sampleTree : ∃ bytes, archive sampleTree = some bytes := ⟨_, rfl⟩

theorem untar_archive_iff_sample : ∃ bytes, archive sampleTree = some bytes ∧
    (untar bytes = (0, sampleTree.toFileSystem) ↔
      sampleTree.AllNames (·.length < maxNameLen)) := by
  obtain ⟨bytes, h⟩ := archive_sampleTree
  have hvalid : ValidName (ascii "d") ∧ ValidName (ascii "f") := by decide
  refine ⟨bytes, h, untar_archive_iff ?_ h⟩
  exact ⟨hvalid.1, by simp [Forest.names, Forest.items],
    ⟨hvalid.2, by simp [Forest.names, Forest.items], trivial⟩, trivial⟩

/-- One empty file whose name fills its field. -/
def fullNameTree : Forest := .file (List.replicate 100 97) [] .nil

/-- A tree that passes every check of the writer and is not read back. -/
theorem untar_archive_full_name : ∃ bytes, fullNameTree.Named ValidName ∧
    archive fullNameTree = some bytes ∧ untar bytes ≠ (0, fullNameTree.toFileSystem) := by
  have hnamed : fullNameTree.Named ValidName :=
    ⟨by decide, by simp [Forest.names, Forest.items], trivial⟩
  obtain ⟨bytes, h⟩ : ∃ bytes, archive fullNameTree = some bytes := ⟨_, rfl⟩
  refine ⟨bytes, hnamed, h, fun heq => ?_⟩
  have hfull := noFull_untar hnamed h
  rw [heq] at hfull
  exact hfull [] (List.replicate 100 97) (by decide) rfl

end Hc.Untar
