import Mathlib.Data.List.Nodup
import Mathlib.Data.List.Perm.Basic
import Mathlib.Tactic.Common

/-!
# Directory trees

A `Forest` is the content of a directory: files and directories with their names, in
the order in which the directory lists them. What it contains at a path does not
depend on that order. A `FileSystem` is the same information as a function of paths.
-/

namespace Hc

/-- The content of a directory. -/
inductive Forest where
  | nil
  | file (name content : List UInt8) (rest : Forest)
  | dir (name : List UInt8) (children rest : Forest)

/-- One entry of a directory. -/
inductive Item where
  | file (name content : List UInt8)
  | dir (name : List UInt8) (children : Forest)

/-- What is found at a path. -/
inductive Entry where
  | file (content : List UInt8)
  | dir
deriving DecidableEq

/-- A path: the names from the top down. -/
abbrev Path := List (List UInt8)

/-- What each path leads to. -/
abbrev FileSystem := Path → Option Entry

namespace Item

def name : Item → List UInt8
  | file name _ => name
  | dir name _ => name

/-- The children of a directory replaced. -/
def mapChildren (f : Forest → Forest) : Item → Item
  | file name content => file name content
  | dir name children => dir name (f children)

@[simp] theorem name_mapChildren (f : Forest → Forest) (item : Item) :
    (item.mapChildren f).name = item.name := by
  cases item with
  | file name content => rfl
  | dir name children => rfl

/-- A property of the children, if the entry is a directory. -/
def Children (P : Forest → Prop) : Item → Prop
  | file _ _ => True
  | dir _ children => P children

end Item

namespace Forest

/-- The entries in order. -/
def items : Forest → List Item
  | nil => []
  | file name content rest => .file name content :: rest.items
  | dir name children rest => .dir name children :: rest.items

/-- One more entry at the front. -/
def push : Item → Forest → Forest
  | .file name content, rest => file name content rest
  | .dir name children, rest => dir name children rest

/-- The directory with the given entries. -/
def ofItems (items : List Item) : Forest := items.foldr push nil

/-- The names in a directory. -/
def names (f : Forest) : List (List UInt8) := f.items.map Item.name

/-- What is at a path below the directory. -/
def lookup : Forest → FileSystem
  | nil, _ => none
  | file name content rest, path =>
    if path.head? = some name then
      if path.tail.isEmpty then some (.file content) else none
    else
      rest.lookup path
  | dir name children rest, path =>
    if path.head? = some name then
      if path.tail.isEmpty then some .dir else children.lookup path.tail
    else
      rest.lookup path

/-- The directory as a file system of its own. -/
def toFileSystem (f : Forest) : FileSystem := fun path =>
  if path = [] then some .dir else f.lookup path

/-- Every name satisfies `P`, and the names of each directory are distinct. -/
def Named (P : List UInt8 → Prop) : Forest → Prop
  | nil => True
  | file name _ rest => P name ∧ name ∉ rest.names ∧ rest.Named P
  | dir name children rest => P name ∧ name ∉ rest.names ∧ children.Named P ∧ rest.Named P

/-- Every name satisfies `P`. -/
def AllNames (P : List UInt8 → Prop) : Forest → Prop
  | nil => True
  | file name _ rest => P name ∧ rest.AllNames P
  | dir name children rest => P name ∧ children.AllNames P ∧ rest.AllNames P

@[simp] theorem items_push (item : Item) (f : Forest) : (push item f).items = item :: f.items := by
  cases item with
  | file name content => rfl
  | dir name children => rfl

@[simp] theorem items_ofItems (items : List Item) : (ofItems items).items = items := by
  induction items with
  | nil => rfl
  | cons item items ih =>
      change (push item (ofItems items)).items = _
      rw [items_push, ih]

/-- Induction over the directories inside a directory. -/
theorem induction_items {motive : Forest → Prop}
    (step : ∀ f : Forest, (∀ item ∈ f.items, item.Children motive) → motive f) (f : Forest) :
    motive f := by
  have hall : motive f ∧ ∀ item ∈ f.items, item.Children motive := by
    induction f with
    | nil => exact ⟨step nil (by simp [items]), by simp [items]⟩
    | file name content rest ih =>
        have hitems : ∀ item ∈ (file name content rest).items, item.Children motive := by
          intro item hitem
          rcases List.mem_cons.mp hitem with rfl | hrest
          · exact trivial
          · exact ih.2 item hrest
        exact ⟨step _ hitems, hitems⟩
    | dir name children rest ihChildren ihRest =>
        have hitems : ∀ item ∈ (dir name children rest).items, item.Children motive := by
          intro item hitem
          rcases List.mem_cons.mp hitem with rfl | hrest
          · exact ihChildren.1
          · exact ihRest.2 item hrest
        exact ⟨step _ hitems, hitems⟩
  exact hall.1

/-! ## The order of the entries does not matter -/

theorem lookup_nil_path (f : Forest) : f.lookup [] = none := by
  induction f with
  | nil => rfl
  | file name content rest ih => simpa [lookup] using ih
  | dir name children rest _ ih => simpa [lookup] using ih

theorem lookup_of_not_mem {f : Forest} {name : List UInt8} (h : name ∉ f.names) (tail : Path) :
    f.lookup (name :: tail) = none := by
  induction f with
  | nil => rfl
  | file other content rest ih =>
      obtain ⟨hother, hrest⟩ := not_or.mp (List.mem_cons.not.mp h)
      rw [lookup, if_neg (by simpa [Item.name] using hother), ih hrest]
  | dir other children rest _ ih =>
      obtain ⟨hother, hrest⟩ := not_or.mp (List.mem_cons.not.mp h)
      rw [lookup, if_neg (by simpa [Item.name] using hother), ih hrest]

/-- What is found below an entry that was looked up by its name. -/
def entryBelow (tail : Path) : Option Item → Option Entry
  | none => none
  | some (.file _ content) => if tail.isEmpty then some (.file content) else none
  | some (.dir _ children) => if tail.isEmpty then some .dir else children.lookup tail

theorem lookup_cons (f : Forest) (name : List UInt8) (tail : Path) :
    f.lookup (name :: tail) = entryBelow tail (f.items.find? (·.name = name)) := by
  induction f with
  | nil => rfl
  | file other content rest ih =>
      by_cases hname : other = name
      · simp [lookup, items, Item.name, hname, entryBelow]
      · simp [lookup, items, Item.name, hname, Ne.symm hname, ih]
  | dir other children rest _ ih =>
      by_cases hname : other = name
      · simp [lookup, items, Item.name, hname, entryBelow]
      · simp [lookup, items, Item.name, hname, Ne.symm hname, ih]

theorem named_iff {P : List UInt8 → Prop} (f : Forest) : f.Named P ↔
    f.names.Nodup ∧ ∀ item ∈ f.items, P item.name ∧ item.Children (Named P) := by
  induction f with
  | nil => simp [Named, names, items]
  | file name content rest ih =>
      simp only [Named, ih, names, items, List.map_cons, List.nodup_cons, List.forall_mem_cons,
        Item.name, Item.Children]
      tauto
  | dir name children rest _ ih =>
      simp only [Named, ih, names, items, List.map_cons, List.nodup_cons, List.forall_mem_cons,
        Item.name, Item.Children]
      tauto

theorem allNames_iff {P : List UInt8 → Prop} (f : Forest) :
    f.AllNames P ↔ ∀ item ∈ f.items, P item.name ∧ item.Children (AllNames P) := by
  induction f with
  | nil => simp [AllNames, items]
  | file name content rest ih =>
      simp only [AllNames, ih, items, List.forall_mem_cons, Item.name, Item.Children]
      tauto
  | dir name children rest _ ih =>
      simp only [AllNames, ih, items, List.forall_mem_cons, Item.name, Item.Children]
      tauto

theorem Named.allNames {P : List UInt8 → Prop} {f : Forest} (h : f.Named P) : f.AllNames P := by
  induction f with
  | nil => exact trivial
  | file name content rest ih => exact ⟨h.1, ih h.2.2⟩
  | dir name children rest ihChildren ihRest =>
      exact ⟨h.1, ihChildren h.2.2.1, ihRest h.2.2.2⟩

theorem AllNames.mp {P Q : List UInt8 → Prop} {f : Forest}
    (himp : f.AllNames fun name => P name → Q name)
    (h : f.AllNames P) : f.AllNames Q := by
  induction f with
  | nil => exact trivial
  | file name content rest ih => exact ⟨himp.1 h.1, ih himp.2 h.2⟩
  | dir name children rest ihChildren ihRest =>
      exact ⟨himp.1 h.1, ihChildren himp.2.1 h.2.1, ihRest himp.2.2 h.2.2⟩

/-- What is found among the rest of a directory has another name than its first entry. -/
theorem ne_of_lookup {f : Forest} {name : List UInt8} (h : name ∉ f.names) {path : Path}
    (hfound : f.lookup path ≠ none) : path.head? ≠ some name := by
  intro hhead
  obtain ⟨tail, rfl⟩ := List.head?_eq_some_iff.mp hhead
  exact hfound (lookup_of_not_mem h tail)

/-- Every name is found by a lookup. -/
theorem allNames_of_lookup {P Q : List UInt8 → Prop} {f : Forest} (hnamed : f.Named Q)
    (h : ∀ path name, f.lookup (path ++ [name]) ≠ none → P name) : f.AllNames P := by
  induction f with
  | nil => exact trivial
  | file name content rest ih =>
      refine ⟨h [] name (by simp [lookup]), ih hnamed.2.2 fun path other hfound => ?_⟩
      refine h path other ?_
      rwa [lookup, if_neg (ne_of_lookup hnamed.2.1 hfound)]
  | dir name children rest ihChildren ihRest =>
      refine ⟨h [] name (by simp [lookup]), ihChildren hnamed.2.2.1 fun path other hfound => ?_,
        ihRest hnamed.2.2.2 fun path other hfound => ?_⟩
      · refine h (name :: path) other ?_
        rw [List.cons_append, lookup, List.head?_cons, if_pos rfl, List.tail_cons, if_neg (by simp)]
        exact hfound
      · refine h path other ?_
        rwa [lookup, if_neg (ne_of_lookup hnamed.2.1 hfound)]

/-- A function that puts the entries of every directory in some order. -/
def Reorders (r : Forest → Forest) : Prop :=
  ∀ f, (r f).items.Perm (f.items.map (Item.mapChildren r))

section Reorder

variable {r : Forest → Forest} (hr : Reorders r) {P : List UInt8 → Prop}

include hr

theorem Reorders.forall_items {Q : Item → Prop} (f : Forest) :
    (∀ item ∈ (r f).items, Q item) ↔ ∀ item ∈ f.items, Q (item.mapChildren r) := by
  simp only [(hr f).mem_iff, List.forall_mem_map]

theorem Reorders.names_perm (f : Forest) : (r f).names.Perm f.names := by
  have h := (hr f).map Item.name
  rwa [List.map_map, show Item.name ∘ Item.mapChildren r = Item.name from
    funext (Item.name_mapChildren r)] at h

theorem Reorders.named {f : Forest} (h : f.Named P) : (r f).Named P := by
  induction f using induction_items with
  | step f ih =>
      obtain ⟨hnodup, hitems⟩ := (named_iff f).mp h
      refine (named_iff _).mpr ⟨(hr.names_perm f).nodup_iff.mpr hnodup, ?_⟩
      rw [hr.forall_items]
      intro item hitem
      obtain ⟨hname, hchildren⟩ := hitems item hitem
      refine ⟨by rwa [Item.name_mapChildren], ?_⟩
      cases item with
      | file name content => exact trivial
      | dir name children => exact ih _ hitem hchildren

theorem Reorders.allNames_iff (f : Forest) : (r f).AllNames P ↔ f.AllNames P := by
  induction f using induction_items with
  | step f ih =>
      rw [Forest.allNames_iff, hr.forall_items, Forest.allNames_iff]
      refine forall₂_congr fun item hitem => and_congr (by rw [Item.name_mapChildren]) ?_
      cases item with
      | file name content => exact Iff.rfl
      | dir name children => exact ih _ hitem

omit hr in
/-- With distinct names, the entry of a name is the one that has it. -/
theorem find_eq_some_iff {items : List Item} (hnodup : (items.map Item.name).Nodup)
    {name : List UInt8} {item : Item} :
    items.find? (·.name = name) = some item ↔ item ∈ items ∧ item.name = name := by
  induction items with
  | nil => simp
  | cons other items ih =>
      obtain ⟨hnew, hrest⟩ := List.nodup_cons.mp hnodup
      by_cases hname : other.name = name
      · simp only [List.find?_cons, hname, decide_true, Option.some.injEq, List.mem_cons]
        constructor
        · rintro rfl
          exact ⟨.inl rfl, hname⟩
        · rintro ⟨rfl | hmem, hitem⟩
          · rfl
          · exact absurd (List.mem_map.mpr ⟨item, hmem, hitem.trans hname.symm⟩) hnew
      · simp only [List.find?_cons, hname, decide_false, List.mem_cons]
        rw [ih hrest]
        constructor
        · rintro ⟨hmem, hitem⟩
          exact ⟨.inr hmem, hitem⟩
        · rintro ⟨rfl | hmem, hitem⟩
          · exact absurd hitem hname
          · exact ⟨hmem, hitem⟩

theorem Reorders.lookup_eq {f : Forest} (h : f.Named P) : (r f).lookup = f.lookup := by
  induction f using induction_items with
  | step f ih =>
      obtain ⟨hnodup, hitems⟩ := (named_iff f).mp h
      funext path
      cases path with
      | nil => rw [lookup_nil_path, lookup_nil_path]
      | cons name tail =>
          rw [lookup_cons, lookup_cons]
          have hfind : (r f).items.find? (·.name = name) =
              (f.items.find? (·.name = name)).map (Item.mapChildren r) := by
            ext item
            have hnodup' := (hr.names_perm f).nodup_iff.mpr hnodup
            rw [Option.map_eq_some_iff, find_eq_some_iff hnodup', (hr f).mem_iff, List.mem_map]
            constructor
            · rintro ⟨⟨original, hmem, rfl⟩, hname⟩
              rw [Item.name_mapChildren] at hname
              exact ⟨original, (find_eq_some_iff hnodup).mpr ⟨hmem, hname⟩, rfl⟩
            · rintro ⟨original, hfound, rfl⟩
              obtain ⟨hmem, hname⟩ := (find_eq_some_iff hnodup).mp hfound
              exact ⟨⟨original, hmem, rfl⟩, by rwa [Item.name_mapChildren]⟩
          rw [hfind]
          cases hitem : f.items.find? (·.name = name) with
          | none => rfl
          | some item =>
              obtain ⟨hmem, -⟩ := (find_eq_some_iff hnodup).mp hitem
              cases item with
              | file other content => rfl
              | dir other children =>
                  have hchildren := ih _ hmem (hitems _ hmem).2
                  simp only [Option.map_some, Item.mapChildren, entryBelow]
                  rw [hchildren]

end Reorder

end Forest

end Hc
