import Mathlib.Data.List.Lex
import Hc.Foundation.InsertionSort
import Hc.Tools.TarRoundTrip

/-!
# The order of the entries

`sortNames` sorts the names of a directory by their bytes as unsigned numbers. As names are
distinct, the order in which `add` goes through a directory is strictly ascending, at every depth.
-/

namespace Hc.Tar

/-- The bytes of a name as numbers. -/
def codes (name : List UInt8) : List ℕ := name.map UInt8.toNat

/-- The order of byte strings. -/
def Precedes (left right : List UInt8) : Prop := codes left < codes right

theorem codes_injective : Function.Injective codes :=
  List.map_injective_iff.mpr fun _ _ h => UInt8.toNat_inj.mp h

theorem cstrCmp_neg_iff {left right : List UInt8} (hleft : 0 ∉ left) (hright : 0 ∉ right) :
    cstrCmp left right < 0 ↔ Precedes left right := by
  induction left generalizing right with
  | nil =>
      cases right with
      | nil => simp [cstrCmp, Precedes]
      | cons r right =>
          have hr : r.toNat ≠ 0 := by
            intro hzero
            have hmem : r = 0 := UInt8.toNat_inj.mp hzero
            exact hright (hmem ▸ List.mem_cons_self)
          simp only [cstrCmp, Precedes, codes, List.map_nil, List.map_cons, List.nil_lt_cons,
            iff_true]
          omega
  | cons l left ih =>
      cases right with
      | nil => simp [cstrCmp, Precedes, codes]
      | cons r right =>
          rw [cstrCmp, Precedes, codes, codes, List.map_cons, List.map_cons, List.cons_lt_cons_iff]
          split
          next hne =>
            have hcodes : l.toNat ≠ r.toNat := fun h => hne (UInt8.toNat_inj.mp h)
            simp only [hcodes, false_and, or_false]
            omega
          next heq =>
            obtain rfl := not_not.mp heq
            rw [ih (fun h => hleft (.tail _ h)) (fun h => hright (.tail _ h))]
            simp [Precedes, codes]

/-! ## Strictly ascending directories -/

/-- The names of every directory are in strictly ascending order. -/
def Ascending : Forest → Prop
  | .nil => True
  | .file name _ rest => (∀ other ∈ rest.names, Precedes name other) ∧ Ascending rest
  | .dir name children rest =>
    (∀ other ∈ rest.names, Precedes name other) ∧ Ascending children ∧ Ascending rest

theorem ascending_iff (f : Forest) : Ascending f ↔
    f.names.Pairwise Precedes ∧ ∀ item ∈ f.items, item.Children Ascending := by
  induction f with
  | nil => simp [Ascending, Forest.names, Forest.items]
  | file name content rest ih =>
      simp only [Ascending, ih, Forest.names, Forest.items, List.map_cons, List.pairwise_cons,
        List.forall_mem_cons, Item.name, Item.Children]
      tauto
  | dir name children rest _ ih =>
      simp only [Ascending, ih, Forest.names, Forest.items, List.map_cons, List.pairwise_cons,
        List.forall_mem_cons, Item.name, Item.Children]
      tauto

/-- Whether an entry goes in front of another one. -/
def itemBefore (item prev : Item) : Bool := cstrCmp item.name prev.name < 0

theorem insertName_eq (item : Item) (items : List Item) :
    insertName item items = InsertionSort.insertBack itemBefore item items := by
  induction items with
  | nil => rfl
  | cons prev before ih =>
      rw [insertName, InsertionSort.insertBack, ih, itemBefore]
      split
      next hge => rw [if_neg (by simpa using hge)]
      next hlt => rw [if_pos (by simpa using hlt)]

/-- The insertions of the recursive model are those of the array. -/
theorem sortNames_eq (items : List Item) :
    sortNames items = InsertionSort.sort itemBefore items := by
  rw [sortNames, InsertionSort.sort_eq, InsertionSort.insertAll]
  simp only [insertName_eq]

/-- Distinct names in order are in strictly ascending order. -/
theorem pairwise_precedes {names : List (List UInt8)} (hnodup : names.Nodup)
    (h : names.Pairwise fun a b => codes a ≤ codes b) : names.Pairwise Precedes := by
  refine (h.and hnodup).imp fun ⟨hle, hne⟩ => ?_
  exact lt_of_le_of_ne hle fun heq => hne (codes_injective heq)

theorem sorted_ascending {f : Forest} (hnamed : f.Named ValidName) : Ascending (sorted f) := by
  induction f using Forest.induction_items with
  | step f ih =>
      obtain ⟨hnodup, hitems⟩ := (Forest.named_iff f).mp hnamed
      rw [ascending_iff]
      refine ⟨pairwise_precedes ((sorted_reorders.names_perm f).nodup_iff.mpr hnodup) ?_, ?_⟩
      · rw [Forest.names, sorted, Forest.items_ofItems, sortNames_eq, List.pairwise_map]
        refine InsertionSort.sort_pairwise (P := fun item => 0 ∉ item.name)
          (fun a b ha hb => ?_) fun item hitem => ?_
        · rw [itemBefore, decide_eq_true_iff]
          exact cstrCmp_neg_iff ha hb
        · rw [sortedItems_eq] at hitem
          obtain ⟨original, hmem, rfl⟩ := List.mem_map.mp hitem
          rw [Item.name_mapChildren]
          exact (hitems original hmem).1.no_nul
      · rw [sorted_reorders.forall_items]
        intro item hitem
        cases item with
        | file name content => exact trivial
        | dir name children => exact ih _ hitem (hitems _ hitem).2

end Hc.Tar
