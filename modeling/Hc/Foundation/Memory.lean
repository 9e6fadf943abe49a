import Mathlib.Data.List.GetD
import Mathlib.Logic.Function.Basic
import Mathlib.Tactic.Common

/-!
# Memory

A memory is a function from addresses to elements. What matters of it is read as a list, and a list
is written from an address on.
-/

namespace Hc.Memory

variable {α : Type}

/-- The elements from an address on. -/
def read (mem : ℕ → α) : ℕ → ℕ → List α
  | _, 0 => []
  | address, n + 1 => mem address :: read mem (address + 1) n

/-- Store elements from an address on, one after the other. -/
def write (mem : ℕ → α) : ℕ → List α → ℕ → α
  | _, [] => mem
  | address, x :: xs => write (Function.update mem address x) (address + 1) xs

variable {mem other : ℕ → α}

@[simp] theorem length_read (address n : ℕ) : (read mem address n).length = n := by
  induction n generalizing address with
  | zero => rfl
  | succ n ih => rw [read, List.length_cons, ih]

theorem read_add (address m n : ℕ) :
    read mem address (m + n) = read mem address m ++ read mem (address + m) n := by
  induction m generalizing address with
  | zero => rw [Nat.zero_add, Nat.add_zero, read, List.nil_append]
  | succ m ih =>
      rw [Nat.succ_add, read, ih, read, List.cons_append, Nat.add_right_comm,
        Nat.add_assoc address m 1]

theorem take_read {m n : ℕ} (address : ℕ) (h : m ≤ n) :
    (read mem address n).take m = read mem address m := by
  obtain ⟨k, rfl⟩ := Nat.exists_eq_add_of_le h
  rw [read_add, List.take_left' (length_read address m)]

theorem drop_read {m n : ℕ} (address : ℕ) (h : m ≤ n) :
    (read mem address n).drop m = read mem (address + m) (n - m) := by
  obtain ⟨k, rfl⟩ := Nat.exists_eq_add_of_le h
  rw [read_add, List.drop_left' (length_read address m), Nat.add_sub_cancel_left]

theorem getElem?_read {i n : ℕ} (address : ℕ) (h : i < n) :
    (read mem address n)[i]? = some (mem (address + i)) := by
  induction n generalizing address i with
  | zero => omega
  | succ n ih =>
      cases i with
      | zero => rfl
      | succ i =>
          rw [read, List.getElem?_cons_succ, ih _ (by omega), Nat.add_right_comm, Nat.add_assoc]

/-- What is read depends on the range only. -/
theorem read_congr {address n : ℕ} (h : ∀ i, address ≤ i → i < address + n → mem i = other i) :
    read mem address n = read other address n := by
  induction n generalizing address with
  | zero => rfl
  | succ n ih =>
      rw [read, read, h address (Nat.le_refl _) (by omega), ih fun i hi hlt => h i (by omega)
        (by omega)]

/-- A memory whose addresses count from a start. -/
theorem read_shift (start address n : ℕ) :
    read (fun i => mem (start + i)) address n = read mem (start + address) n := by
  induction n generalizing address with
  | zero => rfl
  | succ n ih => rw [read, read, ih, Nat.add_assoc]

/-- A range of equal elements. -/
theorem read_eq_replicate {x : α} {address n : ℕ}
    (h : ∀ i, address ≤ i → i < address + n → mem i = x) :
    read mem address n = List.replicate n x := by
  induction n generalizing address with
  | zero => rfl
  | succ n ih =>
      rw [read, List.replicate_succ, h address (Nat.le_refl _) (by omega),
        ih fun i hi hlt => h i (by omega) (by omega)]

/-- Nothing is stored in front of the address. -/
theorem write_of_lt {address i : ℕ} (xs : List α) (h : i < address) :
    write mem address xs i = mem i := by
  induction xs generalizing mem address with
  | nil => rfl
  | cons x xs ih => rw [write, ih (by omega), Function.update_of_ne (by omega)]

/-- Nothing is stored behind the last element. -/
theorem write_of_ge {address i : ℕ} {xs : List α} (h : address + xs.length ≤ i) :
    write mem address xs i = mem i := by
  induction xs generalizing mem address with
  | nil => rfl
  | cons x xs ih =>
      rw [List.length_cons] at h
      rw [write, ih (by omega), Function.update_of_ne (by omega)]

theorem write_append (address : ℕ) (xs ys : List α) :
    write mem address (xs ++ ys) = write (write mem address xs) (address + xs.length) ys := by
  induction xs generalizing mem address with
  | nil => rfl
  | cons x xs ih => rw [List.cons_append, write, ih, write, List.length_cons, Nat.add_right_comm,
      Nat.add_assoc]

theorem read_write_self (address : ℕ) (xs : List α) :
    read (write mem address xs) address xs.length = xs := by
  induction xs generalizing mem address with
  | nil => rfl
  | cons x xs ih =>
      rw [List.length_cons, write, read, ih, write_of_lt xs (Nat.lt_succ_self address),
        Function.update_self]

theorem read_write_of_length {n : ℕ} {xs : List α} (address : ℕ) (h : xs.length = n) :
    read (write mem address xs) address n = xs := by
  subst h
  exact read_write_self address xs

/-- A range in front of what is written keeps its elements. -/
theorem read_write_of_le {address target n : ℕ} (xs : List α) (h : address + n ≤ target) :
    read (write mem target xs) address n = read mem address n :=
  read_congr fun _ _ hlt => write_of_lt xs (by omega)

/-- A range behind what is written keeps its elements. -/
theorem read_write_of_ge {address target n : ℕ} {xs : List α} (h : target + xs.length ≤ address) :
    read (write mem target xs) address n = read mem address n :=
  read_congr fun _ hi _ => write_of_ge (by omega)

/-! ## Copying -/

/-- The elements that stored elements come from. -/
theorem write_read_apply (dest src n i : ℕ) : write mem dest (read other src n) i =
    if dest ≤ i ∧ i < dest + n then other (src + (i - dest)) else mem i := by
  induction n generalizing mem dest src with
  | zero => rw [read, write, if_neg (by omega)]
  | succ n ih =>
      rw [read, write, ih]
      rcases Nat.lt_trichotomy i dest with hlt | rfl | hgt
      · rw [if_neg (by omega), if_neg (by omega), Function.update_of_ne (by omega)]
      · rw [if_neg (by omega), if_pos (by omega), Function.update_self, Nat.sub_self, Nat.add_zero]
      · rw [Function.update_of_ne (by omega), show src + 1 + (i - (dest + 1)) = src + (i - dest) by
          omega]
        congr 1
        rw [eq_iff_iff]
        omega

/-- Copy elements through a place of their own: all are loaded before the first is stored. -/
def copy (mem : ℕ → α) (dest src n : ℕ) : ℕ → α := write mem dest (read mem src n)

theorem copy_apply (dest src n i : ℕ) : copy mem dest src n i =
    if dest ≤ i ∧ i < dest + n then mem (src + (i - dest)) else mem i :=
  write_read_apply dest src n i

/-- Outside of the destination nothing changes. -/
theorem copy_of_not_mem {dest src n i : ℕ} (h : i < dest ∨ dest + n ≤ i) :
    copy mem dest src n i = mem i := by
  rw [copy_apply, if_neg (by omega)]

/-- The destination gets the elements of the source. -/
theorem copy_of_lt {dest src n i : ℕ} (h : i < n) :
    copy mem dest src n (dest + i) = mem (src + i) := by
  rw [copy_apply, if_pos (by omega), Nat.add_sub_cancel_left]

/-- A destination in front of its source is copied from the first element on: what is still to be
copied is not overwritten. -/
theorem copy_copy_of_le {dest src : ℕ} (h : dest ≤ src) (m n : ℕ) :
    copy (copy mem dest src m) (dest + m) (src + m) n = copy mem dest src (m + n) := by
  funext i
  have hkept : copy mem dest src m (src + m + (i - (dest + m))) =
      mem (src + m + (i - (dest + m))) := copy_of_not_mem (by omega)
  rw [copy_apply, copy_apply dest src (m + n), hkept]
  split
  next hsecond =>
    rw [if_pos (by omega), show src + m + (i - (dest + m)) = src + (i - dest) by omega]
  next hsecond =>
    rw [copy_apply]
    congr 1
    rw [eq_iff_iff]
    omega

/-- A destination behind its source is copied from the last element on. -/
theorem copy_copy_of_ge {dest src : ℕ} (h : src ≤ dest) (m n : ℕ) :
    copy (copy mem (dest + m) (src + m) n) dest src m = copy mem dest src (m + n) := by
  funext i
  rw [copy_apply, copy_apply dest src (m + n)]
  split
  next hfirst =>
    rw [if_pos (by omega), copy_of_not_mem (by omega)]
  next hfirst =>
    rw [copy_apply]
    split
    next hsecond =>
      rw [if_pos (by omega), show src + m + (i - (dest + m)) = src + (i - dest) by omega]
    next hsecond => rw [if_neg (by omega)]

/-- Two parts that together are the range may overlap if both are loaded before the stores. -/
theorem write_write_read {dest src k n : ℕ} (hle : k ≤ n) (hcover : n ≤ k + k) :
    write (write mem dest (read mem src k)) (dest + n - k) (read mem (src + n - k) k) =
      copy mem dest src n := by
  funext i
  rw [write_read_apply, write_read_apply, copy_apply]
  split
  next hlast =>
    rw [if_pos (by omega), show src + n - k + (i - (dest + n - k)) = src + (i - dest) by omega]
  next hlast =>
    congr 1
    rw [eq_iff_iff]
    omega

/-! ## Filling -/

/-- Store one element in a range. -/
def fill (mem : ℕ → α) (dest n : ℕ) (x : α) : ℕ → α := write mem dest (List.replicate n x)

theorem fill_apply (dest n i : ℕ) (x : α) :
    fill mem dest n x i = if dest ≤ i ∧ i < dest + n then x else mem i := by
  have hread : read (fun _ => x) 0 n = List.replicate n x := read_eq_replicate fun _ _ _ => rfl
  rw [fill, ← hread]
  exact write_read_apply dest 0 n i

/-- Two ranges that together are one, and may overlap, are filled in any order. -/
theorem fill_fill (dest n : ℕ) (x : α) {first second k m : ℕ}
    (hcover : ∀ i, dest ≤ i ∧ i < dest + n ↔
      (first ≤ i ∧ i < first + k) ∨ (second ≤ i ∧ i < second + m)) :
    fill (fill mem first k x) second m x = fill mem dest n x := by
  funext i
  rw [fill_apply, fill_apply, fill_apply]
  by_cases hsecond : second ≤ i ∧ i < second + m
  · rw [if_pos hsecond, if_pos ((hcover i).mpr (.inr hsecond))]
  · by_cases hfirst : first ≤ i ∧ i < first + k
    · rw [if_neg hsecond, if_pos hfirst, if_pos ((hcover i).mpr (.inl hfirst))]
    · rw [if_neg hsecond, if_neg hfirst, if_neg]
      exact fun hi => ((hcover i).mp hi).elim hfirst hsecond

/-! ## Memories that agree below an address -/

/-- The memories have the same elements below the address. -/
def SameBelow (stop : ℕ) (mem other : ℕ → α) : Prop := ∀ i, i < stop → other i = mem i

theorem SameBelow.refl (stop : ℕ) (mem : ℕ → α) : SameBelow stop mem mem := fun _ _ => rfl

theorem SameBelow.trans {stop : ℕ} {last : ℕ → α} (h : SameBelow stop mem other)
    (hlast : SameBelow stop other last) : SameBelow stop mem last :=
  fun i hi => (hlast i hi).trans (h i hi)

theorem SameBelow.mono {stop stop' : ℕ} (h : SameBelow stop mem other) (hle : stop' ≤ stop) :
    SameBelow stop' mem other :=
  fun i hi => h i (Nat.lt_of_lt_of_le hi hle)

theorem SameBelow.read_eq {stop address n : ℕ} (h : SameBelow stop mem other)
    (hle : address + n ≤ stop) : read other address n = read mem address n :=
  read_congr fun i _ hi => h i (Nat.lt_of_lt_of_le hi hle)

/-- A store leaves what is below it alone. -/
theorem sameBelow_write {stop address : ℕ} (xs : List α) (hle : stop ≤ address) :
    SameBelow stop mem (write mem address xs) :=
  fun _ hi => write_of_lt xs (Nat.lt_of_lt_of_le hi hle)

end Hc.Memory
