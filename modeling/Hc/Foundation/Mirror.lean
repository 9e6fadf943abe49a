import Mathlib.Data.List.GetD
import Mathlib.Data.Nat.ModEq
import Mathlib.Logic.Function.Basic
import Mathlib.Tactic.Common

/-!
# Circular buffers that are mapped twice

A page of `size` elements is mapped twice, one mapping behind the other, so that a range that goes
beyond the first one is a range of addresses all the same. Addresses are taken modulo the size; what
was written behind the first `n` elements of a range is appended to them, as long as the range is
not longer than the page.
-/

namespace Hc.Mirror

variable {α : Type} (size : ℕ)

/-- Store elements from an address on, one after the other. -/
def write (page : ℕ → α) : ℕ → List α → ℕ → α
  | _, [] => page
  | address, x :: xs => write (Function.update page (address % size) x) (address + 1) xs

/-- The elements from an address on. -/
def read (page : ℕ → α) : ℕ → ℕ → List α
  | _, 0 => []
  | address, n + 1 => page (address % size) :: read page (address + 1) n

variable {size} {page : ℕ → α}

/-- What a read takes of a stream, where there is room for `room` elements, and what it leaves. -/
theorem taken_spec (stream : List α) (n room : ℕ) :
    (stream.take (min n room)).length ≤ room ∧
      stream.take (min n room) ++ stream.drop (stream.take (min n room)).length = stream := by
  have htake : stream.take (stream.take (min n room)).length = stream.take (min n room) := by
    rw [List.length_take, ← List.take_eq_take_min]
  have hsplit := List.take_append_drop (stream.take (min n room)).length stream
  rw [htake] at hsplit
  refine ⟨?_, hsplit⟩
  rw [List.length_take]
  omega

theorem write_append (address : ℕ) (xs ys : List α) :
    write size page address (xs ++ ys) =
      write size (write size page address xs) (address + xs.length) ys := by
  induction xs generalizing page address with
  | nil => rfl
  | cons x xs ih =>
      rw [List.cons_append, write, ih, write, List.length_cons, Nat.add_assoc, Nat.add_comm 1]

@[simp] theorem length_read (address n : ℕ) : (read size page address n).length = n := by
  induction n generalizing address with
  | zero => rfl
  | succ n ih => rw [read, List.length_cons, ih]

theorem read_add (address m n : ℕ) :
    read size page address (m + n) = read size page address m ++ read size page
      (address + m) n := by
  induction m generalizing address with
  | zero => rw [Nat.zero_add, Nat.add_zero, read, List.nil_append]
  | succ m ih =>
      rw [Nat.succ_add, read, ih, read, List.cons_append, Nat.add_right_comm,
        Nat.add_assoc address m 1]

/-- An address may be brought back to the first mapping. -/
theorem read_mod (address n : ℕ) : read size page
    (address % size) n = read size page address n := by
  induction n generalizing address with
  | zero => rfl
  | succ n ih =>
      rw [read, read, Nat.mod_mod, ← ih, ← ih (address + 1), Nat.mod_add_mod]

theorem take_read {m n : ℕ} (address : ℕ) (h : m ≤ n) :
    (read size page address n).take m = read size page address m := by
  obtain ⟨k, rfl⟩ := Nat.exists_eq_add_of_le h
  rw [read_add, List.take_left' (length_read address m)]

theorem drop_read {m n : ℕ} (address : ℕ) (h : m ≤ n) :
    (read size page address n).drop m = read size page (address + m) (n - m) := by
  obtain ⟨k, rfl⟩ := Nat.exists_eq_add_of_le h
  rw [read_add, List.drop_left' (length_read address m), Nat.add_sub_cancel_left]

/-- A part of a range, in place. -/
theorem read_of_append {address n : ℕ} {xs ys zs : List α}
    (h : read size page address n = xs ++ (ys ++ zs)) :
    read size page (address + xs.length) ys.length = ys := by
  have hn := congrArg List.length h
  rw [length_read, List.length_append, List.length_append] at hn
  have htake := congrArg (fun l => (l.drop xs.length).take ys.length) h
  rwa [drop_read _ (by omega), take_read _ (by omega), List.drop_left, List.take_left] at htake

/-- Addresses less than a page apart are different elements. -/
theorem mod_ne_mod {a b : ℕ} (hlt : a < b) (hsize : b < a + size) : a % size ≠ b % size := by
  intro hmod
  have hdvd := (Nat.modEq_iff_dvd' hlt.le).mp hmod
  have hle := Nat.le_of_dvd (by omega) hdvd
  omega

theorem read_update {address other n : ℕ} (x : α) (hfirst : address + n ≤ other)
    (hlast : other < address + size) :
    read size (Function.update page (other % size) x) address n = read size page address n := by
  induction n generalizing address with
  | zero => rfl
  | succ n ih =>
      rw [read, read, Function.update_of_ne (mod_ne_mod (by omega) hlast), ih (by omega) (by omega)]

/-- What is written behind a range of addresses does not change the range. -/
theorem read_write_of_le {address other n : ℕ} {xs : List α} (hfirst : address + n ≤ other)
    (hlast : other + xs.length ≤ address + size) :
    read size (write size page other xs) address n = read size page address n := by
  induction xs generalizing page other with
  | nil => rfl
  | cons x xs ih =>
      rw [List.length_cons] at hlast
      rw [write, ih (by omega) (by omega), read_update x hfirst (by omega)]

theorem read_update_of_lt {address other n : ℕ} (x : α) (hfirst : other < address)
    (hlast : address + n ≤ other + size) :
    read size (Function.update page (other % size) x) address n = read size page address n := by
  induction n generalizing address with
  | zero => rfl
  | succ n ih =>
      rw [read, read, Function.update_of_ne (mod_ne_mod hfirst (by omega)).symm,
        ih (by omega) (by omega)]

/-- What is written in front of a range of addresses does not change the range. -/
theorem read_write_of_ge {address other n : ℕ} {xs : List α} (hfirst : other + xs.length ≤ address)
    (hlast : address + n ≤ other + size) :
    read size (write size page other xs) address n = read size page address n := by
  induction xs generalizing page other with
  | nil => rfl
  | cons x xs ih =>
      rw [List.length_cons] at hfirst
      rw [write, ih (by omega) (by omega), read_update_of_lt x (by omega) hlast]

theorem read_write_self (address : ℕ) {xs : List α} (hsize : xs.length ≤ size) :
    read size (write size page address xs) address xs.length = xs := by
  induction xs generalizing page address with
  | nil => rfl
  | cons x xs ih =>
      rw [List.length_cons] at hsize ⊢
      have hhead : read size (write size (Function.update page (address % size) x) (address + 1) xs)
          address 1 = read size (Function.update page (address % size) x) address 1 :=
        read_write_of_le le_rfl (by omega)
      rw [write, Nat.add_comm xs.length 1, read_add, hhead, ih (address + 1) (by omega), read, read,
        Function.update_self, List.singleton_append]

/-- Elements that are written behind a range are appended to it. -/
theorem read_write_append (address n : ℕ) {xs : List α} (hsize : n + xs.length ≤ size) :
    read size (write size page (address + n) xs) address (n + xs.length) =
      read size page address n ++ xs := by
  rw [read_add, read_write_of_le le_rfl (by omega), read_write_self _ (by omega)]

/-- A range of addresses after a write inside it. -/
theorem read_write {offset n : ℕ} (address : ℕ) {xs : List α} (hfits : offset + xs.length ≤ n)
    (hsize : n ≤ size) :
    read size (write size page (address + offset) xs) address n =
      (read size page address n).take offset ++ xs ++
        (read size page address n).drop (offset + xs.length) := by
  obtain ⟨k, rfl⟩ := Nat.exists_eq_add_of_le hfits
  rw [take_read _ (by omega), drop_read _ (by omega), read_add, read_write_append _ _ (by omega),
    read_write_of_ge (by omega) (by omega), Nat.add_sub_cancel_left]

theorem getD_read {i n : ℕ} (address : ℕ) (default : α) (hi : i < n) :
    (read size page address n).getD i default = page ((address + i) % size) := by
  obtain ⟨k, rfl⟩ := Nat.exists_eq_add_of_lt hi
  rw [Nat.add_assoc, read_add, List.getD_append_right _ _ _ _ (by rw [length_read]), length_read,
    Nat.sub_self, Nat.add_comm k 1, read_add]
  rfl

end Hc.Mirror
