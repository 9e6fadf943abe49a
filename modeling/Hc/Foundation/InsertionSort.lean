import Mathlib.Data.List.Induction
import Mathlib.Data.List.Perm.Basic
import Mathlib.Order.Lattice
import Mathlib.Tactic.Common

/-!
# Insertion sort in an array

The loops of an insertion sort that shifts elements up until the place of the new one is found. The
array is a list; the part in front of the new element is sorted before and after every insertion.
-/

namespace Hc.InsertionSort

variable {α : Type} (before : α → α → Bool)

/-- The inner loop: an element goes down from index `curr`, past those that it belongs in front of.
-/
def shift (x : α) : List α → ℕ → List α
  | xs, 0 => xs.set 0 x
  | xs, curr + 1 =>
    match xs[curr]? with
    | none => xs
    | some prev => if before x prev then shift x (xs.set (curr + 1) prev) curr else xs.set
      (curr + 1) x

/-- One iteration of the outer loop. -/
def insertAt (xs : List α) (i : ℕ) : List α :=
  match xs[i]? with
  | none => xs
  | some x => shift before x xs i

/-- The outer loop. -/
def sort (xs : List α) : List α := (List.range' 1 (xs.length - 1)).foldl (insertAt before) xs

/-- An insertion into a sorted part that is given from its end. -/
def insertBack (x : α) : List α → List α
  | [] => [x]
  | prev :: rest => if before x prev then prev :: insertBack x rest else x :: prev :: rest

/-- All insertions, one after the other; the result is given from its end. -/
def insertAll (xs : List α) : List α := xs.foldl (fun acc x => insertBack before x acc) []

variable {before}

theorem insertBack_perm (x : α) (acc : List α) : (insertBack before x acc).Perm (x :: acc) := by
  induction acc with
  | nil => exact .refl _
  | cons prev rest ih =>
      rw [insertBack]
      split
      · exact (ih.cons prev).trans (.swap x prev rest)
      · exact .refl _

theorem foldl_insertBack_perm (xs acc : List α) :
    (xs.foldl (fun acc x => insertBack before x acc) acc).Perm (xs ++ acc) := by
  induction xs generalizing acc with
  | nil => exact .refl _
  | cons x xs ih =>
      refine (ih (insertBack before x acc)).trans ?_
      refine ((insertBack_perm x acc).append_left xs).trans ?_
      exact List.perm_middle

theorem insertAll_perm (xs : List α) : (insertAll before xs).Perm xs := by
  have h := @foldl_insertBack_perm _ before xs []
  rwa [List.append_nil] at h

/-! ## The array -/

/-- The inner loop inserts an element into the part of the array in front of it. -/
theorem shift_append (x hole : α) (front back : List α) :
    shift before x (front ++ hole :: back) front.length =
      (insertBack before x front.reverse).reverse ++ back := by
  induction front using List.reverseRecOn generalizing hole back with
  | nil => rfl
  | append_singleton front prev ih =>
      have hprev : (front ++ [prev] ++ hole :: back)[front.length]? = some prev := by simp
      have hset (y : α) : (front ++ [prev] ++ hole :: back).set (front.length + 1) y =
          front ++ prev :: y :: back := by simp
      rw [List.length_append, List.length_singleton, shift, hprev]
      dsimp only
      rw [hset, hset, List.reverse_append, List.reverse_singleton, List.singleton_append,
        insertBack]
      split
      next => rw [ih, List.reverse_cons, List.append_assoc, List.singleton_append]
      next => simp

/-- After every iteration the elements so far are sorted and the others are in place. -/
theorem foldl_insertAt {n : ℕ} {xs : List α} (h : n < xs.length) :
    (List.range' 1 n).foldl (insertAt before) xs =
      (insertAll before (xs.take (n + 1))).reverse ++ xs.drop (n + 1) := by
  induction n with
  | zero =>
      obtain ⟨x, rest, rfl⟩ := List.exists_cons_of_length_pos h
      rfl
  | succ n ih =>
      have hlength : (insertAll before (xs.take (n + 1))).reverse.length = 1 + 1 * n := by
        rw [List.length_reverse, (insertAll_perm _).length_eq, List.length_take]
        omega
      rw [List.range'_concat, List.foldl_append, ih (by omega), List.foldl_cons, List.foldl_nil,
        List.drop_eq_getElem_cons (by omega), insertAt, ← hlength,
        List.getElem?_append_right (Nat.le_refl _), Nat.sub_self, List.getElem?_cons_zero]
      dsimp only
      rw [shift_append, List.reverse_reverse, List.take_succ_eq_append_getElem h, insertAll,
        insertAll, List.foldl_append]
      rfl

theorem sort_eq (xs : List α) : sort before xs = (insertAll before xs).reverse := by
  cases xs with
  | nil => rfl
  | cons x rest =>
      have hlength : (x :: rest).length - 1 + 1 = (x :: rest).length := rfl
      rw [sort, foldl_insertAt (Nat.lt_succ_self _), hlength, List.take_length, List.drop_length,
        List.append_nil]

theorem sort_perm (xs : List α) : (sort before xs).Perm xs := by
  rw [sort_eq]
  exact (List.reverse_perm _).trans (insertAll_perm xs)

/-! ## The order -/

section Order

variable {β : Type} [LinearOrder β] {key : α → β} {P : α → Prop}
  (hbefore : ∀ a b, P a → P b → (before a b = true ↔ key a < key b))

include hbefore

theorem insertBack_pairwise {x : α} {acc : List α} (hx : P x) (hacc : ∀ a ∈ acc, P a)
    (hsorted : acc.Pairwise fun a b => key b ≤ key a) :
    (insertBack before x acc).Pairwise fun a b => key b ≤ key a := by
  induction acc with
  | nil => exact List.pairwise_singleton _ _
  | cons prev rest ih =>
      obtain ⟨hprev, hrest⟩ := List.pairwise_cons.mp hsorted
      have hsmall := hbefore x prev hx (hacc prev List.mem_cons_self)
      rw [insertBack]
      split
      next hlt =>
        refine List.pairwise_cons.mpr ⟨fun b hb => ?_, ih (fun a ha => hacc a (.tail _ ha)) hrest⟩
        rcases List.mem_cons.mp ((insertBack_perm x rest).mem_iff.mp hb) with rfl | hb
        · exact le_of_lt (hsmall.mp hlt)
        · exact hprev b hb
      next hge =>
        have hle : key prev ≤ key x := not_lt.mp (hsmall.not.mp hge)
        refine List.pairwise_cons.mpr ⟨fun b hb => ?_, hsorted⟩
        rcases List.mem_cons.mp hb with rfl | hb
        · exact hle
        · exact le_trans (hprev b hb) hle

theorem insertAll_pairwise {xs : List α} (hxs : ∀ a ∈ xs, P a) :
    (insertAll before xs).Pairwise fun a b => key b ≤ key a := by
  induction xs using List.reverseRecOn with
  | nil => exact .nil
  | append_singleton xs x ih =>
      rw [insertAll, List.foldl_append]
      have hfront (a : α) (ha : a ∈ insertAll before xs) : P a :=
        hxs a (List.mem_append_left _ ((insertAll_perm xs).mem_iff.mp ha))
      exact insertBack_pairwise hbefore (hxs x (by simp)) hfront
        (ih fun a ha => hxs a (List.mem_append_left _ ha))

/-- The array is sorted by its keys. -/
theorem sort_pairwise {xs : List α} (hxs : ∀ a ∈ xs, P a) :
    (sort before xs).Pairwise fun a b => key a ≤ key b := by
  rw [sort_eq, List.pairwise_reverse]
  exact insertAll_pairwise hbefore hxs

end Order

end Hc.InsertionSort
