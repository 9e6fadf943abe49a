import Mathlib.Data.PNat.Basic
import Hc.Core.Util

/-!
# Memory that is committed page by page

`hc/core/hc/allocator.c` over the `heap.c` of a platform. A reserved range of addresses is committed
up to the end of the page that `size` ends in. A resize to a smaller size decommits the pages behind
the new end, and their contents are lost.
-/

namespace Hc

/-- What the allocator uses of a platform. -/
structure Heap where
  pageSize : ℕ+
  /-- Whether `heap_commit` succeeds for an offset and a size. -/
  commit : ℕ → ℕ → Bool
  /-- What is loaded from a page that `heap_decommit` has taken back; `none` when the load faults,
  as it does where the page is mapped without access. -/
  decommitted : Option (ℕ → UInt8)

/-- `heap_decommit` of the pages from an offset on. -/
def Heap.decommit (heap : Heap) (mem : ℕ → UInt8) (offset : ℕ) : ℕ → UInt8 :=
  fun i => if i < offset then mem i else heap.decommitted.getD (fun _ => 0) i

/-- `struct allocator`. -/
structure Allocator where
  mem : ℕ → UInt8
  size : ℕ
  reserveSize : ℕ

namespace Allocator

/-- The end of the pages that are committed. -/
def commitSize (heap : Heap) (self : Allocator) : ℕ := alignForward self.size heap.pageSize

/-- Whether a load of `n` bytes ends behind the committed pages on a platform where it faults there.
-/
def Faults (heap : Heap) (self : Allocator) (offset n : ℕ) : Prop :=
  heap.decommitted = none ∧ 0 < n ∧ self.commitSize heap < offset + n

instance (heap : Heap) (self : Allocator) (offset n : ℕ) : Decidable (self.Faults heap offset n) :=
  match h : heap.decommitted with
  | none => decidable_of_iff (0 < n ∧ self.commitSize heap < offset + n) (by simp [Faults, h])
  | some _ => .isFalse (by simp [Faults, h])

/-- `allocator_resize`; `none` for the result -1. -/
def resize (heap : Heap) (self : Allocator) (newSize : ℕ) : Option Allocator :=
  let newCommitSize := alignForward newSize heap.pageSize
  if newCommitSize = self.commitSize heap then some { self with size := newSize }
  else if newCommitSize < self.commitSize heap then
    some { self with mem := heap.decommit self.mem newCommitSize, size := newSize }
  else if newCommitSize > self.reserveSize then none
  else if heap.commit (self.commitSize heap) (newCommitSize - self.commitSize heap) then
    some { self with size := newSize }
  else none

variable {heap : Heap} {self alloc : Allocator} {newSize : ℕ}

theorem resize_size (h : self.resize heap newSize = some alloc) : alloc.size = newSize := by
  unfold resize at h
  grind

/-- The committed pages stay inside the reserved range. -/
theorem resize_commitSize (h : self.resize heap newSize = some alloc)
    (hself : self.commitSize heap ≤ self.reserveSize) :
    alloc.commitSize heap ≤ alloc.reserveSize ∧ alloc.reserveSize = self.reserveSize := by
  unfold resize at h
  dsimp only at h
  split at h
  next hsame => cases h; exact ⟨hsame.trans_le hself, rfl⟩
  next =>
    split at h
    next hlt => cases h; exact ⟨hlt.le.trans hself, rfl⟩
    next =>
      split at h
      next => cases h
      next hle =>
        split at h
        next => cases h; exact ⟨not_lt.mp hle, rfl⟩
        next => cases h

/-- The bytes in front of the new end are kept. -/
theorem resize_mem {i : ℕ} (h : self.resize heap newSize = some alloc)
    (hi : i < alignForward newSize heap.pageSize) : alloc.mem i = self.mem i := by
  unfold resize at h
  dsimp only at h
  split at h
  next => cases h; rfl
  next =>
    split at h
    next => cases h; exact if_pos hi
    next => grind

/-- A resize that does not make the memory smaller keeps all of it. -/
theorem resize_grow (h : self.resize heap newSize = some alloc) (hle : self.size ≤ newSize) :
    alloc.mem = self.mem := by
  have hcommit : self.commitSize heap ≤ alignForward newSize heap.pageSize := alignForward_mono hle
  unfold resize at h
  dsimp only at h
  split at h
  next => cases h; rfl
  next =>
    rw [if_neg (by omega)] at h
    grind

/-- A resize that decommits pages succeeds. -/
theorem resize_shrink (hlt : alignForward newSize heap.pageSize < self.commitSize heap) :
    self.resize heap newSize = some { self with
      mem := heap.decommit self.mem (alignForward newSize heap.pageSize), size := newSize } := by
  rw [resize, if_neg hlt.ne, if_pos hlt]

/-- A resize succeeds where the reserved range has room for it and pages can be committed. -/
theorem resize_isSome (hcommit : ∀ offset n, heap.commit offset n = true)
    (hroom : alignForward newSize heap.pageSize ≤ max self.reserveSize (self.commitSize heap)) :
    (self.resize heap newSize).isSome := by
  unfold resize
  grind

/-- A resize fails for want of reserved addresses, or because pages are not committed. -/
theorem of_resize_eq_none (h : self.resize heap newSize = none) :
    self.reserveSize < alignForward newSize heap.pageSize ∨
      self.commitSize heap ≤ alignForward newSize heap.pageSize ∧
        heap.commit (self.commitSize heap)
          (alignForward newSize heap.pageSize - self.commitSize heap) = false := by
  unfold resize at h
  grind

/-- A resize beyond the reserved range fails. -/
theorem resize_eq_none (h : max self.reserveSize (self.commitSize heap) <
    alignForward newSize heap.pageSize) : self.resize heap newSize = none := by
  rw [max_lt_iff] at h
  rw [resize, if_neg h.2.ne', if_neg (not_lt.mpr h.2.le), if_pos h.1]

end Allocator

end Hc
