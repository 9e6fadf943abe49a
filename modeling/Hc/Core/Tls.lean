import Hc.Core.Util
import Hc.Foundation.Bytes
import Hc.Foundation.Memory

/-!
# Areas for thread local storage

`hc/core/hc/linux/tls.c`. An area starts with the image of the TLS segment. On x86-64 the thread
pointer is behind the image, and its own value is stored where it points to.
-/

namespace Hc.Tls

open Memory

/-- The platforms that `tls.c` has branches for. -/
inductive Arch where
  | x86_64
  | aarch64
  | riscv64
deriving DecidableEq, Repr

/-- What `tls_initArea` reads of `struct elf_programHeader`. -/
structure ProgramHeader where
  virtualAddress : UInt64
  segmentFileSize : UInt64
  segmentMemorySize : UInt64
  segmentAlignment : UInt64

/-- `tls_AREA_SIZE`. -/
def areaSize (arch : Arch) (segmentMemorySize : UInt64) : UInt64 :=
  match arch with
  | .x86_64 => segmentMemorySize + 8
  | .aarch64 => segmentMemorySize
  | .riscv64 => segmentMemorySize

/-- `math_RANGES_OVERLAP`. -/
abbrev rangesOverlap (xStart xEnd yStart yEnd : ℕ) : Prop := xStart < yEnd ∧ yStart < xEnd

/-- Bytes that are stored from an address on. -/
structure Store where
  address : ℕ
  bytes : List UInt8

/-- The first address behind the bytes. -/
def Store.stop (store : Store) : ℕ := store.address + store.bytes.length

/-- The copy of the initial image. -/
def imageStore (mem : ℕ → UInt8) (header : ProgramHeader) (tlsArea : UInt64) : Store :=
  ⟨tlsArea.toNat, read mem header.virtualAddress.toNat header.segmentFileSize.toNat⟩

/-- The thread pointer that `tls_initArea` returns. -/
def threadPointer (arch : Arch) (header : ProgramHeader) (tlsArea : UInt64) : UInt64 :=
  match arch with
  | .x86_64 => tlsArea + alignForward64 header.segmentMemorySize header.segmentAlignment
  | .aarch64 => tlsArea - 16
  | .riscv64 => tlsArea

/-- `*(uint64_t *)threadPointer = threadPointer`. -/
def selfPointerStore (threadPointer : UInt64) : Store :=
  ⟨threadPointer.toNat, leBytes 8 threadPointer.toNat⟩

/-- `tls_initArea`: what it stores, and the thread pointer. -/
def initArea (arch : Arch) (mem : ℕ → UInt8) (header : ProgramHeader) (tlsArea : UInt64) :
    List Store × UInt64 :=
  let threadPointer := threadPointer arch header tlsArea
  match arch with
  | .x86_64 => ([imageStore mem header tlsArea, selfPointerStore threadPointer], threadPointer)
  | .aarch64 => ([imageStore mem header tlsArea], threadPointer)
  | .riscv64 => ([imageStore mem header tlsArea], threadPointer)

/-- What the comment of `tls_initArea` asks of an area of `length` bytes, and of the header what
every executable has. The area does not reach beyond the end of the address space. -/
structure Documented (arch : Arch) (header : ProgramHeader) (tlsArea : UInt64) (length : ℕ) :
    Prop where
  area_aligned : header.segmentAlignment.toNat ∣ tlsArea.toNat
  areaSize_le : (areaSize arch header.segmentMemorySize).toNat ≤ length
  isPowerOfTwo : ∃ j, header.segmentAlignment.toNat = 2 ^ j
  fileSize_le : header.segmentFileSize.toNat ≤ header.segmentMemorySize.toNat
  area_fits : tlsArea.toNat + length ≤ 2 ^ 64

/-- On x86-64 the stores stay inside of the area, the stored thread pointer is not in the memory
image of the segment, and it is aligned. -/
structure Safe (mem : ℕ → UInt8) (header : ProgramHeader) (tlsArea : UInt64) (length : ℕ) :
    Prop where
  inside : ∀ store ∈ (initArea .x86_64 mem header tlsArea).1,
    tlsArea.toNat ≤ store.address ∧ store.stop ≤ tlsArea.toNat + length
  apart : ¬ rangesOverlap tlsArea.toNat (tlsArea.toNat + header.segmentMemorySize.toNat)
    (initArea .x86_64 mem header tlsArea).2.toNat
    ((initArea .x86_64 mem header tlsArea).2.toNat + 8)
  aligned : header.segmentAlignment.toNat ∣ (initArea .x86_64 mem header tlsArea).2.toNat

variable {arch : Arch} {mem : ℕ → UInt8} {header : ProgramHeader} {tlsArea : UInt64} {length : ℕ}

@[simp] theorem stop_imageStore : (imageStore mem header tlsArea).stop =
    tlsArea.toNat + header.segmentFileSize.toNat := by
  rw [Store.stop, imageStore, length_read]

@[simp] theorem stop_selfPointerStore (threadPointer : UInt64) :
    (selfPointerStore threadPointer).stop = threadPointer.toNat + 8 := by
  rw [Store.stop, selfPointerStore, length_leBytes]

theorem Documented.alignment_pos (h : Documented arch header tlsArea length) :
    0 < header.segmentAlignment.toNat := by
  obtain ⟨j, hj⟩ := h.isPowerOfTwo
  exact hj ▸ Nat.two_pow_pos j

/-- Where the thread pointer is, if there is room for it. -/
theorem Documented.toNat_threadPointer (h : Documented arch header tlsArea length)
    (hroom : alignForward header.segmentMemorySize.toNat header.segmentAlignment.toNat + 8 ≤
      length) :
    (threadPointer .x86_64 header tlsArea).toNat =
      tlsArea.toNat +
        alignForward header.segmentMemorySize.toNat header.segmentAlignment.toNat := by
  obtain ⟨j, hj⟩ := h.isPowerOfTwo
  have hfits := h.area_fits
  rw [threadPointer, UInt64.toNat_add, toNat_alignForward64 hj (by omega),
    Nat.mod_eq_of_lt (by omega)]

theorem selfPointerStore_mem : selfPointerStore (threadPointer .x86_64 header tlsArea) ∈
    (initArea .x86_64 mem header tlsArea).1 :=
  List.mem_cons_of_mem _ (List.mem_singleton_self _)

/-- The thread pointer of a safe call is behind the memory image. -/
theorem Safe.le_threadPointer (hsafe : Safe mem header tlsArea length) :
    tlsArea.toNat + header.segmentMemorySize.toNat ≤
      (threadPointer .x86_64 header tlsArea).toNat := by
  have hself : tlsArea.toNat ≤ (threadPointer .x86_64 header tlsArea).toNat :=
    (hsafe.inside _ selfPointerStore_mem).1
  have hapart := hsafe.apart
  simp only [initArea] at hapart
  unfold rangesOverlap at hapart
  omega

/-- A safe call finds a multiple of the alignment for the thread pointer. -/
theorem Safe.exists_dvd (hsafe : Safe mem header tlsArea length)
    (hdvd : header.segmentAlignment.toNat ∣ tlsArea.toNat) :
    ∃ k, header.segmentAlignment.toNat ∣ k ∧ header.segmentMemorySize.toNat ≤ k ∧
      k + 8 ≤ length := by
  have hstop := (hsafe.inside _ selfPointerStore_mem).2
  have hbehind := hsafe.le_threadPointer
  rw [stop_selfPointerStore] at hstop
  refine ⟨(threadPointer .x86_64 header tlsArea).toNat - tlsArea.toNat, ?_, ?_, ?_⟩
  · exact Nat.dvd_sub hsafe.aligned hdvd
  · omega
  · omega

/-- Room for some multiple is room for the one that is chosen. -/
theorem Documented.alignForward_add_le {k : ℕ} (h : Documented arch header tlsArea length)
    (hdvd : header.segmentAlignment.toNat ∣ k) (hle : header.segmentMemorySize.toNat ≤ k)
    (hroom : k + 8 ≤ length) :
    alignForward header.segmentMemorySize.toNat header.segmentAlignment.toNat + 8 ≤ length := by
  have hleast := alignForward_le h.alignment_pos hdvd hle
  omega

theorem Documented.safe (h : Documented .x86_64 header tlsArea length)
    (hroom : alignForward header.segmentMemorySize.toNat header.segmentAlignment.toNat + 8 ≤
      length) :
    Safe mem header tlsArea length := by
  have hpointer := h.toNat_threadPointer hroom
  have hge := le_alignForward (x := header.segmentMemorySize.toNat) h.alignment_pos
  have hfile := h.fileSize_le
  refine ⟨?_, ?_, ?_⟩
  · intro store hstore
    simp only [initArea, List.mem_cons, List.not_mem_nil, or_false] at hstore
    rcases hstore with rfl | rfl
    · rw [stop_imageStore]
      exact ⟨Nat.le_refl _, by omega⟩
    · rw [stop_selfPointerStore, selfPointerStore, hpointer]
      exact ⟨Nat.le_add_right _ _, by omega⟩
  · unfold rangesOverlap
    simp only [initArea, hpointer]
    omega
  · simp only [initArea, hpointer]
    exact Nat.dvd_add h.area_aligned (dvd_alignForward _ _)

/-- As documented, a call is safe exactly when a multiple of the alignment is left for the thread
pointer between the end of the image and the last eight bytes of the area. -/
theorem initArea_safe_iff (mem : ℕ → UInt8) (header : ProgramHeader) (tlsArea : UInt64)
    (length : ℕ) (h : Documented .x86_64 header tlsArea length) :
    Safe mem header tlsArea length ↔
      ∃ k, header.segmentAlignment.toNat ∣ k ∧ header.segmentMemorySize.toNat ≤ k ∧
        k + 8 ≤ length := by
  constructor
  · intro hsafe
    exact hsafe.exists_dvd h.area_aligned
  · rintro ⟨k, hdvd, hle, hroom⟩
    exact h.safe (h.alignForward_add_le hdvd hle hroom)

/-- A segment of 64 bytes in the area of the example program. -/
theorem initArea_safe_sixtyFour : Safe (fun _ => 0) ⟨4096, 24, 64, 8⟩ 8192 72 :=
  (initArea_safe_iff (fun _ => 0) ⟨4096, 24, 64, 8⟩ 8192 72
    ⟨by decide, by decide, ⟨3, rfl⟩, by decide, by decide⟩).mpr
    ⟨64, by decide, by decide, by decide⟩

/-- Behind a segment of 9 bytes the thread pointer is stored from byte 16 of an area of 17 bytes
on. -/
theorem initArea_not_safe_nine :
    ¬ ∀ (mem : ℕ → UInt8) (header : ProgramHeader) (tlsArea : UInt64) (length : ℕ),
      Documented .x86_64 header tlsArea length → Safe mem header tlsArea length := by
  intro hall
  have hsafe := hall (fun _ => 0) ⟨4096, 9, 9, 8⟩ 8192 17
    ⟨by decide, by decide, ⟨3, rfl⟩, by decide, by decide⟩
  have hself := (hsafe.inside _ selfPointerStore_mem).2
  rw [stop_selfPointerStore] at hself
  exact absurd hself (by decide)

end Hc.Tls
