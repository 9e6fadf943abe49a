import Mathlib.Data.Vector.Basic
import Mathlib.Tactic.Ring
import Hc.Foundation.Word

/-!
# Byte strings and little-endian numbers

Byte strings are lists; a fixed-size array of `n` bytes is a `Bytes n`. Loads
and stores of 64-bit words go through the little-endian value of a string, and
`Bytes.write` overwrites a range of an array and leaves the rest alone.
-/

namespace Hc

/-- The value of a byte string, least significant byte first. -/
def leNat : List UInt8 → ℕ
  | [] => 0
  | b :: rest => b.toNat + 256 * leNat rest

/-- The `k` low bytes of a number, least significant first. -/
def leBytes : ℕ → ℕ → List UInt8
  | 0, _ => []
  | k + 1, n => UInt8.ofNat n :: leBytes k (n / 256)

@[simp] theorem leNat_nil : leNat [] = 0 := rfl

@[simp] theorem leNat_cons (b : UInt8) (rest : List UInt8) :
    leNat (b :: rest) = b.toNat + 256 * leNat rest := rfl

theorem leNat_append (left right : List UInt8) :
    leNat (left ++ right) = leNat left + 256 ^ left.length * leNat right := by
  induction left with
  | nil => simp
  | cons b left ih =>
      simp only [List.cons_append, leNat_cons, ih, List.length_cons]
      ring

theorem leNat_lt (bytes : List UInt8) : leNat bytes < 256 ^ bytes.length := by
  induction bytes with
  | nil => simp
  | cons b bytes ih =>
      have hb := b.toNat_lt
      rw [leNat_cons, List.length_cons, pow_succ]
      omega

theorem leNat_take_add (bytes : List UInt8) (k : ℕ) :
    leNat bytes = leNat (bytes.take k) + 256 ^ (bytes.take k).length * leNat (bytes.drop k) := by
  conv_lhs => rw [← List.take_append_drop k bytes]
  exact leNat_append _ _

theorem leNat_take (bytes : List UInt8) (k : ℕ) : leNat (bytes.take k) = leNat bytes % 256 ^ k := by
  rcases Nat.lt_or_ge bytes.length k with hlt | hge
  · have hbound := leNat_lt bytes
    have hmono : 256 ^ bytes.length ≤ 256 ^ k := Nat.pow_le_pow_right (by decide) hlt.le
    rw [List.take_of_length_le hlt.le, Nat.mod_eq_of_lt (by omega)]
  · have hlength : (bytes.take k).length = k := by simpa using hge
    have hbound := leNat_lt (bytes.take k)
    rw [hlength] at hbound
    rw [leNat_take_add bytes k, hlength, Nat.add_mul_mod_self_left, Nat.mod_eq_of_lt hbound]

theorem leNat_drop (bytes : List UInt8) (k : ℕ) : leNat (bytes.drop k) = leNat bytes / 256 ^ k := by
  rcases Nat.lt_or_ge bytes.length k with hlt | hge
  · have hbound := leNat_lt bytes
    have hmono : 256 ^ bytes.length ≤ 256 ^ k := Nat.pow_le_pow_right (by decide) hlt.le
    rw [List.drop_of_length_le hlt.le, Nat.div_eq_of_lt (by omega), leNat_nil]
  · have hlength : (bytes.take k).length = k := by simpa using hge
    have hbound := leNat_lt (bytes.take k)
    rw [hlength] at hbound
    have hpos : 0 < 256 ^ k := Nat.pow_pos (by decide)
    rw [leNat_take_add bytes k, hlength, Nat.add_mul_div_left _ _ hpos,
      Nat.div_eq_of_lt hbound, Nat.zero_add]

@[simp] theorem leNat_replicate_zero (k : ℕ) : leNat (List.replicate k 0) = 0 := by
  induction k with
  | zero => rfl
  | succ k ih => simp [List.replicate_succ, ih]

@[simp] theorem length_leBytes (k n : ℕ) : (leBytes k n).length = k := by
  induction k generalizing n with
  | zero => rfl
  | succ k ih => simp [leBytes, ih]

theorem leNat_leBytes (k n : ℕ) : leNat (leBytes k n) = n % 256 ^ k := by
  induction k generalizing n with
  | zero => simp [leBytes, Nat.mod_one]
  | succ k ih =>
      have hsplit : n % 256 ^ (k + 1) = n % 256 + 256 * (n / 256 % 256 ^ k) := by
        rw [pow_succ', Nat.mod_mul]
      rw [leBytes, leNat_cons, ih, UInt8.toNat_ofNat', hsplit]

theorem leBytes_leNat (bytes : List UInt8) : leBytes bytes.length (leNat bytes) = bytes := by
  induction bytes with
  | nil => rfl
  | cons b bytes ih =>
      have hb := b.toNat_lt
      rw [List.length_cons, leNat_cons, leBytes]
      have hdiv : (b.toNat + 256 * leNat bytes) / 256 = leNat bytes := by omega
      have hhead : UInt8.ofNat (b.toNat + 256 * leNat bytes) = b := by
        apply UInt8.toNat_inj.mp
        rw [UInt8.toNat_ofNat']
        omega
      rw [hdiv, ih, hhead]

theorem leNat_injective {left right : List UInt8} (hlength : left.length = right.length)
    (hvalue : leNat left = leNat right) : left = right := by
  rw [← leBytes_leNat left, ← leBytes_leNat right, hlength, hvalue]

theorem leBytes_append (j k n : ℕ) :
    leBytes j n ++ leBytes k (n / 256 ^ j) = leBytes (j + k) n := by
  apply leNat_injective
  · simp
  · rw [leNat_append, length_leBytes, leNat_leBytes, leNat_leBytes, leNat_leBytes, pow_add,
      Nat.mod_mul]

theorem leBytes_congr {k n m : ℕ} (h : n % 256 ^ k = m % 256 ^ k) : leBytes k n = leBytes k m := by
  apply leNat_injective
  · simp
  · rw [leNat_leBytes, leNat_leBytes, h]

/-! ## Words in memory -/

/-- The byte at an offset; the model never reads past the end. -/
def byteAt (bytes : List UInt8) (offset : ℕ) : UInt8 := bytes.getD offset 0

theorem byteAt_append_left {bytes : List UInt8} {i : ℕ} (more : List UInt8)
    (hi : i < bytes.length) :
    byteAt (bytes ++ more) i = byteAt bytes i :=
  List.getD_append _ _ _ _ hi

theorem byteAt_append_right {before : List UInt8} {i : ℕ} (bytes : List UInt8)
    (hi : before.length ≤ i) :
    byteAt (before ++ bytes) i = byteAt bytes (i - before.length) :=
  List.getD_append_right _ _ _ _ hi

theorem byteAt_toNat (bytes : List UInt8) (offset : ℕ) :
    (byteAt bytes offset).toNat = leNat bytes / 256 ^ offset % 256 := by
  rw [← leNat_drop]
  rcases Nat.lt_or_ge offset bytes.length with hlt | hge
  · have hb := bytes[offset].toNat_lt
    rw [List.drop_eq_getElem_cons hlt, leNat_cons, byteAt, List.getD_eq_getElem _ _ hlt]
    omega
  · rw [List.drop_of_length_le hge, byteAt, List.getD_eq_default _ _ hge]
    rfl

section Offsets

variable {file bytes rest : List UInt8} {offset : ℕ}

/-- Bytes that stand at an offset end inside of the file. -/
theorem offset_add_length_le (h : file.drop offset = bytes ++ rest) (hne : bytes ≠ []) :
    offset + bytes.length ≤ file.length := by
  have hlength := congrArg List.length h
  have hpos := List.length_pos_iff.mpr hne
  rw [List.length_drop, List.length_append] at hlength
  omega

theorem drop_add_length (h : file.drop offset = bytes ++ rest) :
    file.drop (offset + bytes.length) = rest := by
  rw [← List.drop_drop, h, List.drop_left]

/-- The byte at an offset. -/
theorem getElem?_of_drop {b : UInt8} (h : file.drop offset = b :: rest) :
    file[offset]? = some b := by
  rw [← Nat.add_zero offset, ← List.getElem?_drop, h, List.getElem?_cons_zero]

/-- The run of bytes with a property from an offset on goes to the end of the file, or to a byte
without it. -/
theorem drop_eq_takeWhile_or (p : UInt8 → Bool) (file : List UInt8) (offset : ℕ) :
    let run := (file.drop offset).takeWhile p
    let i := offset + run.length
    (file.length ≤ i ∧ file.drop offset = run) ∨
    (i < file.length ∧ p (byteAt file i) = false ∧
      file.drop offset = run ++ byteAt file i :: file.drop (i + 1)) := by
  dsimp only
  have hsplit := List.takeWhile_append_dropWhile (p := p) (l := file.drop offset)
  generalize hrun : (file.drop offset).takeWhile p = run at hsplit
  have hdrop := drop_add_length hsplit.symm
  have hlength := congrArg List.length hsplit
  rw [List.length_append, List.length_drop] at hlength
  cases hrest : (file.drop offset).dropWhile p with
  | nil =>
      rw [hrest] at hsplit hlength
      rw [List.append_nil] at hsplit
      rw [List.length_nil] at hlength
      exact .inl ⟨by omega, hsplit.symm⟩
  | cons b more =>
      rw [hrest] at hsplit hlength hdrop
      rw [List.length_cons] at hlength
      have hlt : offset + run.length < file.length := by omega
      rw [List.drop_eq_getElem_cons hlt, List.cons.injEq] at hdrop
      have hbyte : byteAt file (offset + run.length) = b := by
        rw [byteAt, List.getD_eq_getElem _ _ hlt, hdrop.1]
      refine .inr ⟨hlt, ?_, ?_⟩
      · have hhead := List.head?_dropWhile_not p (file.drop offset)
        rw [hrest, List.head?_cons] at hhead
        rw [hbyte]
        simpa using hhead
      · rw [hbyte, hdrop.2, hsplit]

end Offsets

/-- `mem_loadU64` at an offset. -/
def loadU64 (bytes : List UInt8) (offset : ℕ) : Word 64 :=
  Word.lit 64 (leNat ((bytes.drop offset).take 8))

/-- `mem_storeU64`: the eight bytes written. -/
def storeU64 (x : Word 64) : List UInt8 := leBytes 8 x.toNat

theorem loadU64_holds (bytes : List UInt8) (offset : ℕ) :
    (loadU64 bytes offset).Holds (leNat bytes / 2 ^ (8 * offset) % 2 ^ 64) (2 ^ 64 - 1) := by
  have hvalue : leNat ((bytes.drop offset).take 8) = leNat bytes / 2 ^ (8 * offset) % 2 ^ 64 := by
    rw [leNat_take, leNat_drop, pow_mul]
    norm_num
  have hlt : leNat bytes / 2 ^ (8 * offset) % 2 ^ 64 < 2 ^ 64 := Nat.mod_lt _ (by decide)
  unfold loadU64
  rw [hvalue]
  exact (Word.Holds.lit _ hlt).mono (Nat.le_sub_one_of_lt hlt)

/-- `mem_compare`: the difference of the first two bytes that differ. -/
def memCompare : List UInt8 → List UInt8 → ℤ
  | l :: left, r :: right =>
    let diff : ℤ := l.toNat - r.toNat
    if diff ≠ 0 then diff else memCompare left right
  | _, _ => 0

theorem memCompare_eq_zero_iff {left right : List UInt8} (hlength : left.length = right.length) :
    memCompare left right = 0 ↔ left = right := by
  induction left generalizing right with
  | nil => simp [memCompare, List.length_eq_zero_iff.mp hlength.symm]
  | cons l left ih =>
      cases right with
      | nil => simp at hlength
      | cons r right =>
          have hl := l.toNat_inj (b := r)
          rw [memCompare, List.cons.injEq, ← ih (by simpa using hlength), ← hl]
          split
          next hne => omega
          next heq => simp only [show l.toNat = r.toNat by omega, true_and]

/-- `mem_compareConstantTime`: the bits in which some bytes differ. -/
def memCompareConstantTime : List UInt8 → List UInt8 → BitVec 32
  | l :: left, r :: right =>
    (l.toBitVec.setWidth 32 ^^^ r.toBitVec.setWidth 32) ||| memCompareConstantTime left right
  | _, _ => 0

theorem memCompareConstantTime_self (bytes : List UInt8) : memCompareConstantTime bytes bytes =
    0 := by
  induction bytes with
  | nil => rfl
  | cons b bytes ih => rw [memCompareConstantTime, ih, BitVec.xor_self, BitVec.zero_or]

/-- A field of bits inside a word inside a number. -/
theorem div_mod_div_mod (n i w j k : ℕ) (h : j + k ≤ w) :
    n / 2 ^ i % 2 ^ w / 2 ^ j % 2 ^ k = n / 2 ^ (i + j) % 2 ^ k := by
  obtain ⟨r, rfl⟩ := Nat.exists_eq_add_of_le h
  rw [Nat.add_assoc, pow_add 2 j, Nat.mod_mul_right_div_self, Nat.div_div_eq_div_mul, ← pow_add,
    Nat.mod_mod_of_dvd _ (pow_dvd_pow 2 (Nat.le_add_right k r))]

/-- Four words stored in order write a number of 32 bytes. -/
theorem storeU64_four {w0 w1 w2 w3 : Word 64} {n : ℕ} (h0 : w0.toNat = n % 2 ^ 64)
    (h1 : w1.toNat = n / 2 ^ 64 % 2 ^ 64) (h2 : w2.toNat = n / 2 ^ 128 % 2 ^ 64)
    (h3 : w3.toNat = n / 2 ^ 192 % 2 ^ 64) :
    storeU64 w0 ++ storeU64 w1 ++ storeU64 w2 ++ storeU64 w3 = leBytes 32 n := by
  have hmod (m : ℕ) : leBytes 8 (m % 2 ^ 64) = leBytes 8 m := leBytes_congr (by norm_num)
  have hsplit : leBytes 32 n = leBytes 8 n ++ leBytes 8 (n / 2 ^ 64) ++ leBytes 8 (n / 2 ^ 128) ++
      leBytes 8 (n / 2 ^ 192) := by
    rw [show n / 2 ^ 64 = n / 256 ^ 8 by norm_num, leBytes_append,
      show n / 2 ^ 128 = n / 256 ^ 16 by norm_num, leBytes_append,
      show n / 2 ^ 192 = n / 256 ^ 24 by norm_num, leBytes_append]
  rw [hsplit, storeU64, storeU64, storeU64, storeU64, h0, h1, h2, h3, hmod, hmod, hmod, hmod]

/-! ## Big-endian numbers -/

/-- The `k` low bytes of a number, most significant first. -/
def beBytes (k n : ℕ) : List UInt8 := (leBytes k n).reverse

/-- The value of a byte string, most significant byte first. -/
def beNat (bytes : List UInt8) : ℕ := leNat bytes.reverse

@[simp] theorem length_beBytes (k n : ℕ) : (beBytes k n).length = k := by
  simp [beBytes]

theorem beBytes_append (j k n : ℕ) : beBytes k (n / 256 ^ j) ++ beBytes j n = beBytes
    (j + k) n := by
  rw [beBytes, beBytes, beBytes, ← List.reverse_append, leBytes_append]

theorem beBytes_congr {k n m : ℕ} (h : n % 256 ^ k = m % 256 ^ k) : beBytes k n = beBytes k m := by
  rw [beBytes, beBytes, leBytes_congr h]

theorem beNat_beBytes (k n : ℕ) : beNat (beBytes k n) = n % 256 ^ k := by
  rw [beNat, beBytes, List.reverse_reverse, leNat_leBytes]

theorem beNat_lt (bytes : List UInt8) : beNat bytes < 256 ^ bytes.length := by
  rw [beNat, ← List.length_reverse]
  exact leNat_lt _

theorem beBytes_beNat (bytes : List UInt8) : beBytes bytes.length (beNat bytes) = bytes := by
  rw [beBytes, beNat, ← List.length_reverse, leBytes_leNat, List.reverse_reverse]

/-- `mem_loadU32BE` and `mem_loadU64BE` at an offset. -/
def loadBE (w : ℕ) (bytes : List UInt8) (offset : ℕ) : BitVec w :=
  BitVec.ofNat w (beNat ((bytes.drop offset).take (w / 8)))

/-- `mem_storeU32BE` and `mem_storeU64BE`: the bytes written. -/
def storeBE {w : ℕ} (x : BitVec w) : List UInt8 := beBytes (w / 8) x.toNat

/-- `mem_loadU32` at an offset. -/
def loadLE (w : ℕ) (bytes : List UInt8) (offset : ℕ) : BitVec w :=
  BitVec.ofNat w (leNat ((bytes.drop offset).take (w / 8)))

/-- `mem_storeU32`: the bytes written. -/
def storeLE {w : ℕ} (x : BitVec w) : List UInt8 := leBytes (w / 8) x.toNat

/-- The bytes of a word have as many values as the word. -/
theorem pow_div_eight {w : ℕ} (hw : w % 8 = 0) : 256 ^ (w / 8) = 2 ^ w := by
  rw [show 256 = 2 ^ 8 from rfl, ← pow_mul]
  congr 1
  omega

/-- A word is loaded from where it was stored. -/
theorem loadLE_append {w : ℕ} (hw : w % 8 = 0) (x : BitVec w) (before after : List UInt8) :
    loadLE w (before ++ (storeLE x ++ after)) before.length = x := by
  rw [loadLE, List.drop_left, storeLE, List.take_left' (length_leBytes _ _), leNat_leBytes,
    pow_div_eight hw, Nat.mod_eq_of_lt x.isLt, BitVec.ofNat_toNat, BitVec.setWidth_eq]

@[simp] theorem length_storeLE {w : ℕ} (x : BitVec w) : (storeLE x).length = w / 8 :=
  length_leBytes _ _

/-! ## Fixed-size arrays -/

/-- An array of `n` bytes. -/
abbrev Bytes (n : ℕ) := List.Vector UInt8 n

namespace Bytes

variable {n : ℕ}

theorem memCompare_eq_zero_iff (left right : Bytes n) :
    memCompare left.toList right.toList = 0 ↔ left = right := by
  rw [Hc.memCompare_eq_zero_iff (by rw [left.toList_length, right.toList_length])]
  exact List.Vector.toList_injective.eq_iff

/-- Copy `src` over the array from `offset` on; what does not fit is cut off. -/
def write (bytes : Bytes n) (offset : ℕ) (src : List UInt8) : Bytes n :=
  ⟨bytes.toList.take offset ++ src.take (n - offset) ++ bytes.toList.drop (offset + src.length), by
    simp only [List.length_append, List.length_take, List.length_drop, bytes.toList_length]
    omega⟩

theorem toList_write (bytes : Bytes n) (offset : ℕ) (src : List UInt8)
    (hfits : offset + src.length ≤ n) :
    (bytes.write offset src).toList =
      bytes.toList.take offset ++ src ++ bytes.toList.drop (offset + src.length) := by
  have hsrc : src.take (n - offset) = src := List.take_of_length_le (by omega)
  change bytes.toList.take offset ++ src.take (n - offset) ++ _ = _
  rw [hsrc]

theorem write_nil (bytes : Bytes n) (offset : ℕ) : bytes.write offset [] = bytes := by
  apply List.Vector.toList_injective
  change bytes.toList.take offset ++ [].take (n - offset) ++ bytes.toList.drop (offset + 0) = _
  rw [List.take_nil, List.append_nil, Nat.add_zero, List.take_append_drop]

/-- The prefix that a write leaves behind it. -/
theorem take_write (bytes : Bytes n) (offset : ℕ) (src : List UInt8)
    (hfits : offset + src.length ≤ n) :
    (bytes.write offset src).toList.take (offset + src.length) =
      bytes.toList.take offset ++ src := by
  have hlength := bytes.toList_length
  rw [toList_write bytes offset src hfits]
  apply List.take_left'
  simp only [List.length_append, List.length_take]
  omega

/-- The bytes from `first` on, `length` of them. -/
def slice (bytes : Bytes n) (first length : ℕ) : List UInt8 :=
  (bytes.toList.drop first).take length

/-- A write leaves the ranges beside it alone. -/
theorem slice_write_of_disjoint (bytes : Bytes n) {offset first length : ℕ} {src : List UInt8}
    (hfits : offset + src.length ≤ n)
    (hdisjoint : first + length ≤ offset ∨ offset + src.length ≤ first) :
    (bytes.write offset src).slice first length = bytes.slice first length := by
  have hlength := bytes.toList_length
  rw [slice, slice, toList_write _ _ _ hfits]
  rcases hdisjoint with hbefore | hafter
  · rw [List.append_assoc, List.drop_append_of_le_length, List.take_append_of_le_length,
      List.drop_take, List.take_take, Nat.min_eq_left (by omega)]
    · rw [List.length_drop, List.length_take]
      omega
    · rw [List.length_take]
      omega
  · have hpre : (bytes.toList.take offset ++ src).length = offset + src.length := by
      rw [List.length_append, List.length_take]
      omega
    rw [List.drop_append, hpre, List.drop_of_length_le (by omega), List.nil_append,
      List.drop_drop, Nat.add_sub_cancel' hafter]

/-- A write is found where it was made. -/
theorem slice_write_self (bytes : Bytes n) {offset : ℕ} {src : List UInt8}
    (hfits : offset + src.length ≤ n) : (bytes.write offset src).slice offset src.length = src := by
  have hlength := bytes.toList_length
  have htake : (bytes.toList.take offset).length = offset := by
    rw [List.length_take]
    omega
  rw [slice, toList_write _ _ _ hfits, List.append_assoc, List.drop_left' htake, List.take_left]

theorem slice_append (bytes : Bytes n) (first length length' : ℕ) :
    bytes.slice first length ++ bytes.slice (first + length) length' =
      bytes.slice first (length + length') := by
  rw [slice, slice, slice, List.take_add, List.drop_drop]

/-- The array at an offset of a file. -/
def load (n : ℕ) (file : List UInt8) (offset : ℕ) : Bytes n :=
  .ofFn fun i : Fin n => byteAt file (offset + i)

theorem drop_eq_load {file : List UInt8} {offset : ℕ} (h : offset + n ≤ file.length) :
    file.drop offset = (load n file offset).toList ++ file.drop (offset + n) := by
  have hload : (load n file offset).toList = (file.drop offset).take n := by
    rw [load, List.Vector.toList_ofFn]
    apply List.ext_getElem
    · rw [List.length_ofFn, List.length_take, List.length_drop]
      omega
    · intro i hi _
      rw [List.length_ofFn] at hi
      rw [List.getElem_ofFn, List.getElem_take, List.getElem_drop, byteAt,
        List.getD_eq_getElem _ _ (by omega)]
  rw [hload, ← List.drop_drop, List.take_append_drop]

/-- An array that stands there is loaded. -/
theorem load_of_drop {file rest : List UInt8} {offset : ℕ} (bytes : Bytes n)
    (h : file.drop offset = bytes.toList ++ rest) : load n file offset = bytes := by
  have hlength := congrArg List.length h
  rw [List.length_drop, List.length_append, bytes.toList_length] at hlength
  rcases Nat.eq_zero_or_pos n with rfl | hpos
  · exact Subsingleton.elim _ _
  · have hle : offset + n ≤ file.length := by omega
    rw [drop_eq_load hle] at h
    have hsame : (load n file offset).toList.length = bytes.toList.length := by
      rw [List.Vector.toList_length, List.Vector.toList_length]
    exact List.Vector.toList_injective (List.append_inj_left h hsame)

end Bytes

end Hc
