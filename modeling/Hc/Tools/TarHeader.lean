import Hc.Tools.Tar

/-!
# What the reader finds in a header

The two programs share only the offsets of `tar.h`. The prefix is always terminated,
and so is a name of less than 100 bytes; a name that fills its field runs into the
mode that follows it.
-/

namespace Hc.Tar

variable {pre name : List UInt8} {typeflag : UInt8} {size : ℕ}

@[simp] theorem length_octalField (number width : ℕ) :
    (octalField number width).length = width := by
  induction width with
  | zero => rfl
  | succ width ih => simp [octalField, ih]

/-- A field of `k` bytes beside a range. -/
theorem slice_write_field {bytes : Bytes 512} {offset first length : ℕ} {src : List UInt8} (k : ℕ)
    (hsrc : src.length = k) (hfits : offset + k ≤ 512)
    (hdisjoint : first + length ≤ offset ∨ offset + k ≤ first) :
    (bytes.write offset src).slice first length = bytes.slice first length := by
  subst hsrc
  exact Bytes.slice_write_of_disjoint bytes hfits hdisjoint

/-- The header with the name, the prefix and the mode only. -/
def headerNames (pre name : List UInt8) : Bytes 512 :=
  (Bytes.write (Bytes.write (List.Vector.replicate 512 0) 0 name) 345 pre).write 100
    (ascii "0000777")

/-- The fields between the mode and the prefix are beside the name, the mode and the
prefix. -/
theorem slice_header {first length : ℕ} (h : first + length ≤ 124 ∨ 265 ≤ first) :
    (header pre name typeflag size).slice first length =
      (headerNames pre name).slice first length := by
  unfold header headerFields offsetName offsetMode offsetSize offsetMtime offsetChksum
    offsetTypeflag offsetMagic offsetVersion offsetPrefix
  rw [slice_write_field 7 (length_octalField _ 7) (by decide) (by omega),
    slice_write_field 2 rfl (by decide) (by omega), slice_write_field 5 rfl (by decide) (by omega),
    slice_write_field 1 rfl (by decide) (by omega), slice_write_field 8 rfl (by decide) (by omega),
    slice_write_field 11 rfl (by decide) (by omega),
    slice_write_field 11 (length_octalField size 11) (by decide) (by omega)]
  rfl

theorem slice_zeros (first length : ℕ) (h : first + length ≤ 512) :
    Bytes.slice (List.Vector.replicate 512 0 : Bytes 512) first length =
      List.replicate length 0 := by
  change ((List.replicate 512 (0 : UInt8)).drop first).take length = _
  rw [List.drop_replicate, List.take_replicate, Nat.min_eq_left (by omega)]

theorem slice_header_name (hname : name.length ≤ 100) (hpre : pre.length ≤ 155) :
    (header pre name typeflag size).slice 0 100 =
      name ++ List.replicate (100 - name.length) 0 := by
  rw [slice_header (by omega), headerNames, slice_write_field 7 rfl (by decide) (by omega),
    slice_write_field pre.length rfl (by omega) (by omega),
    show 100 = name.length + (100 - name.length) by omega, ← Bytes.slice_append,
    Bytes.slice_write_self _ (by omega), slice_write_field name.length rfl (by omega) (by omega),
    slice_zeros _ _ (by omega), Nat.add_sub_cancel_left]

theorem slice_header_mode (hname : name.length ≤ 100) (hpre : pre.length ≤ 155) :
    (header pre name typeflag size).slice 100 8 = ascii "0000777" ++ [0] := by
  rw [slice_header (by omega), headerNames, show 8 = (ascii "0000777").length + 1 from rfl,
    ← Bytes.slice_append, Bytes.slice_write_self _ (by decide),
    slice_write_field 7 rfl (by decide) (.inr (by decide)),
    slice_write_field pre.length rfl (by omega) (.inl (by decide)),
    slice_write_field name.length rfl (by omega)
      (.inr (by rw [show (ascii "0000777").length = 7 from rfl]; omega)),
    slice_zeros _ _ (by decide)]
  rfl

theorem slice_header_pre (hname : name.length ≤ 100) (hpre : pre.length ≤ 155) :
    (header pre name typeflag size).slice 345 167 =
      pre ++ List.replicate (167 - pre.length) 0 := by
  rw [slice_header (by omega), headerNames, slice_write_field 7 rfl (by decide) (by omega),
    show 167 = pre.length + (167 - pre.length) by omega, ← Bytes.slice_append,
    Bytes.slice_write_self _ (by omega), slice_write_field pre.length rfl (by omega) (by omega),
    slice_write_field name.length rfl (by omega) (by omega), slice_zeros _ _ (by omega),
    Nat.add_sub_cancel_left]

theorem slice_header_size : (header pre name typeflag size).slice 124 11 = octalField size 11 := by
  unfold header headerFields offsetName offsetMode offsetSize offsetMtime offsetChksum
    offsetTypeflag offsetMagic offsetVersion offsetPrefix
  rw [slice_write_field 7 (length_octalField _ 7) (by decide) (by decide),
    slice_write_field 2 rfl (by decide) (by decide), slice_write_field 5 rfl (by decide)
      (by decide),
    slice_write_field 1 rfl (by decide) (by decide), slice_write_field 8 rfl (by decide)
      (by decide),
    slice_write_field 11 rfl (by decide) (by decide)]
  have hself : ((headerNames pre name).write 124 (octalField size 11)).slice 124 _ = _ :=
    Bytes.slice_write_self _ (by rw [length_octalField]; decide)
  rw [length_octalField] at hself
  exact hself

theorem slice_header_typeflag : (header pre name typeflag size).slice 156 1 = [typeflag] := by
  unfold header headerFields offsetName offsetMode offsetSize offsetMtime offsetChksum
    offsetTypeflag offsetMagic offsetVersion offsetPrefix
  rw [slice_write_field 7 (length_octalField _ 7) (by decide) (by decide),
    slice_write_field 2 rfl (by decide) (by decide), slice_write_field 5 rfl (by decide)
      (by decide)]
  exact Bytes.slice_write_self _ (show 156 + [typeflag].length ≤ 512 by simp)

end Hc.Tar

namespace Hc.Untar

open Tar

variable {pre name : List UInt8} {typeflag : UInt8} {size : ℕ}

theorem takeWhile_ne_zero {text rest : List UInt8} (h : 0 ∉ text) :
    (text ++ 0 :: rest).takeWhile (· != 0) = text := by
  rw [List.takeWhile_append_of_pos]
  · simp
  · intro c hc
    have hne : c ≠ 0 := fun hzero => h (hzero ▸ hc)
    simpa using hne

/-- A string whose terminator lies within a known range. -/
theorem cstr_eq {bytes : Bytes 512} {offset length : ℕ} {text rest : List UInt8}
    (hslice : bytes.slice offset length = text ++ 0 :: rest) (h : 0 ∉ text) :
    cstr bytes.toList offset = text := by
  have hsplit := List.take_append_drop length (bytes.toList.drop offset)
  change bytes.slice offset length ++ _ = _ at hsplit
  rw [hslice, List.append_assoc, List.cons_append] at hsplit
  rw [cstr, ← hsplit, takeWhile_ne_zero h]

theorem cstr_header_pre (hname : name.length ≤ 100) (hpre : pre.length ≤ 155) (h : 0 ∉ pre) :
    cstr (header pre name typeflag size).toList offsetPrefix = pre := by
  have hslice : (header pre name typeflag size).slice 345 167 = _ := slice_header_pre hname hpre
  rw [show 167 - pre.length = 166 - pre.length + 1 by omega, List.replicate_succ] at hslice
  exact cstr_eq hslice h

/-- A name that does not fill its field is read back. -/
theorem cstr_header_name (hname : name.length < 100) (hpre : pre.length ≤ 155) (h : 0 ∉ name) :
    cstr (header pre name typeflag size).toList offsetName = name := by
  have hslice : (header pre name typeflag size).slice 0 100 = _ := slice_header_name hname.le hpre
  rw [show 100 - name.length = 99 - name.length + 1 by omega, List.replicate_succ] at hslice
  exact cstr_eq hslice h

/-- A name that fills its field runs into the mode. -/
theorem cstr_header_full_name (hname : name.length = 100) (hpre : pre.length ≤ 155)
    (h : 0 ∉ name) :
    cstr (header pre name typeflag size).toList offsetName = name ++ ascii "0000777" := by
  have hslice : (header pre name typeflag size).slice 0 (100 + 8) =
      (name ++ ascii "0000777") ++ 0 :: [] := by
    rw [← Bytes.slice_append, slice_header_name hname.le hpre, Nat.zero_add,
      slice_header_mode hname.le hpre, hname, Nat.sub_self, List.replicate_zero, List.append_nil,
      List.append_assoc]
  refine cstr_eq hslice fun hmem => ?_
  rcases List.mem_append.mp hmem with hzero | hzero
  · exact h hzero
  · revert hzero
    decide

theorem byteAt_header_typeflag :
    byteAt (header pre name typeflag size).toList offsetTypeflag = typeflag := by
  have hslice : (header pre name typeflag size).slice 156 1 = _ := slice_header_typeflag
  have hlength := (header pre name typeflag size).toList_length
  rw [Bytes.slice, List.drop_eq_getElem_cons (by omega), List.take_succ_cons,
    List.take_zero] at hslice
  rw [byteAt, offsetTypeflag, List.getD_eq_getElem _ _ (by omega)]
  exact List.head_eq_of_cons_eq hslice

/-- The digit of an octal field is read back. -/
theorem octal_digit (k : ℕ) : (byteAt (ascii "01234567") (k &&& 7)).toNat = 48 + k % 8 := by
  have hall : ∀ d : Fin 8, (byteAt (ascii "01234567") d.val).toNat = 48 + d.val := by decide
  rw [show (7 : ℕ) = 2 ^ 3 - 1 from rfl, Nat.and_two_pow_sub_one_eq_mod]
  exact hall ⟨k % 8, Nat.mod_lt _ (by decide)⟩

/-- One digit of `parseSize`. -/
def sizeDigit (size : ℕ) (c : UInt8) : Option ℕ :=
  if 48 ≤ c.toNat ∧ c.toNat ≤ 55 then some (size * 8 + (c.toNat - 48)) else none

theorem foldlM_octalField (number width acc : ℕ) :
    (octalField number width).foldlM sizeDigit acc =
      some (acc * 8 ^ width + number % 8 ^ width) := by
  induction width generalizing acc with
  | zero => simp [octalField, Nat.mod_one]
  | succ width ih =>
      have hdigit := octal_digit (number >>> (3 * width))
      have hlt : (number >>> (3 * width)) % 8 < 8 := Nat.mod_lt _ (by decide)
      have hstep : sizeDigit acc (byteAt (ascii "01234567") ((number >>> (3 * width)) &&& 7)) =
          some (acc * 8 + number / 8 ^ width % 8) := by
        rw [sizeDigit, hdigit, if_pos (by omega), Nat.add_sub_cancel_left,
          Nat.shiftRight_eq_div_pow, pow_mul]
        norm_num
      rw [octalField, List.foldlM_cons, hstep]
      change (octalField number width).foldlM sizeDigit (acc * 8 + number / 8 ^ width % 8) = _
      have hsplit : number % 8 ^ (width + 1) =
          number % 8 ^ width + 8 ^ width * (number / 8 ^ width % 8) := by
        rw [pow_succ, Nat.mod_mul]
      rw [ih, hsplit, pow_succ]
      congr 1
      ring

theorem parseSize_header (hsize : size ≤ maxFileSize) :
    parseSize (header pre name typeflag size).toList = some size := by
  have hfold := foldlM_octalField size 11 0
  have hlt : size < 8 ^ 11 := lt_of_le_of_lt hsize (by decide)
  rw [Nat.mod_eq_of_lt hlt, Nat.zero_mul, Nat.zero_add] at hfold
  have hslice : (header pre name typeflag size).slice 124 11 = _ := slice_header_size
  rw [← hfold, ← hslice]
  rfl

end Hc.Untar
