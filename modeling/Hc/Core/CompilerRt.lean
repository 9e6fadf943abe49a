import Hc.Foundation.Bytes
import Hc.Foundation.Memory
import Hc.Foundation.Trace

/-!
# Memory functions of the compiler runtime

`hc/core/hc/compilerRt/mem.c`: `memset`, and `memmove`, of which `memcpy` is an alias. They go over
the memory in chunks of 16 bytes, and what is left is covered by two accesses that may overlap. They
return the address `dest`, here with the memory behind the call.
-/

namespace Hc.CompilerRt

open Memory

/-- The body of both loops: 16 bytes are loaded, and stored thereafter. -/
def moveChunk (mem : ℕ → UInt8) (d s : ℕ) : ℕ → UInt8 :=
  let temp := read mem s 16
  write mem d temp

/-- The loop of `memmove` for a destination in front of the source. It is entered with `i < iEnd`,
so that the condition may stand in front of the body. -/
def moveForward (mem : ℕ → UInt8) (d s iEnd i : ℕ) : ℕ → UInt8 :=
  if i < iEnd then moveForward (moveChunk mem (d + i) (s + i)) d s iEnd (i + 16) else mem
termination_by iEnd - i

/-- The loop of `memmove` for the other destinations, with the number of bytes that it leaves. It
is entered with `16 ≤ n`. -/
def moveBackward (mem : ℕ → UInt8) (d s n : ℕ) : (ℕ → UInt8) × ℕ :=
  if 16 ≤ n then moveBackward (moveChunk mem (d + (n - 16)) (s + (n - 16))) d s (n - 16)
  else (mem, n)
termination_by n

/-- Two values of `size` bytes are loaded, at the start and at the end, and stored thereafter. -/
def movePair (size : ℕ) (mem : ℕ → UInt8) (d s n : ℕ) : ℕ → UInt8 :=
  let temp1 := read mem s size
  let temp2 := read mem (s + n - size) size
  write (write mem d temp1) (d + n - size) temp2

/-- The end of `memmove`, for fewer than 16 bytes. -/
def moveRest (mem : ℕ → UInt8) (d s n : ℕ) : ℕ → UInt8 :=
  if n = 0 then mem
  else if 8 ≤ n then movePair 8 mem d s n
  else if 4 ≤ n then movePair 4 mem d s n
  else if 2 ≤ n then movePair 2 mem d s n
  else Function.update mem d (mem s)

/-- `memmove`. -/
def memmove (mem : ℕ → UInt8) (dest src n : ℕ) : ℕ × (ℕ → UInt8) :=
  if 16 ≤ n then
    if dest < src then
      -- `n & ~15`
      let iEnd := n - (n &&& 15)
      (dest, moveRest (moveForward mem dest src iEnd 0) (dest + iEnd) (src + iEnd) (n &&& 15))
    else
      let (mem, n) := moveBackward mem dest src n
      (dest, moveRest mem dest src n)
  else (dest, moveRest mem dest src n)

theorem movePair_eq {size n : ℕ} (mem : ℕ → UInt8) (d s : ℕ) (hle : size ≤ n)
    (hcover : n ≤ size + size) : movePair size mem d s n = copy mem d s n :=
  write_write_read hle hcover

/-- Both loads are done before the stores, so that the ranges may overlap in any way. -/
theorem moveRest_eq {n : ℕ} (mem : ℕ → UInt8) (d s : ℕ) (h : n < 16) :
    moveRest mem d s n = copy mem d s n := by
  unfold moveRest
  split
  next hzero =>
    subst hzero
    rfl
  next hzero =>
    split
    next h8 => exact movePair_eq mem d s h8 (by omega)
    next h8 =>
      split
      next h4 => exact movePair_eq mem d s h4 (by omega)
      next h4 =>
        split
        next h2 => exact movePair_eq mem d s h2 (by omega)
        next h2 =>
          obtain rfl : n = 1 := by omega
          rfl

/-- What is in front of `i` is copied already, and the loop copies the chunks behind it. -/
theorem moveForward_eq {d s : ℕ} (mem : ℕ → UInt8) (hle : d ≤ s) (chunks i : ℕ) :
    moveForward (copy mem d s i) d s (i + 16 * chunks) i = copy mem d s (i + 16 * chunks) := by
  induction chunks generalizing i with
  | zero => rw [moveForward, if_neg (by omega), Nat.mul_zero, Nat.add_zero]
  | succ chunks ih =>
      have hchunk : moveChunk (copy mem d s i) (d + i) (s + i) = copy mem d s (i + 16) :=
        copy_copy_of_le hle i 16
      rw [moveForward, if_pos (by omega), hchunk,
        show i + 16 * (chunks + 1) = i + 16 + 16 * chunks by omega, ih]

/-- The last `m` bytes are copied already, and the loop copies the chunks in front of them. -/
theorem moveBackward_eq {d s rest : ℕ} (mem : ℕ → UInt8) (hle : s ≤ d) (hrest : rest < 16)
    (chunks m : ℕ) :
    moveBackward (copy mem (d + (rest + 16 * chunks)) (s + (rest + 16 * chunks)) m)
        d s (rest + 16 * chunks) =
      (copy mem (d + rest) (s + rest) (16 * chunks + m), rest) := by
  induction chunks generalizing m with
  | zero => rw [moveBackward, if_neg (by omega), Nat.mul_zero, Nat.add_zero, Nat.zero_add]
  | succ chunks ih =>
      have hchunk : ∀ n, moveChunk (copy mem (d + (n + 16)) (s + (n + 16)) m) (d + n) (s + n) =
          copy mem (d + n) (s + n) (16 + m) := by
        intro n
        rw [← Nat.add_assoc, ← Nat.add_assoc]
        exact copy_copy_of_ge (Nat.add_le_add_right hle n) 16 m
      rw [show rest + 16 * (chunks + 1) = rest + 16 * chunks + 16 by omega, moveBackward,
        if_pos (by omega), Nat.add_sub_cancel, hchunk, ih,
        show 16 * chunks + (16 + m) = 16 * (chunks + 1) + m by omega]

/-- `memmove` copies as if through a place of its own. -/
theorem memmove_eq_copy (mem : ℕ → UInt8) (dest src n : ℕ) :
    memmove mem dest src n = (dest, copy mem dest src n) := by
  have hmod : n &&& 15 = n % 16 := Nat.and_two_pow_sub_one_eq_mod n 4
  have hdiv := Nat.mod_add_div n 16
  have hlt := Nat.mod_lt n (show 0 < 16 by decide)
  unfold memmove
  rw [hmod]
  generalize n % 16 = rest at hdiv hlt ⊢
  generalize n / 16 = chunks at hdiv
  subst hdiv
  split
  next hlong =>
    dsimp only
    split
    next hforward =>
      have hmoved := moveForward_eq mem (Nat.le_of_lt hforward) chunks 0
      rw [Nat.zero_add, show copy mem dest src 0 = mem from rfl] at hmoved
      rw [Nat.add_sub_cancel_left, hmoved, moveRest_eq _ _ _ hlt,
        copy_copy_of_le (Nat.le_of_lt hforward), Nat.add_comm rest]
    next hbackward =>
      have hle : src ≤ dest := Nat.le_of_not_lt hbackward
      have hmoved := moveBackward_eq mem hle hlt chunks 0
      rw [show ∀ d s, copy mem d s 0 = mem from fun _ _ => rfl] at hmoved
      rw [hmoved, moveRest_eq _ _ _ hlt, copy_copy_of_ge hle, Nat.add_zero]
  next hshort => rw [moveRest_eq _ _ _ (by omega)]

/-- However the ranges overlap, the destination gets the bytes that the source had, and no other
byte changes. -/
theorem memmove_moves (mem : ℕ → UInt8) (dest src n : ℕ) :
    (memmove mem dest src n).1 = dest ∧
    (∀ i < n, (memmove mem dest src n).2 (dest + i) = mem (src + i)) ∧
    ∀ address, address < dest ∨ dest + n ≤ address →
      (memmove mem dest src n).2 address = mem address := by
  rw [memmove_eq_copy]
  exact ⟨rfl, fun i hi => copy_of_lt hi, fun address houtside => copy_of_not_mem houtside⟩

/-- Twenty bytes moved by one address. -/
theorem memmove_moves_by_one : (memmove UInt8.ofNat 1 0 20).2 20 = 19 :=
  (memmove_moves UInt8.ofNat 1 0 20).2.1 19 (by decide)

/-! ## Filling -/

/-- A store; its address and its size are recorded. -/
def storeBytes (mem : ℕ → UInt8) (address : ℕ) (bytes : List UInt8) :
    Traced (ℕ × ℕ) (ℕ → UInt8) :=
  .record (address, bytes.length) (write mem address bytes)

/-- `hc_MEMCPY(address, &expanded, size)`. -/
def storeExpanded (expanded : BitVec 64) (size : ℕ) (mem : ℕ → UInt8) (address : ℕ) :
    Traced (ℕ × ℕ) (ℕ → UInt8) :=
  storeBytes mem address ((storeLE expanded).take size)

/-- The loop of `memset`, with the number of bytes that it leaves. -/
def setChunks (expanded : BitVec 64) (mem : ℕ → UInt8) (dest n : ℕ) :
    Traced (ℕ × ℕ) ((ℕ → UInt8) × ℕ) :=
  if 16 ≤ n then do
    let mem ← storeExpanded expanded 8 mem (dest + (n - 16))
    let mem ← storeExpanded expanded 8 mem (dest + (n - 16) + 8)
    setChunks expanded mem dest (n - 16)
  else return (mem, n)
termination_by n

/-- Two stores of `size` bytes, at the start and at the end. -/
def setPair (expanded : BitVec 64) (size : ℕ) (mem : ℕ → UInt8) (dest n : ℕ) :
    Traced (ℕ × ℕ) (ℕ → UInt8) := do
  let mem ← storeExpanded expanded size mem dest
  storeExpanded expanded size mem (dest + n - size)

/-- The end of `memset`, for fewer than 16 bytes. -/
def setRest (expanded : BitVec 64) (mem : ℕ → UInt8) (dest n : ℕ) :
    Traced (ℕ × ℕ) (ℕ → UInt8) :=
  if n = 0 then return mem
  else if 8 ≤ n then setPair expanded 8 mem dest n
  else if 4 ≤ n then setPair expanded 4 mem dest n
  else if 2 ≤ n then setPair expanded 2 mem dest n
  else storeBytes mem dest [UInt8.ofBitVec (expanded.setWidth 8)]

/-- `memset`. -/
def memset (mem : ℕ → UInt8) (dest : ℕ) (c : BitVec 32) (n : ℕ) :
    Traced (ℕ × ℕ) (ℕ × (ℕ → UInt8)) := do
  let expanded : BitVec 64 := 0x0101010101010101 * (c &&& 0xFF).setWidth 64
  let (mem, n) ← setChunks expanded mem dest n
  let mem ← setRest expanded mem dest n
  return (dest, mem)

/-- The byte that `memset` stores: the low bits of `c`. -/
def lowByte (c : BitVec 32) : UInt8 := UInt8.ofBitVec (c.setWidth 8)

theorem toNat_lowByte (c : BitVec 32) : (lowByte c).toNat = c.toNat % 256 :=
  BitVec.toNat_setWidth 8 c

/-- Every byte of `expanded` is the low byte of `c`. -/
theorem storeLE_expanded (c : BitVec 32) :
    storeLE ((0x0101010101010101 : BitVec 64) * (c &&& 0xFF).setWidth 64) =
      List.replicate 8 (lowByte c) := by
  have hlow : ((c &&& 0xFF).setWidth 64).toNat = c.toNat % 256 := by
    rw [BitVec.toNat_setWidth, BitVec.toNat_and]
    change (c.toNat &&& (2 ^ 8 - 1)) % 2 ^ 64 = _
    rw [Nat.and_two_pow_sub_one_eq_mod]
    omega
  have hvalue : leNat (List.replicate 8 (lowByte c)) = 0x0101010101010101 * (c.toNat % 256) := by
    simp only [List.replicate, leNat_cons, leNat_nil, toNat_lowByte]
    omega
  have hproduct : ((0x0101010101010101 : BitVec 64) * (c &&& 0xFF).setWidth 64).toNat =
      leNat (List.replicate 8 (lowByte c)) := by
    rw [BitVec.toNat_mul, hlow, hvalue]
    change 0x0101010101010101 * (c.toNat % 256) % 2 ^ 64 = _
    exact Nat.mod_eq_of_lt (by omega)
  rw [storeLE, hproduct]
  exact leBytes_leNat (List.replicate 8 (lowByte c))

/-- A store between two addresses. -/
def Within (first last : ℕ) (store : ℕ × ℕ) : Prop := first ≤ store.1 ∧ store.1 + store.2 ≤ last

section Set

variable {expanded : BitVec 64} {b : UInt8} {mem : ℕ → UInt8} {first last dest n : ℕ}

theorem storeExpanded_ensures (hb : storeLE expanded = List.replicate 8 b) {size address : ℕ}
    (hsize : size ≤ 8) (hfirst : first ≤ address) (hlast : address + size ≤ last) :
    (storeExpanded expanded size mem address).Ensures (Within first last)
      (· = fill mem address size b) := by
  have hbytes : (storeLE expanded).take size = List.replicate size b := by
    rw [hb, List.take_replicate, Nat.min_eq_left hsize]
  unfold storeExpanded storeBytes
  rw [hbytes]
  exact .record ⟨hfirst, by rwa [List.length_replicate]⟩ rfl

/-- The loop fills all but the bytes that it leaves. -/
theorem setChunks_ensures (hb : storeLE expanded = List.replicate 8 b) {rest : ℕ}
    (hrest : rest < 16) (chunks : ℕ) (hfirst : first ≤ dest)
    (hlast : dest + (rest + 16 * chunks) ≤ last) :
    (setChunks expanded mem dest (rest + 16 * chunks)).Ensures (Within first last)
      (· = (fill mem (dest + rest) (16 * chunks) b, rest)) := by
  induction chunks generalizing mem with
  | zero =>
      rw [setChunks, if_neg (by omega)]
      exact .pure rfl
  | succ chunks ih =>
      have hleft : rest + 16 * (chunks + 1) - 16 = rest + 16 * chunks := by omega
      rw [setChunks, if_pos (by omega), hleft]
      refine (storeExpanded_ensures hb le_rfl (by omega) (by omega)).bind ?_
      rintro mem1 rfl
      refine (storeExpanded_ensures hb le_rfl (by omega) (by omega)).bind ?_
      rintro mem2 rfl
      refine (ih (by omega)).mono ?_
      rintro r rfl
      have hchunk : fill (fill mem (dest + (rest + 16 * chunks)) 8 b)
          (dest + (rest + 16 * chunks) + 8) 8 b = fill mem (dest + (rest + 16 * chunks)) 16 b :=
        fill_fill _ 16 b (by omega)
      rw [hchunk, fill_fill (dest + rest) (16 * (chunks + 1)) b (by omega)]

theorem setPair_ensures (hb : storeLE expanded = List.replicate 8 b) {size : ℕ}
    (hsize : size ≤ 8) (hle : size ≤ n) (hcover : n ≤ size + size) (hfirst : first ≤ dest)
    (hlast : dest + n ≤ last) :
    (setPair expanded size mem dest n).Ensures (Within first last) (· = fill mem dest n b) := by
  refine (storeExpanded_ensures hb hsize hfirst (by omega)).bind ?_
  rintro mem1 rfl
  refine (storeExpanded_ensures hb hsize (by omega) (by omega)).mono ?_
  rintro mem2 rfl
  exact fill_fill dest n b (by omega)

/-- Each size class covers its sizes with two stores that stay inside. -/
theorem setRest_ensures (hb : storeLE expanded = List.replicate 8 b) (hn : n < 16)
    (hfirst : first ≤ dest) (hlast : dest + n ≤ last) :
    (setRest expanded mem dest n).Ensures (Within first last) (· = fill mem dest n b) := by
  unfold setRest
  split
  next hzero =>
    subst hzero
    exact .pure rfl
  next hzero =>
    split
    next h8 => exact setPair_ensures hb (by decide) h8 (by omega) hfirst hlast
    next h8 =>
      split
      next h4 => exact setPair_ensures hb (by decide) h4 (by omega) hfirst hlast
      next h4 =>
        split
        next h2 => exact setPair_ensures hb (by decide) h2 (by omega) hfirst hlast
        next h2 =>
          obtain rfl : n = 1 := by omega
          have hbyte : UInt8.ofBitVec (expanded.setWidth 8) = b := by
            have hhead : UInt8.ofNat expanded.toNat = b := (List.cons.inj hb).1
            rw [← hhead, ← UInt8.toNat_inj, UInt8.toNat_ofNat']
            exact BitVec.toNat_setWidth 8 expanded
          rw [hbyte]
          exact .record ⟨hfirst, hlast⟩ rfl

end Set

theorem memset_ensures (mem : ℕ → UInt8) (dest : ℕ) (c : BitVec 32) (n : ℕ) :
    (memset mem dest c n).Ensures (Within dest (dest + n))
      (· = (dest, fill mem dest n (lowByte c))) := by
  have hb := storeLE_expanded c
  have hdiv := Nat.mod_add_div n 16
  have hlt := Nat.mod_lt n (show 0 < 16 by decide)
  unfold memset
  generalize n % 16 = rest at hdiv hlt
  generalize n / 16 = chunks at hdiv
  subst hdiv
  refine (setChunks_ensures hb hlt chunks le_rfl le_rfl).bind ?_
  rintro r rfl
  refine (setRest_ensures hb hlt le_rfl (by omega)).bind ?_
  rintro mem' rfl
  refine .pure ?_
  rw [fill_fill dest (rest + 16 * chunks) (lowByte c) (by omega)]

/-- The bytes of the range get the low bits of `c`, no other byte changes, and no store touches one.
-/
theorem memset_sets (mem : ℕ → UInt8) (dest : ℕ) (c : BitVec 32) (n : ℕ) :
    (memset mem dest c n).value.1 = dest ∧
    (∀ i < n, (memset mem dest c n).value.2 (dest + i) = lowByte c) ∧
    (∀ address, address < dest ∨ dest + n ≤ address →
      (memset mem dest c n).value.2 address = mem address) ∧
    ∀ store ∈ (memset mem dest c n).events, dest ≤ store.1 ∧ store.1 + store.2 ≤ dest + n := by
  have hset := memset_ensures mem dest c n
  rw [hset.value]
  refine ⟨rfl, fun i hi => ?_, fun address houtside => ?_, hset.events⟩
  · exact (fill_apply _ _ _ _).trans (if_pos (by omega))
  · exact (fill_apply _ _ _ _).trans (if_neg (by omega))

example : (memset (fun _ => 0) 3 0x1AA 5).events = [(3, 4), (4, 4)] := by decide +kernel

end Hc.CompilerRt
