import Hc.Crypto.Ed25519Scalar
import Hc.Foundation.Digits

/-!
# The recodings of scalars

Both recodings keep the number. `window4` has digits from -8 to 8 in base 16, and the
sliding windows have odd digits of bounded size.
-/

namespace Hc.Ed25519

theorem int8_eq {x : ℤ} (hlow : -128 ≤ x) (hhigh : x < 128) : int8 x = x := by
  unfold int8
  rw [Int.bmod_eq_of_le_mul_two] <;> omega

/-! ## The digits of the limbs -/

theorem length_limbDigits (width count : ℕ) (v : Word 64) :
    (limbDigits width count v).length = count := by
  simp [limbDigits]

theorem digitsValue_limbDigits (width count : ℕ) (v : Word 64) :
    digitsValue (2 ^ width : ℕ) (limbDigits width count v) = (v.toNat % 2 ^ (width * count) :
      ℕ) := by
  induction count with
  | zero => simp [limbDigits, Nat.mod_one]
  | succ count ih =>
      have hlast : limbDigits width (count + 1) v = limbDigits width count v ++
          [(((v.toNat >>> (width * count)) % 2 ^ width : ℕ) : ℤ)] := by
        unfold limbDigits
        rw [List.range_succ, List.map_append]
        rfl
      rw [hlast, digitsValue_append, ih, length_limbDigits, digitsValue_cons, digitsValue_nil,
        mul_zero, add_zero, Nat.mul_succ, pow_add, Nat.mod_mul, Nat.shiftRight_eq_div_pow]
      push_cast
      rw [pow_mul]

theorem mem_limbDigits {width count : ℕ} {v : Word 64} {digit : ℤ}
    (h : digit ∈ limbDigits width count v) : 0 ≤ digit ∧ digit < 2 ^ width := by
  obtain ⟨j, -, rfl⟩ := List.mem_map.mp h
  have hlt : v.toNat >>> (width * j) % 2 ^ width < 2 ^ width := Nat.mod_lt _ (Nat.two_pow_pos width)
  exact ⟨Int.natCast_nonneg _, by exact_mod_cast hlt⟩

theorem mem_scalarDigits {width : ℕ} {s : Scalar} {digit : ℤ} (h : digit ∈ scalarDigits width s) :
    0 ≤ digit ∧ digit < 2 ^ width := by
  simp only [scalarDigits, List.mem_append] at h
  rcases h with (((h | h) | h) | h) | h <;> exact mem_limbDigits h

variable {s : Scalar} {n : ℕ}

/-- The digits of a scalar are those of its number. -/
theorem digitsValue_scalarDigits (hs : s.Canonical n) (width : ℕ) (hwidth : width = 1 ∨ width = 4) :
    digitsValue (2 ^ width : ℕ) (scalarDigits width s) = n := by
  have hlimb (k : ℕ) (v : Word 64) (hv : v.toNat < 2 ^ k) (hk : width * (k / width) = k) :
      digitsValue (2 ^ width : ℕ) (limbDigits width (k / width) v) = v.toNat := by
    rw [digitsValue_limbDigits, hk, Nat.mod_eq_of_lt hv]
  obtain ⟨h0, h1, h2, h3, h4⟩ := hs.limbs_le
  have hdvd : width * (56 / width) = 56 ∧ width * (32 / width) = 32 := by
    rcases hwidth with rfl | rfl <;> decide
  have hpow (k : ℕ) (hk : width * (k / width) = k) : ((2 ^ width : ℕ) : ℤ) ^
    (k / width) = 2 ^ k := by
    push_cast
    rw [← pow_mul, hk]
  unfold scalarDigits
  simp only [digitsValue_append, List.length_append, length_limbDigits, pow_add, hpow 56 hdvd.1]
  rw [hlimb 56 _ (by omega) hdvd.1, hlimb 56 _ (by omega) hdvd.1, hlimb 56 _ (by omega) hdvd.1,
    hlimb 56 _ (by omega) hdvd.1, hlimb 32 _ (by omega) hdvd.2, ← hs.value_eq, Scalar.value]
  push_cast
  ring

theorem length_scalarDigits (s : Scalar) (width : ℕ) :
    (scalarDigits width s).length = 4 * (56 / width) + 32 / width := by
  simp only [scalarDigits, List.length_append, length_limbDigits]
  ring

/-! ## Signed digits in base 16 -/

/-- One digit of `window4`: the carry out of a digit is 1 at most. -/
theorem window4_digit {d : ℤ} (hlow : 0 ≤ d) (hhigh : d ≤ 16) :
    let digit := d % 16 - d % 16 / 2 ^ 3 * 2 ^ 4
    (-8 ≤ digit ∧ digit ≤ 8) ∧ 0 ≤ d / 2 ^ 4 ∧ 0 ≤ d % 16 / 2 ^ 3 ∧
      d / 2 ^ 4 + d % 16 / 2 ^ 3 ≤ 1 ∧ digit + 16 * (d / 2 ^ 4 + d % 16 / 2 ^ 3) = d := by
  dsimp only
  omega

/-- The loop from a digit on: the digits are small and the number is kept. The last digit takes
a carry from the others and gives none. -/
theorem window4Loop_spec {d carry : ℤ} {rest : List ℤ} (hd : 0 ≤ d) (hcarry : 0 ≤ carry)
    (hsum : d + carry ≤ 16) (hrest : ∀ digit ∈ rest, 0 ≤ digit ∧ digit < 16) :
    (window4Loop d carry rest).length = rest.length + 1 ∧
      (∀ digit ∈ window4Loop d carry rest, -8 ≤ digit ∧ digit ≤ 16) ∧
      ((∀ digit ∈ ((d + carry - 1) :: rest).getLast?, digit ≤ 7) →
        ∀ digit ∈ window4Loop d carry rest, digit ≤ 8) ∧
      digitsValue 16 (window4Loop d carry rest) = d + carry + 16 * digitsValue 16 rest := by
  induction rest generalizing d carry with
  | nil =>
      rw [window4Loop, int8_eq (by omega) (by omega)]
      refine ⟨rfl, fun digit hdigit => ?_, fun hlast digit hdigit => ?_, by simp⟩
      · rw [List.mem_singleton.mp hdigit]
        omega
      · have htop : d + carry - 1 ≤ 7 := hlast _ rfl
        rw [List.mem_singleton.mp hdigit]
        omega
  | cons next rest ih =>
      obtain ⟨hnext, hothers⟩ := List.forall_mem_cons.mp hrest
      obtain ⟨hdigit, hquot, hcarry', hcarries, hvalue⟩ := window4_digit (add_nonneg hd hcarry) hsum
      rw [window4Loop]
      rw [int8_eq (x := d + carry) (by omega) (by omega), int8_eq (x := next + _) (by omega)
        (by omega), int8_eq (x := (d + carry) % 16 - _) (by omega) (by omega)]
      obtain ⟨hlength, hdigits, hsmall, hnumber⟩ := ih (d := next + (d + carry) / 2 ^ 4)
        (by omega) hcarry' (by omega) hothers
      refine ⟨by rw [List.length_cons, hlength, List.length_cons], ?_, fun hlast => ?_, ?_⟩
      · exact List.forall_mem_cons.mpr ⟨⟨hdigit.1, by omega⟩, hdigits⟩
      · have hrestLast : ∀ digit ∈ ((next + (d + carry) / 2 ^ 4 + (d + carry) % 16 / 2 ^ 3 - 1) ::
            rest).getLast?, digit ≤ 7 := by
          cases rest with
          | nil =>
              have htop := hlast next rfl
              intro digit hmem
              obtain rfl : next + (d + carry) / 2 ^ 4 + (d + carry) % 16 / 2 ^ 3 - 1 = digit := by
                simpa using hmem
              omega
          | cons other rest =>
              intro digit hmem
              refine hlast digit ?_
              simpa using hmem
        exact List.forall_mem_cons.mpr ⟨hdigit.2, hsmall hrestLast⟩
      · rw [digitsValue_cons, hnumber, digitsValue_cons]
        linarith

/-- The last digit of a scalar below `2 ^ 255`. -/
theorem getLast_scalarDigits (hs : s.Canonical n) (hn : n < 2 ^ 255) :
    ∀ digit ∈ (scalarDigits 4 s).getLast?, digit ≤ 7 := by
  have htop : s.l4.toNat < 2 ^ 31 := by
    have hvalue := hs.value_eq
    unfold Scalar.value at hvalue
    omega
  have hsplit : scalarDigits 4 s = (limbDigits 4 14 s.l0 ++ limbDigits 4 14 s.l1 ++
      limbDigits 4 14 s.l2 ++ limbDigits 4 14 s.l3 ++ limbDigits 4 7 s.l4) ++
      [((s.l4.toNat >>> 28 % 2 ^ 4 : ℕ) : ℤ)] := by
    rw [List.append_assoc _ (limbDigits 4 7 s.l4)]
    rfl
  rw [hsplit, List.getLast?_append]
  intro digit hmem
  obtain rfl : ((s.l4.toNat >>> 28 % 2 ^ 4 : ℕ) : ℤ) = digit := by simpa using hmem
  rw [Nat.shiftRight_eq_div_pow]
  omega

/-- `_ed25519_modm_window4` on any limbs: 64 digits, of which only the last may be above 8. -/
theorem window4_digits (s : Scalar) : (window4 s).length = 64 ∧
    (∀ digit ∈ window4 s, -8 ≤ digit ∧ digit ≤ 16) ∧
    ((∀ digit ∈ (scalarDigits 4 s).getLast?, digit ≤ 7) → ∀ digit ∈ window4 s, digit ≤ 8) ∧
    digitsValue 16 (window4 s) = digitsValue 16 (scalarDigits 4 s) := by
  have hlength := length_scalarDigits s 4
  have hdigits : ∀ digit ∈ scalarDigits 4 s, 0 ≤ digit ∧ digit < 16 :=
    fun digit h => mem_scalarDigits h
  unfold window4
  generalize scalarDigits 4 s = digits at *
  cases digits with
  | nil => cases hlength
  | cons digit digits =>
      obtain ⟨hdigit, hothers⟩ := List.forall_mem_cons.mp hdigits
      obtain ⟨hsize, hbounds, hsmall, hnumber⟩ :=
        window4Loop_spec hdigit.1 le_rfl (by omega) hothers
      refine ⟨hsize.trans hlength, hbounds, fun hlast => hsmall fun other hmem => ?_, ?_⟩
      · cases digits with
        | nil => cases hlength
        | cons next digits => exact hlast other (by simpa using hmem)
      · refine hnumber.trans ?_
        rw [digitsValue_cons, add_zero]

/-- `_ed25519_modm_window4` writes 64 digits from -8 to 8 with the value of the scalar. -/
theorem window4_spec (hs : s.Canonical n) (hn : n < 2 ^ 255) : (window4 s).length = 64 ∧
    (∀ digit ∈ window4 s, -8 ≤ digit ∧ digit ≤ 8) ∧ digitsValue 16 (window4 s) = n := by
  obtain ⟨hlength, hbounds, hsmall, hvalue⟩ := window4_digits s
  exact ⟨hlength, fun digit hmem => ⟨(hbounds digit hmem).1,
    hsmall (getLast_scalarDigits hs hn) digit hmem⟩,
    hvalue.trans (digitsValue_scalarDigits hs 4 (.inr rfl))⟩

/-! ## Sliding windows -/

/-- A digit of a sliding window. -/
def WindowDigit (m d : ℤ) : Prop := d % 2 = 1 ∧ -m ≤ d ∧ d ≤ m

/-- Rippling adds one to a number in bits, if there is room. -/
theorem ripple_spec {digits : List ℤ} (hbits : Bits digits)
    (hroom : digitsValue 2 digits + 1 < 2 ^ digits.length) :
    Bits (ripple digits) ∧ (ripple digits).length = digits.length ∧
      digitsValue 2 (ripple digits) = digitsValue 2 digits + 1 := by
  induction digits with
  | nil => simp at hroom
  | cons digit digits ih =>
      obtain ⟨hdigit, hdigits⟩ := hbits.cons
      rw [ripple]
      rcases hdigit with rfl | rfl
      · rw [if_pos rfl]
        refine ⟨bits_cons (.inr rfl) hdigits, rfl, ?_⟩
        rw [digitsValue_cons, digitsValue_cons]
        ring
      · rw [digitsValue_cons, List.length_cons, pow_succ] at hroom
        obtain ⟨hbits', hlength, hvalue⟩ := ih hdigits (by omega)
        rw [if_neg one_ne_zero]
        refine ⟨bits_cons (.inl rfl) hbits', by rw [List.length_cons, hlength, List.length_cons],
          ?_⟩
        rw [digitsValue_cons, digitsValue_cons, hvalue]
        ring

/-- There is room for three more bits. -/
def Room (digits : List ℤ) : Prop := 8 * digitsValue 2 digits ≤ 2 ^ digits.length

/-- What the loop over `b` keeps: the bits from place `b` on, with a positive digit before
them, leave room for three more. -/
def RoomAfter (b : ℕ) (d : ℤ) (rest : List ℤ) : Prop :=
  8 * (max d 0 + 2 ^ b * digitsValue 2 rest) ≤ 2 ^ (b + rest.length)

theorem RoomAfter.room {b : ℕ} {d : ℤ} {rest : List ℤ} (h : RoomAfter b d rest) : Room rest := by
  have hpos : (0 : ℤ) < 2 ^ b := by positivity
  unfold RoomAfter at h
  rw [pow_add] at h
  have hmax := le_max_right d 0
  unfold Room
  nlinarith

/-- What the loop over `b` leaves. -/
structure Merged (m : ℤ) (b : ℕ) (d : ℤ) (rest : List ℤ) (r : ℤ × List ℤ) : Prop where
  digit : WindowDigit m r.1
  bits : Bits r.2
  length_eq : r.2.length = rest.length
  value_eq : r.1 + 2 ^ b * digitsValue 2 r.2 = d + 2 ^ b * digitsValue 2 rest
  room : Room r.2

/-- A step of the loop that leaves a zero behind. -/
theorem Merged.cons_zero {m d d' e : ℤ} {b : ℕ} {rest rest' : List ℤ} {r : ℤ × List ℤ}
    (h : Merged m (b + 1) d' rest' r) (hlength : rest'.length = rest.length)
    (hvalue : d' + 2 ^ (b + 1) * digitsValue 2 rest' = d + 2 ^ b * digitsValue 2 (e :: rest))
    (hroom : Room r.2) : Merged m b d (e :: rest) (r.1, 0 :: r.2) := by
  refine ⟨h.digit, bits_cons (.inl rfl) h.bits, ?_, ?_, ?_⟩
  · rw [List.length_cons, List.length_cons, h.length_eq, hlength]
  · have hkept := h.value_eq
    rw [digitsValue_cons, ← hvalue, ← hkept, pow_succ]
    ring
  · unfold Room at hroom ⊢
    rw [digitsValue_cons, List.length_cons, pow_succ]
    linarith

/-- Stopping the loop. -/
theorem Merged.refl {m d : ℤ} {b : ℕ} {rest : List ℤ} (hd : WindowDigit m d) (hbits : Bits rest)
    (hroom : RoomAfter b d rest) : Merged m b d rest (d, rest) :=
  ⟨hd, hbits, rfl, rfl, hroom.room⟩

/-- Merging a bit by addition keeps the room. -/
theorem RoomAfter.add {b : ℕ} {d e : ℤ} {rest : List ℤ} (h : RoomAfter b d (e :: rest))
    (he : e = 0 ∨ e = 1) : RoomAfter (b + 1) (d + e * 2 ^ b) rest := by
  have hpos : (0 : ℤ) < 2 ^ b := by positivity
  unfold RoomAfter at h ⊢
  rw [digitsValue_cons, List.length_cons] at h
  rw [show b + 1 + rest.length = b + (rest.length + 1) by omega, pow_succ]
  have hmax : max (d + e * 2 ^ b) 0 ≤ max d 0 + 2 ^ b * e := by
    rcases he with rfl | rfl
    · simp
    · have := le_max_left d 0
      have := le_max_right d 0
      refine max_le ?_ ?_ <;> linarith
  have hsplit : 2 ^ b * (e + 2 * digitsValue 2 rest) =
      2 ^ b * e + 2 ^ b * 2 * digitsValue 2 rest := by ring
  linarith

/-- A bit that is merged by subtraction after a positive digit leaves room for the carry. -/
theorem RoomAfter.carry {b : ℕ} {d : ℤ} {rest : List ℤ} (h : RoomAfter b d (1 :: rest))
    (hbits : Bits rest) (hd : 0 < d) : 8 * (digitsValue 2 rest + 1) ≤ 2 ^ rest.length := by
  have hpos : (0 : ℤ) < 2 ^ b := by positivity
  unfold RoomAfter at h
  rw [digitsValue_cons, List.length_cons, show b + (rest.length + 1) = b + 1 + rest.length by omega,
    pow_add, pow_succ, max_eq_left hd.le] at h
  have hstrict : 4 + 8 * digitsValue 2 rest < 2 ^ rest.length := by
    by_contra hle
    have hmul := mul_le_mul_of_nonneg_left (not_lt.mp hle) (show (0 : ℤ) ≤ 2 ^ b * 2 by positivity)
    linarith
  have hnonneg := hbits.value_nonneg
  -- the bound is a power of two above 4, so it is a multiple of 8
  rcases hlength : rest.length with _ | _ | _ | k
  · rw [hlength] at hstrict
    omega
  · rw [hlength] at hstrict
    omega
  · rw [hlength] at hstrict
    omega
  · rw [hlength, pow_succ, pow_succ, pow_succ] at hstrict
    rw [pow_succ, pow_succ, pow_succ]
    omega

/-- Merging a bit by subtraction keeps the room. -/
theorem RoomAfter.sub {b : ℕ} {d : ℤ} {rest rest' : List ℤ} (h : RoomAfter b d (1 :: rest))
    (hbits : Bits rest) (hd : 0 < d) (hlength : rest'.length = rest.length)
    (hvalue : digitsValue 2 rest' = digitsValue 2 rest + 1) :
    RoomAfter (b + 1) (d - 2 ^ b) rest' := by
  have hcarry := h.carry hbits hd
  have hpos : (0 : ℤ) < 2 ^ b := by positivity
  unfold RoomAfter at h ⊢
  rw [digitsValue_cons, List.length_cons, max_eq_left hd.le] at h
  rw [hlength, hvalue]
  rcases le_total (d - 2 ^ b) 0 with hneg | hneg
  · rw [max_eq_right hneg, zero_add, pow_add 2 (b + 1)]
    have hmul := mul_le_mul_of_nonneg_left hcarry (show (0 : ℤ) ≤ 2 ^ (b + 1) by positivity)
    linarith
  · rw [max_eq_left hneg, show b + 1 + rest.length = b + (rest.length + 1) by omega, pow_succ]
    have hsplit : 2 ^ b * (1 + 2 * digitsValue 2 rest) =
        2 ^ b + 2 ^ b * 2 * digitsValue 2 rest := by ring
    linarith

/-- The loop over `b` in `ed25519_modm_window`. -/
theorem windowMerge_spec {m : ℤ} (hm : m ≤ 127) (n b : ℕ) (hb : 1 ≤ b) {d : ℤ} {rest : List ℤ}
    (hd : WindowDigit m d) (hbits : Bits rest) (hroom : RoomAfter b d rest) :
    Merged m b d rest (windowMerge m n b d rest) := by
  induction n generalizing b d rest with
  | zero => exact .refl hd hbits hroom
  | succ n ih =>
      cases rest with
      | nil => exact .refl hd hbits hroom
      | cons e rest =>
          obtain ⟨he, hrest⟩ := hbits.cons
          obtain ⟨hodd, hlow, hhigh⟩ := hd
          obtain ⟨q, hq, hqpos⟩ : ∃ q : ℤ, (2 : ℤ) ^ b = 2 * q ∧ 0 < q :=
            ⟨2 ^ (b - 1), by rw [← pow_succ', Nat.sub_add_cancel hb], by positivity⟩
          rw [windowMerge]
          dsimp only
          split
          next hadd =>
            have hdigit : WindowDigit m (d + e * 2 ^ b) := by
              rw [hq] at hadd ⊢
              refine ⟨?_, ?_, hadd⟩ <;> rcases he with rfl | rfl <;> omega
            rw [int8_eq (by linarith [hdigit.2.1]) (by linarith)]
            have hmerged := ih (b + 1) (by omega) hdigit hrest (hroom.add he)
            refine hmerged.cons_zero rfl ?_ hmerged.room
            rw [digitsValue_cons, pow_succ]
            ring
          next hadd =>
            obtain rfl : e = 1 := by
              rcases he with rfl | rfl
              · exact absurd (by linarith) hadd
              · rfl
            rw [one_mul] at hadd
            split
            next hsub =>
              -- a negative digit cannot be too large and too small at once
              have hpositive : 0 < d := by
                rw [hq] at hadd hsub
                omega
              have hcarry := hroom.carry hrest hpositive
              have hnonneg := hrest.value_nonneg
              obtain ⟨hbits', hlength, hvalue⟩ := ripple_spec hrest (by linarith)
              have hdigit : WindowDigit m (d - 1 * 2 ^ b) := by
                rw [hq] at hadd hsub ⊢
                refine ⟨?_, hsub, ?_⟩ <;> omega
              rw [int8_eq (by linarith) (by linarith [hdigit.2.2])]
              have hmerged := ih (b + 1) (by omega) hdigit hbits'
                (by rw [one_mul]; exact hroom.sub hrest hpositive hlength hvalue)
              refine hmerged.cons_zero hlength ?_ hmerged.room
              rw [hvalue, digitsValue_cons, pow_succ]
              ring
            next hsub =>
              rw [if_pos one_ne_zero]
              exact .refl ⟨hodd, hlow, hhigh⟩ hbits hroom

/-- A digit of the result of `ed25519_modm_window`. -/
def WindowDigitOrZero (m d : ℤ) : Prop := d = 0 ∨ WindowDigit m d

/-- The loop over `j` in `ed25519_modm_window`. -/
theorem windowLoop_spec {m : ℤ} (hm : 1 ≤ m) (hm' : m ≤ 127) (n : ℕ) {digits : List ℤ}
    (hlength : digits.length = n) (hbits : Bits digits) (hroom : Room digits) :
    (windowLoop m n digits).length = n ∧
      (∀ digit ∈ windowLoop m n digits, WindowDigitOrZero m digit) ∧
      digitsValue 2 (windowLoop m n digits) = digitsValue 2 digits := by
  induction n generalizing digits with
  | zero =>
      obtain rfl := List.length_eq_zero_iff.mp hlength
      simp [windowLoop]
  | succ n ih =>
      cases digits with
      | nil => cases hlength
      | cons d rest =>
          obtain ⟨hd, hrest⟩ := hbits.cons
          have hlength' : rest.length = n := Nat.succ.inj hlength
          rw [windowLoop]
          rcases hd with rfl | rfl
          · have hroom' : Room rest := by
              unfold Room at hroom ⊢
              rw [digitsValue_cons, List.length_cons, pow_succ] at hroom
              linarith
            obtain ⟨hsize, hdigits, hvalue⟩ := ih hlength' hrest hroom'
            rw [if_pos rfl]
            refine ⟨by rw [List.length_cons, hsize], ?_,
              by rw [digitsValue_cons, hvalue, digitsValue_cons]⟩
            exact List.forall_mem_cons.mpr ⟨.inl rfl, hdigits⟩
          · have hafter : RoomAfter 1 1 rest := by
              unfold Room at hroom
              unfold RoomAfter
              rw [digitsValue_cons, List.length_cons] at hroom
              rw [Nat.add_comm 1]
              simpa using hroom
            have hmerged := windowMerge_spec hm' ((if n + 1 > 7 then 7 else n + 1) - 1) 1 le_rfl
              (d := 1) ⟨by decide, by omega, hm⟩ hrest hafter
            rw [if_neg one_ne_zero]
            dsimp only
            generalize windowMerge m _ 1 1 rest = r at hmerged
            obtain ⟨hsize, hdigits, hvalue⟩ := ih (hmerged.length_eq.trans hlength') hmerged.bits
              hmerged.room
            have hkept := hmerged.value_eq
            refine ⟨by rw [List.length_cons, hsize], ?_, ?_⟩
            · exact List.forall_mem_cons.mpr ⟨.inr hmerged.digit, hdigits⟩
            · rw [digitsValue_cons, digitsValue_cons, hvalue]
              linarith

/-- `ed25519_modm_window` on a scalar below `2 ^ 253`: 256 odd digits or zeros of bounded
size, with the value of the scalar. -/
theorem window_spec (hs : s.Canonical n) (hn : n < 2 ^ 253) {m : ℤ} (hm : 1 ≤ m) (hm' : m ≤ 127) :
    (window s m).length = 256 ∧ (∀ digit ∈ window s m, WindowDigitOrZero m digit) ∧
      digitsValue 2 (window s m) = n := by
  have hvalue := digitsValue_scalarDigits hs 1 (.inl rfl)
  have hlength := length_scalarDigits s 1
  have hbits : Bits (scalarDigits 1 s) := by
    intro digit hmem
    have := mem_scalarDigits hmem
    omega
  have hroom : Room (scalarDigits 1 s) := by
    unfold Room
    have hlt : (n : ℤ) < 2 ^ 253 := by exact_mod_cast hn
    rw [hlength, show 4 * (56 / 1) + 32 / 1 = 3 + 253 from rfl, pow_add]
    rw [show (2 : ℤ) = (2 ^ 1 : ℕ) from rfl, hvalue]
    exact mul_le_mul_of_nonneg_left hlt.le (by norm_num)
  obtain ⟨hsize, hdigits, hnumber⟩ := windowLoop_spec hm hm' 256 hlength hbits hroom
  exact ⟨hsize, hdigits, hnumber.trans hvalue⟩

end Hc.Ed25519
