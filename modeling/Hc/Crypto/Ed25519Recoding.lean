import Hc.Crypto.Ed25519Multiples
import Hc.Crypto.Ed25519Window
import Hc.Foundation.Trace

/-!
# The digits in base 16 select table entries

Every number that `_ed25519_modm_window4` assigns to an `int8_t` is an event here, as it is before
the assignment. None of them needs more than eight bits.
-/

namespace Hc.Ed25519

/-- An assignment to an `int8_t`. -/
def storeInt8 (x : ℤ) : Traced ℤ ℤ := .record x (int8 x)

/-- The loops that write the digits of the limbs. -/
def Stores.digits : List ℤ → Traced ℤ (List ℤ)
  | [] => return []
  | d :: rest => do
    let d ← storeInt8 d
    let rest ← Stores.digits rest
    return d :: rest

/-- `window4Loop`, with its assignments. -/
def Stores.window4Loop : ℤ → ℤ → List ℤ → Traced ℤ (List ℤ)
  | d, carry, [] => do
    let d ← storeInt8 (d + carry)
    return [d]
  | d, carry, next :: rest => do
    let d ← storeInt8 (d + carry)
    let next ← storeInt8 (next + d / 2 ^ 4)
    let d ← storeInt8 (d % 16)
    let carry ← storeInt8 (d / 2 ^ 3)
    let d ← storeInt8 (d - carry * 2 ^ 4)
    let rest ← Stores.window4Loop next carry rest
    return d :: rest

/-- `_ed25519_modm_window4`, with its assignments. -/
def Stores.window4 (s : Scalar) : Traced ℤ (List ℤ) := do
  let r ← Stores.digits (scalarDigits 4 s)
  Stores.window4Loop (r.headD 0) 0 r.tail

/-- The numbers of an `int8_t`. -/
def IsInt8 (x : ℤ) : Prop := -128 ≤ x ∧ x < 128

theorem storeInt8_ensures {x : ℤ} (h : IsInt8 x) : (storeInt8 x).Ensures IsInt8 (· = x) :=
  .record h (int8_eq h.1 h.2)

/-- An assignment that does not wrap, and what follows it. -/
theorem storeInt8_bind {α : Type} {x : ℤ} {f : ℤ → Traced ℤ α} {post : α → Prop} (h : IsInt8 x)
    (hf : (f x).Ensures IsInt8 post) : (storeInt8 x >>= f).Ensures IsInt8 post :=
  (storeInt8_ensures h).bind fun _ hx => hx ▸ hf

theorem Stores.digits_ensures {digits : List ℤ} (h : ∀ digit ∈ digits, IsInt8 digit) :
    (Stores.digits digits).Ensures IsInt8 (· = digits) := by
  induction digits with
  | nil => exact .pure rfl
  | cons digit digits ih =>
      obtain ⟨hdigit, hdigits⟩ := List.forall_mem_cons.mp h
      refine storeInt8_bind hdigit ?_
      refine (ih hdigits).bind fun rest hrest => ?_
      exact .pure (by rw [hrest])

/-- No assignment of the loop wraps, from a digit on that takes a carry. -/
theorem Stores.window4Loop_ensures {d carry : ℤ} {rest : List ℤ} (hd : 0 ≤ d) (hcarry : 0 ≤ carry)
    (hsum : d + carry ≤ 16) (hrest : ∀ digit ∈ rest, 0 ≤ digit ∧ digit < 16) :
    (Stores.window4Loop d carry rest).Ensures IsInt8 (· = Ed25519.window4Loop d carry rest) := by
  induction rest generalizing d carry with
  | nil =>
      have hfits : IsInt8 (d + carry) := ⟨by omega, by omega⟩
      refine storeInt8_bind hfits (.pure ?_)
      rw [Ed25519.window4Loop, int8_eq hfits.1 hfits.2]
  | cons next rest ih =>
      obtain ⟨hnext, hothers⟩ := List.forall_mem_cons.mp hrest
      obtain ⟨hdigit, hquot, hcarry', hcarries, -⟩ := window4_digit (add_nonneg hd hcarry) hsum
      have hx : IsInt8 (d + carry) := ⟨by omega, by omega⟩
      have hnext' : IsInt8 (next + (d + carry) / 2 ^ 4) := ⟨by omega, by omega⟩
      have hlow : IsInt8 ((d + carry) % 16) := ⟨by omega, by omega⟩
      have hcarry'' : IsInt8 ((d + carry) % 16 / 2 ^ 3) := ⟨by omega, by omega⟩
      have hsigned : IsInt8 ((d + carry) % 16 - (d + carry) % 16 / 2 ^ 3 * 2 ^ 4) :=
        ⟨by omega, by omega⟩
      refine storeInt8_bind hx ?_
      refine storeInt8_bind hnext' ?_
      refine storeInt8_bind hlow ?_
      refine storeInt8_bind hcarry'' ?_
      refine storeInt8_bind hsigned ?_
      refine (ih (by omega) hcarry' (by omega) hothers).bind fun digits hdigits => .pure ?_
      rw [hdigits, Ed25519.window4Loop]
      simp only [int8_eq hx.1 hx.2, int8_eq hnext'.1 hnext'.2, int8_eq hsigned.1 hsigned.2]

/-- No assignment of `_ed25519_modm_window4` wraps, whatever the limbs are. -/
theorem Stores.window4_ensures (s : Scalar) :
    (Stores.window4 s).Ensures IsInt8 (· = Ed25519.window4 s) := by
  have hlength := length_scalarDigits s 4
  have hdigits : ∀ digit ∈ scalarDigits 4 s, 0 ≤ digit ∧ digit < 16 :=
    fun digit h => mem_scalarDigits h
  unfold Stores.window4 Ed25519.window4
  generalize scalarDigits 4 s = digits at *
  have hfits : ∀ digit ∈ digits, IsInt8 digit := fun digit hmem => by
    have hdigit := hdigits digit hmem
    exact ⟨by omega, by omega⟩
  refine (Stores.digits_ensures hfits).bind fun r hr => ?_
  subst hr
  cases r with
  | nil => cases hlength
  | cons digit digits =>
      obtain ⟨hdigit, hothers⟩ := List.forall_mem_cons.mp hdigits
      have hsum : digit + 0 ≤ 16 := by omega
      exact Stores.window4Loop_ensures hdigit.1 le_rfl hsum hothers

/-- What the row of a digit has for an absolute value: the neutral element for 0. -/
def rowEntry (pos u : ℕ) : List (Word 64) :=
  if u = 0 then packedNeutral else baseEntry (8 * pos + (u - 1))

theorem selected_eight {pos u : ℕ} (hu : u ≤ 8) : selected pos u 8 = rowEntry pos u := by
  unfold selected rowEntry
  by_cases hzero : u = 0
  · rw [if_pos hzero, if_neg (by omega)]
  · rw [if_neg hzero, if_pos (by omega), Nat.shiftLeft_eq, Nat.mul_comm]

/-- The signed digits of a scalar in base 16, and what is done with each of them. -/
structure RecodesSigned (s : Scalar) (n : ℕ) : Prop where
  length_eq : (window4 s).length = 64
  value_eq : ∑ i ∈ Finset.range 64, (window4 s).getD i 0 * 16 ^ i = n
  stores : (Stores.window4 s).Ensures IsInt8 (· = window4 s)
  digit : ∀ d ∈ window4 s, -8 ≤ d ∧ d ≤ 8
  selects : ∀ d ∈ window4 s, ∀ pos < 32,
    scalarmultBaseChooseNiels pos d = (Niels.ofPacked (rowEntry pos d.natAbs)).withSign d ∧
      (scalarmultBaseChooseNiels pos d).InRow pos ((d * 256 ^ pos) • B)

/-- The digits of a scalar below `2 ^ 255` index the rows of the table, and the selection in
constant time takes the entry of the absolute value with the sign of the digit. -/
theorem window4_recodes {s : Scalar} {n : ℕ} (hs : s.Canonical n) (hn : n < 2 ^ 255) :
    RecodesSigned s n := by
  obtain ⟨hlength, hdigits, hvalue⟩ := window4_spec hs hn
  refine ⟨hlength, ?_, Stores.window4_ensures s, hdigits, fun d hmem pos hpos => ?_⟩
  · rw [← hvalue, digitsValue_eq_sum, hlength]
  · obtain ⟨hlow, hhigh⟩ := hdigits d hmem
    have hspec := scalarmultBaseChooseNiels_spec hpos hlow (by omega)
    rw [chosenDigit_of_le hhigh] at hspec
    rw [← selected_eight (by omega), ← scalarmultBaseChooseNiels_eq hpos hlow (by omega)]
    exact ⟨rfl, hspec⟩

theorem window4_recodes_order : RecodesSigned modm L := window4_recodes modm_canonical (by decide)

end Hc.Ed25519
