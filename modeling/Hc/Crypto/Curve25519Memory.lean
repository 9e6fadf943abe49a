import Hc.Crypto.Curve25519Field
import Hc.Foundation.Memory

/-!
# Products and powers in memory

`curve25519_mul` and `curve25519_squareN` load the limbs of their arguments into variables and
store the limbs of the result when all of the work is done. So `out` may be an argument, or
overlap one.

The addition chain of an inversion works in four local arrays, each used again and again. Its
`out` is only stored to by the last product.
-/

namespace Hc.Curve25519

/-- A memory of limbs. -/
abbrev Limbs := ℕ → Word 64

/-- `a[0]` to `a[4]`. -/
def feAt (mem : Limbs) (a : ℕ) : Fe := ⟨mem a, mem (a + 1), mem (a + 2), mem (a + 3), mem (a + 4)⟩

/-- `r0 = a[0]` and the loads of the other limbs. -/
def loadFe (a : ℕ) : StateM Limbs Fe := do
  let mem ← get
  return feAt mem a

/-- `out[i] = limb`. -/
def storeLimb (out i : ℕ) (limb : Word 64) : StateM Limbs Unit :=
  modify fun mem => Function.update mem (out + i) limb

/-- `out[0] = r0` and the stores of the other limbs. -/
def storeFe (out : ℕ) (r : Fe) : StateM Limbs Unit := do
  storeLimb out 0 r.l0
  storeLimb out 1 r.l1
  storeLimb out 2 r.l2
  storeLimb out 3 r.l3
  storeLimb out 4 r.l4

/-- `curve25519_mul` on pointers. -/
def mulAt (out a b : ℕ) : StateM Limbs Unit := do
  let r ← loadFe b
  let s ← loadFe a
  storeFe out (mul s r)

/-- `curve25519_squareN` on pointers. -/
def squareNAt (out a n : ℕ) : StateM Limbs Unit := do
  let r ← loadFe a
  storeFe out (squareN r n)

/-- The memory that a function leaves. -/
def after (f : StateM Limbs Unit) (mem : Limbs) : Limbs := (f mem).2

theorem after_storeFe (mem : Limbs) (out : ℕ) (r : Fe) :
    after (storeFe out r) mem = Memory.write mem out [r.l0, r.l1, r.l2, r.l3, r.l4] := rfl

theorem feAt_write (mem : Limbs) (out : ℕ) (r : Fe) :
    feAt (Memory.write mem out [r.l0, r.l1, r.l2, r.l3, r.l4]) out = r := by
  have hread : Memory.read (Memory.write mem out [r.l0, r.l1, r.l2, r.l3, r.l4]) out 5 =
      [r.l0, r.l1, r.l2, r.l3, r.l4] := Memory.read_write_self out _
  generalize Memory.write mem out [r.l0, r.l1, r.l2, r.l3, r.l4] = stored at hread ⊢
  obtain ⟨r0, r1, r2, r3, r4⟩ := r
  simpa [Memory.read, feAt] using hread

/-- The limbs of the array at `out`. -/
def limbsAt (out : ℕ) : Set ℕ := Set.Ico out (out + 5)

theorem after_storeFe_of_notMem (mem : Limbs) {out i : ℕ} (r : Fe) (hi : i ∉ limbsAt out) :
    after (storeFe out r) mem i = mem i := by
  rw [after_storeFe]
  rcases Nat.lt_or_ge i out with hlt | hge
  · exact Memory.write_of_lt _ hlt
  · exact Memory.write_of_ge (Nat.le_of_not_lt fun hlt => hi ⟨hge, hlt⟩)

/-- A function left the limbs `r` of a product `x` at `out`, and the rest of the memory alone. -/
structure Leaves (f : StateM Limbs Unit) (mem : Limbs) (out : ℕ) (r : Fe) (x : F) : Prop where
  result_eq : feAt (after f mem) out = r
  carried : r.Carried x
  unchanged : ∀ i, i < out ∨ out + 5 ≤ i → after f mem i = mem i

/-- Both arguments are loaded before the first store, whatever is computed of them. -/
theorem after_load_store (f : Fe → Fe → Fe) (mem : Limbs) (out a b : ℕ) :
    after (do let r ← loadFe b; let s ← loadFe a; storeFe out (f s r)) mem =
      after (storeFe out (f (feAt mem a) (feAt mem b))) mem := rfl

theorem after_mulAt (mem : Limbs) (out a b : ℕ) : after (mulAt out a b) mem =
    after (storeFe out (mul (feAt mem a) (feAt mem b))) mem :=
  after_load_store mul mem out a b

theorem after_squareNAt (mem : Limbs) (out a n : ℕ) : after (squareNAt out a n) mem =
    after (storeFe out (squareN (feAt mem a) n)) mem :=
  after_load_store (fun s _ => squareN s n) mem out a a

theorem leaves_of_store {f : StateM Limbs Unit} {mem : Limbs} {out : ℕ} {r : Fe} {x : F}
    (h : after f mem = after (storeFe out r) mem) (hr : r.Carried x) : Leaves f mem out r x := by
  refine ⟨?_, hr, fun i hi => ?_⟩
  · rw [h, after_storeFe, feAt_write]
  · rw [h]
    exact after_storeFe_of_notMem mem r fun ⟨hle, hlt⟩ => by omega

/-- A memory with small limbs. -/
theorem bounded_seven : (feAt (fun _ => 7) 0).Bounded (2 ^ 54 - 1) :=
  ⟨⟨rfl, rfl, by decide⟩, ⟨rfl, rfl, by decide⟩, ⟨rfl, rfl, by decide⟩, ⟨rfl, rfl, by decide⟩,
    ⟨rfl, rfl, by decide⟩⟩

/-- The products of limbs below `2 ^ 54`, wherever the three places are. -/
theorem product_leaves {mem : Limbs} {a b : ℕ} (out : ℕ) {n : ℕ}
    (ha : (feAt mem a).Bounded (2 ^ 54 - 1)) (hb : (feAt mem b).Bounded (2 ^ 54 - 1))
    (hn : 1 ≤ n) :
    Leaves (mulAt out a b) mem out (mul (feAt mem a) (feAt mem b))
        ((feAt mem a).value * (feAt mem b).value) ∧
      Leaves (squareNAt out a n) mem out (squareN (feAt mem a) n)
        ((feAt mem a).value ^ 2 ^ n) := by
  have hra : (feAt mem a).Rep (2 ^ 54) ((feAt mem a).value : F) := ⟨ha.mono (by decide), rfl⟩
  have hrb : (feAt mem b).Rep (2 ^ 54) ((feAt mem b).value : F) := ⟨hb.mono (by decide), rfl⟩
  obtain ⟨n, rfl⟩ : ∃ k, n = k + 1 := ⟨n - 1, by omega⟩
  exact ⟨leaves_of_store (after_mulAt mem out a b) (mul_carried hra hrb),
    leaves_of_store (after_squareNAt mem out a (n + 1)) (squareN_succ_carried hra n)⟩

theorem product_leaves_in_place :
    Leaves (mulAt 0 0 0) (fun _ => 7) 0 (mul (feAt (fun _ => 7) 0) (feAt (fun _ => 7) 0))
        ((feAt (fun _ => 7) 0).value * (feAt (fun _ => 7) 0).value) ∧
      Leaves (squareNAt 0 0 3) (fun _ => 7) 0 (squareN (feAt (fun _ => 7) 0) 3)
        ((feAt (fun _ => 7) 0).value ^ 2 ^ 3) := by
  exact product_leaves 0 bounded_seven bounded_seven (by decide)

/-! ## The addition chain -/

/-- The arrays of an inversion: its argument, and the local ones. -/
inductive Slot where
  | z | a | b | t0 | c
  deriving DecidableEq

/-- Where the arrays are. A local array has storage of its own. -/
structure Layout where
  place : Slot → ℕ
  apart : ∀ x y, x ≠ y → place x + 5 ≤ place y ∨ place y + 5 ≤ place x

/-- The local arrays behind the argument, one after the other. -/
def Layout.behind (z : ℕ) : Layout where
  place
    | .z => z
    | .a => z + 5
    | .b => z + 10
    | .t0 => z + 15
    | .c => z + 20
  apart x y hne := by
    cases x <;> cases y <;> first | exact absurd rfl hne | (dsimp only; omega)

/-- `_curve25519_pow11PowTwo250mtwo0` on pointers, with the local arrays `t0` and `c`. -/
def pow11PowTwo250mtwo0At (a b z t0 c : ℕ) : StateM Limbs Unit := do
  squareNAt a z 1
  squareNAt t0 a 2
  mulAt b t0 z
  mulAt a b a
  squareNAt t0 a 1
  mulAt b t0 b
  squareNAt t0 b 5
  mulAt b t0 b
  squareNAt t0 b 10
  mulAt c t0 b
  squareNAt t0 c 20
  mulAt t0 t0 c
  squareNAt t0 t0 10
  mulAt b t0 b
  squareNAt t0 b 50
  mulAt c t0 b
  squareNAt t0 c 100
  mulAt t0 t0 c
  squareNAt t0 t0 50
  mulAt b t0 b

/-- The call that `curve25519_invert` and `curve25519_powTwo252m3` start with. -/
def Layout.pow11PowTwo250mtwo0 (layout : Layout) : StateM Limbs Unit :=
  pow11PowTwo250mtwo0At (layout.place .a) (layout.place .b) (layout.place .z) (layout.place .t0)
    (layout.place .c)

/-- `curve25519_invert` on pointers, with the local arrays `a` and `b`. -/
def invertAt (layout : Layout) (out : ℕ) : StateM Limbs Unit := do
  layout.pow11PowTwo250mtwo0
  squareNAt (layout.place .b) (layout.place .b) 5
  mulAt out (layout.place .b) (layout.place .a)

/-- `curve25519_powTwo252m3` on pointers, with the local arrays `a` and `b`. -/
def powTwo252m3At (layout : Layout) (out : ℕ) : StateM Limbs Unit := do
  layout.pow11PowTwo250mtwo0
  squareNAt (layout.place .b) (layout.place .b) 2
  mulAt out (layout.place .b) (layout.place .z)

/-! ### What the arrays hold -/

variable {layout : Layout} {mem : Limbs}

/-- The limbs of each array. -/
def Layout.slots (layout : Layout) (mem : Limbs) (x : Slot) : Fe := feAt mem (layout.place x)

-- `unfold` keeps `simp` from taking this as an equation that holds by definition: the kernel would
-- then run the whole chain to see that both sides agree.
theorem after_seq (f g : StateM Limbs Unit) (mem : Limbs) :
    after (do f; g) mem = after g (after f mem) := by
  unfold after
  rfl

theorem feAt_congr {other : Limbs} {a : ℕ} (h : ∀ i, a ≤ i → i < a + 5 → mem i = other i) :
    feAt mem a = feAt other a := by
  unfold feAt
  rw [h a (by omega) (by omega), h (a + 1) (by omega) (by omega), h (a + 2) (by omega) (by omega),
    h (a + 3) (by omega) (by omega), h (a + 4) (by omega) (by omega)]

theorem Layout.slots_after_storeFe (layout : Layout) (mem : Limbs) (x : Slot) (r : Fe) :
    layout.slots (after (storeFe (layout.place x) r) mem) =
      Function.update (layout.slots mem) x r := by
  funext y
  by_cases hyx : y = x
  · subst hyx
    rw [Function.update_self]
    exact feAt_write mem _ r
  · rw [Function.update_of_ne hyx, after_storeFe]
    refine feAt_congr fun i hle hlt => ?_
    rcases layout.apart y x hyx with hbefore | hbehind
    · exact Memory.write_of_lt _ (by omega)
    · exact Memory.write_of_ge (by simp only [List.length_cons, List.length_nil]; omega)

theorem Layout.slots_after_mulAt (layout : Layout) (mem : Limbs) (o x y : Slot) :
    layout.slots (after (mulAt (layout.place o) (layout.place x) (layout.place y)) mem) =
      Function.update (layout.slots mem) o (mul (layout.slots mem x) (layout.slots mem y)) := by
  rw [after_mulAt, layout.slots_after_storeFe]
  rfl

theorem Layout.slots_after_squareNAt (layout : Layout) (mem : Limbs) (o x : Slot) (n : ℕ) :
    layout.slots (after (squareNAt (layout.place o) (layout.place x) n) mem) =
      Function.update (layout.slots mem) o (squareN (layout.slots mem x) n) := by
  rw [after_squareNAt, layout.slots_after_storeFe]
  rfl

/-- The chain in memory is the chain on values, and leaves its argument. -/
theorem Layout.slots_after_pow11PowTwo250mtwo0 (layout : Layout) (mem : Limbs) :
    layout.slots (after layout.pow11PowTwo250mtwo0 mem) .z = layout.slots mem .z ∧
      (layout.slots (after layout.pow11PowTwo250mtwo0 mem) .a,
        layout.slots (after layout.pow11PowTwo250mtwo0 mem) .b) =
          Curve25519.pow11PowTwo250mtwo0 (layout.slots mem .z) := by
  unfold Layout.pow11PowTwo250mtwo0 pow11PowTwo250mtwo0At Curve25519.pow11PowTwo250mtwo0
  simp only [after_seq, layout.slots_after_mulAt, layout.slots_after_squareNAt,
    Function.update_apply, reduceCtorEq, if_false, if_true, and_self]

theorem Layout.feAt_after_mulAt (layout : Layout) (mem : Limbs) (out : ℕ) (x y : Slot) :
    feAt (after (mulAt out (layout.place x) (layout.place y)) mem) out =
      mul (layout.slots mem x) (layout.slots mem y) := by
  rw [after_mulAt, after_storeFe, feAt_write]
  rfl

/-- What is stored at `out` is a power of the limbs that `z` holds before the call, wherever `out`
is. -/
theorem feAt_after_invertAt (layout : Layout) (mem : Limbs) (out : ℕ) :
    feAt (after (invertAt layout out) mem) out = invert (layout.slots mem .z) := by
  obtain ⟨-, hab⟩ := layout.slots_after_pow11PowTwo250mtwo0 mem
  unfold invertAt invert
  rw [after_seq, after_seq, layout.feAt_after_mulAt, layout.slots_after_squareNAt,
    Function.update_self, Function.update_of_ne (by decide), ← hab]

theorem feAt_after_powTwo252m3At (layout : Layout) (mem : Limbs) (out : ℕ) :
    feAt (after (powTwo252m3At layout out) mem) out = powTwo252m3 (layout.slots mem .z) := by
  obtain ⟨hz, hab⟩ := layout.slots_after_pow11PowTwo250mtwo0 mem
  unfold powTwo252m3At powTwo252m3
  rw [after_seq, after_seq, layout.feAt_after_mulAt, layout.slots_after_squareNAt,
    Function.update_self, Function.update_of_ne (by decide), hz, ← hab]

/-! ### What the chain stores to -/

/-- The limbs of the local arrays. -/
def Layout.locals (layout : Layout) : Set ℕ := {i | ∃ x, x ≠ .z ∧ i ∈ limbsAt (layout.place x)}

theorem Layout.limbsAt_subset_locals (layout : Layout) {x : Slot} (hx : x ≠ .z) :
    limbsAt (layout.place x) ⊆ layout.locals := fun _ hi => ⟨x, hx, hi⟩

/-- A function stores to no limb but those of a region. -/
def StoresIn (region : Set ℕ) (f : StateM Limbs Unit) : Prop :=
  ∀ mem i, i ∉ region → after f mem i = mem i

theorem StoresIn.seq {region : Set ℕ} {f g : StateM Limbs Unit} (hf : StoresIn region f)
    (hg : StoresIn region g) : StoresIn region (do f; g) := by
  intro mem i hi
  rw [after_seq, hg _ i hi, hf _ i hi]

theorem StoresIn.mono {region large : Set ℕ} {f : StateM Limbs Unit} (hf : StoresIn region f)
    (hle : region ⊆ large) : StoresIn large f :=
  fun mem i hi => hf mem i fun hmem => hi (hle hmem)

theorem storesIn_mulAt (out a b : ℕ) : StoresIn (limbsAt out) (mulAt out a b) := by
  intro mem i hi
  rw [after_mulAt]
  exact after_storeFe_of_notMem mem _ hi

theorem storesIn_squareNAt (out a n : ℕ) : StoresIn (limbsAt out) (squareNAt out a n) := by
  intro mem i hi
  rw [after_squareNAt]
  exact after_storeFe_of_notMem mem _ hi

/-- The local arrays keep what is stored to them. -/
theorem Layout.storesIn_mulAt (layout : Layout) (o : Slot) (a b : ℕ)
    (ho : o ≠ .z := by decide) : StoresIn layout.locals (mulAt (layout.place o) a b) :=
  (Curve25519.storesIn_mulAt _ a b).mono (layout.limbsAt_subset_locals ho)

theorem Layout.storesIn_squareNAt (layout : Layout) (o : Slot) (a n : ℕ)
    (ho : o ≠ .z := by decide) : StoresIn layout.locals (squareNAt (layout.place o) a n) :=
  (Curve25519.storesIn_squareNAt _ a n).mono (layout.limbsAt_subset_locals ho)

theorem Layout.storesIn_pow11PowTwo250mtwo0 (layout : Layout) :
    StoresIn layout.locals layout.pow11PowTwo250mtwo0 := by
  refine (layout.storesIn_squareNAt .a _ _).seq ?_
  refine (layout.storesIn_squareNAt .t0 _ _).seq ?_
  refine (layout.storesIn_mulAt .b _ _).seq ?_
  refine (layout.storesIn_mulAt .a _ _).seq ?_
  refine (layout.storesIn_squareNAt .t0 _ _).seq ?_
  refine (layout.storesIn_mulAt .b _ _).seq ?_
  refine (layout.storesIn_squareNAt .t0 _ _).seq ?_
  refine (layout.storesIn_mulAt .b _ _).seq ?_
  refine (layout.storesIn_squareNAt .t0 _ _).seq ?_
  refine (layout.storesIn_mulAt .c _ _).seq ?_
  refine (layout.storesIn_squareNAt .t0 _ _).seq ?_
  refine (layout.storesIn_mulAt .t0 _ _).seq ?_
  refine (layout.storesIn_squareNAt .t0 _ _).seq ?_
  refine (layout.storesIn_mulAt .b _ _).seq ?_
  refine (layout.storesIn_squareNAt .t0 _ _).seq ?_
  refine (layout.storesIn_mulAt .c _ _).seq ?_
  refine (layout.storesIn_squareNAt .t0 _ _).seq ?_
  refine (layout.storesIn_mulAt .t0 _ _).seq ?_
  refine (layout.storesIn_squareNAt .t0 _ _).seq ?_
  exact layout.storesIn_mulAt .b _ _

/-- Both functions end in a squaring of `b` and a product. -/
theorem Layout.after_powers (layout : Layout) (mem : Limbs) {out i : ℕ} (n a : ℕ)
    (hout : i ∉ limbsAt out) (hlocals : i ∉ layout.locals) :
    after (do
      layout.pow11PowTwo250mtwo0
      squareNAt (layout.place .b) (layout.place .b) n
      mulAt out (layout.place .b) a) mem i = mem i := by
  rw [after_seq, after_seq, Curve25519.storesIn_mulAt out _ a _ i hout,
    layout.storesIn_squareNAt .b _ n (by decide) _ i hlocals,
    layout.storesIn_pow11PowTwo250mtwo0 _ i hlocals]

/-- A function left the limbs `r` of a power `x` at `out`. Of the rest of the memory it changed the
local arrays at most. -/
structure LeavesPower (layout : Layout) (f : StateM Limbs Unit) (mem : Limbs) (out : ℕ) (r : Fe)
    (x : F) : Prop where
  result_eq : feAt (after f mem) out = r
  carried : r.Carried x
  unchanged : ∀ i, i ∉ limbsAt out → i ∉ layout.locals → after f mem i = mem i

theorem invertAt_leavesPower {x : F} (out : ℕ) (hz : (layout.slots mem .z).Rep (2 ^ 54) x) :
    LeavesPower layout (invertAt layout out) mem out (invert (layout.slots mem .z))
      (x ^ (p - 2)) where
  result_eq := feAt_after_invertAt layout mem out
  carried := invert_carried hz
  unchanged _ hout hlocals := layout.after_powers mem 5 _ hout hlocals

theorem powTwo252m3At_leavesPower {x : F} (out : ℕ)
    (hz : (layout.slots mem .z).Rep (2 ^ 54) x) :
    LeavesPower layout (powTwo252m3At layout out) mem out (powTwo252m3 (layout.slots mem .z))
      (x ^ (2 ^ 252 - 3)) where
  result_eq := feAt_after_powTwo252m3At layout mem out
  carried := powTwo252m3_carried hz
  unchanged _ hout hlocals := layout.after_powers mem 2 _ hout hlocals

/-- Limbs below `2 ^ 54` are inverted, and raised to the power of a square root, wherever `out` is:
it may be `z`. The power is the inverse of what is not 0, and 0 is left as 0. -/
theorem powers_leave (layout : Layout) {mem : Limbs} (out : ℕ)
    (hz : (layout.slots mem .z).Bounded (2 ^ 54 - 1)) :
    let x : F := (layout.slots mem .z).value
    LeavesPower layout (invertAt layout out) mem out (invert (layout.slots mem .z))
        (x ^ (p - 2)) ∧
      (x ≠ 0 → x * x ^ (p - 2) = 1) ∧ (x = 0 → x ^ (p - 2) = 0) ∧
      LeavesPower layout (powTwo252m3At layout out) mem out (powTwo252m3 (layout.slots mem .z))
        (x ^ (2 ^ 252 - 3)) := by
  intro x
  have hrep : (layout.slots mem .z).Rep (2 ^ 54) x := ⟨hz.mono (by decide), rfl⟩
  refine ⟨invertAt_leavesPower out hrep, fun hx => ?_, fun hx => ?_,
    powTwo252m3At_leavesPower out hrep⟩
  · rw [← inv_eq_pow]
    exact mul_inv_cancel₀ hx
  · rw [← inv_eq_pow, hx, inv_zero]

theorem powers_leave_in_place :
    LeavesPower (Layout.behind 0) (invertAt (Layout.behind 0) 0) (fun _ => 7) 0
        (invert ((Layout.behind 0).slots (fun _ => 7) .z))
        (((Layout.behind 0).slots (fun _ => 7) .z).value ^ (p - 2)) ∧
      LeavesPower (Layout.behind 0) (powTwo252m3At (Layout.behind 0) 0) (fun _ => 7) 0
        (powTwo252m3 ((Layout.behind 0).slots (fun _ => 7) .z))
        (((Layout.behind 0).slots (fun _ => 7) .z).value ^ (2 ^ 252 - 3)) := by
  obtain ⟨hinvert, -, -, hpow⟩ := powers_leave (Layout.behind 0) 0 bounded_seven
  exact ⟨hinvert, hpow⟩

end Hc.Curve25519
