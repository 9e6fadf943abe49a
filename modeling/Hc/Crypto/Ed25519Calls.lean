import Hc.Crypto.Ed25519Ge
import Hc.Foundation.Trace

/-!
# The calls of the point operations

The point operations of `hc/core/hc/crypto/ed25519.c` and both scalar multiplications, with a
record of their calls of the shared code and of each other, in the order of the source.
-/

namespace Hc.Ed25519

open Curve25519

/-- A call of the shared code with its arguments, or of a point operation with its arguments and
its result. -/
inductive Call
  | mul (a b : Fe)
  | squareN (a : Fe) (n : ℕ)
  | subNoReduce (a b : Fe)
  | subNoReduceFourP (a b : Fe)
  | p1p1ToPartial (p : P1p1) (result : Ge)
  | p1p1ToFull (p : P1p1) (result : Ge)
  | fullToPniels (r : Ge) (result : Pniels)
  | doubleP1p1 (p : Ge) (result : P1p1)
  | nielsAddP1p1 (p : Ge) (q : Niels) (signbit : Bool) (result : P1p1)
  | pnielsAddP1p1 (p : Ge) (q : Pniels) (signbit : Bool) (result : P1p1)
  | nielsAdd (r : Ge) (q : Niels) (result : Ge)
  | pnielsAdd (p : Ge) (q : Pniels) (result : Pniels)

/-- A computation with its calls. -/
abbrev Calls := Traced Call

open Traced (record)

namespace Calls

/-! ## The shared code -/

def mul (a b : Fe) : Calls Fe := record (.mul a b) (Curve25519.mul a b)

def squareN (a : Fe) (n : ℕ) : Calls Fe := record (.squareN a n) (Curve25519.squareN a n)

def subNoReduce (a b : Fe) : Calls Fe := record (.subNoReduce a b) (Curve25519.subNoReduce a b)

def subNoReduceFourP (a b : Fe) : Calls Fe :=
  record (.subNoReduceFourP a b) (Curve25519.subNoReduceFourP a b)

/-! ## Point operations -/

def p1p1ToPartial (r : Ge) (p : P1p1) : Calls Ge := do
  let x ← mul p.x p.t
  let y ← mul p.y p.z
  let z ← mul p.z p.t
  let result := { r with x := x, y := y, z := z }
  record (.p1p1ToPartial p result) result

def p1p1ToFull (p : P1p1) : Calls Ge := do
  let x ← mul p.x p.t
  let y ← mul p.y p.z
  let z ← mul p.z p.t
  let t ← mul p.x p.y
  let result : Ge := ⟨x, y, z, t⟩
  record (.p1p1ToFull p result) result

def fullToPniels (r : Ge) : Calls Pniels := do
  let ysubx ← subNoReduce r.y r.x
  let t2d ← mul r.t ec2d
  let result : Pniels := ⟨ysubx, addNoReduce r.y r.x, r.z, t2d⟩
  record (.fullToPniels r result) result

def doubleP1p1 (p : Ge) : Calls P1p1 := do
  let a ← squareN p.x 1
  let b ← squareN p.y 1
  let c ← squareN p.z 1
  let c := add c c
  let rx ← squareN (addNoReduce p.x p.y) 1
  let ry := addNoReduce b a
  let rz ← subNoReduce b a
  let rx ← subNoReduceFourP rx ry
  let rt ← subNoReduceFourP c rz
  let result : P1p1 := ⟨rx, ry, rz, rt⟩
  record (.doubleP1p1 p result) result

def nielsAddP1p1 (p : Ge) (q : Niels) (signbit : Bool) : Calls P1p1 := do
  let a ← subNoReduce p.y p.x
  let b := addNoReduce p.y p.x
  let a ← mul a (if signbit then q.xaddy else q.ysubx)
  let rx ← mul b (if signbit then q.ysubx else q.xaddy)
  let ry := addNoReduce rx a
  let rx ← subNoReduce rx a
  let c ← mul p.t q.t2d
  let rt := add p.z p.z
  let sum := addNoReduce rt c
  let difference ← subNoReduce rt c
  let result : P1p1 := if signbit then ⟨rx, ry, difference, sum⟩ else ⟨rx, ry, sum, difference⟩
  record (.nielsAddP1p1 p q signbit result) result

def pnielsAddP1p1 (p : Ge) (q : Pniels) (signbit : Bool) : Calls P1p1 := do
  let a ← subNoReduce p.y p.x
  let b := addNoReduce p.y p.x
  let a ← mul a (if signbit then q.xaddy else q.ysubx)
  let rx ← mul b (if signbit then q.ysubx else q.xaddy)
  let ry := addNoReduce rx a
  let rx ← subNoReduce rx a
  let c ← mul p.t q.t2d
  let rt ← mul p.z q.z
  let rt := add rt rt
  let sum := addNoReduce rt c
  let difference ← subNoReduce rt c
  let result : P1p1 := if signbit then ⟨rx, ry, difference, sum⟩ else ⟨rx, ry, sum, difference⟩
  record (.pnielsAddP1p1 p q signbit result) result

def doublePartial (r p : Ge) : Calls Ge := do
  let t ← doubleP1p1 p
  p1p1ToPartial r t

def double (p : Ge) : Calls Ge := do
  let t ← doubleP1p1 p
  p1p1ToFull t

def nielsAdd (r : Ge) (q : Niels) : Calls Ge := do
  let a ← subNoReduce r.y r.x
  let b := addNoReduce r.y r.x
  let a ← mul a q.ysubx
  let e ← mul b q.xaddy
  let h := addNoReduce e a
  let e ← subNoReduce e a
  let c ← mul r.t q.t2d
  let f := addNoReduce r.z r.z
  let g := addNoReduce f c
  let f ← subNoReduce f c
  let x ← mul e f
  let y ← mul h g
  let z ← mul g f
  let t ← mul e h
  let result : Ge := ⟨x, y, z, t⟩
  record (.nielsAdd r q result) result

def pnielsAdd (p : Ge) (q : Pniels) : Calls Pniels := do
  let a ← subNoReduce p.y p.x
  let b := addNoReduce p.y p.x
  let a ← mul a q.ysubx
  let x ← mul b q.xaddy
  let y := addNoReduce x a
  let x ← subNoReduce x a
  let c ← mul p.t q.t2d
  let t ← mul p.z q.z
  let t := addNoReduce t t
  let z := addNoReduce t c
  let t ← subNoReduce t c
  let xaddy ← mul x t
  let ysubx ← mul y z
  let rz ← mul z t
  let t2d ← mul x y
  let y := ysubx
  let ysubx ← subNoReduce ysubx xaddy
  let xaddy := addNoReduce xaddy y
  let t2d ← mul t2d ec2d
  let result : Pniels := ⟨ysubx, xaddy, rz, t2d⟩
  record (.pnielsAdd p q result) result

/-! ## Scalar multiplication -/

/-- `pre1` in `ed25519_ge_doubleScalarmultVartime` from the given entry on; after the last one
nothing is added. -/
def oddMultiples (d1 : Ge) : ℕ → Pniels → Calls (List Pniels)
  | 0, _ => pure []
  | 1, p => pure [p]
  | n + 2, p => do
    let next ← pnielsAdd d1 p
    let rest ← oddMultiples d1 (n + 1) next
    pure (p :: rest)

/-- `r` and `t` after the addition of `slide1[i]`. -/
def addOddMultiple (pre1 : List Pniels) (slide : ℤ) (r : Ge) (t : P1p1) : Calls (Ge × P1p1) :=
  if slide ≠ 0 then do
    let r ← p1p1ToFull t
    let t ← pnielsAddP1p1 r (pre1.getD (slide.natAbs >>> 1) (Ed25519.fullToPniels neutral))
      (decide (slide < 0))
    pure (r, t)
  else pure (r, t)

/-- `r` and `t` after the addition of `slide2[i]`. -/
def addSlidingMultiple (slide : ℤ) (r : Ge) (t : P1p1) : Calls (Ge × P1p1) :=
  if slide ≠ 0 then do
    let r ← p1p1ToFull t
    let t ← nielsAddP1p1 r (nielsSlidingMultiples.getD (slide.natAbs >>> 1) ⟨one, one, zero⟩)
      (decide (slide < 0))
    pure (r, t)
  else pure (r, t)

def doubleScalarmultStep (pre1 : List Pniels) (r : Ge) (slide : ℤ × ℤ) : Calls Ge := do
  let t ← doubleP1p1 r
  let (r, t) ← addOddMultiple pre1 slide.1 r t
  let (r, t) ← addSlidingMultiple slide.2 r t
  p1p1ToPartial r t

def doubleScalarmultVartime (p1 : Ge) (s1 s2 : Scalar) : Calls Ge := do
  let slide1 := window s1 15
  let slide2 := window s2 63
  let d1 ← double p1
  let p ← fullToPniels p1
  let pre1 ← oddMultiples d1 8 p
  let slides := (slide1.zip slide2).reverse.dropWhile fun slide => slide.1 = 0 ∧ slide.2 = 0
  slides.foldlM (doubleScalarmultStep pre1) neutral

def nielsAddDigits (b : List ℤ) (r : Ge) (positions : List ℕ) : Calls Ge :=
  positions.foldlM (fun r i => nielsAdd r (scalarmultBaseChooseNiels (i >>> 1) (b.getD i 0))) r

def scalarmultBaseNiels (s : Scalar) : Calls Ge := do
  let b := window4 s
  let t := scalarmultBaseChooseNiels 0 (b.getD 1 0)
  let r : Ge := ⟨sub t.xaddy t.ysubx, add t.xaddy t.ysubx, ⟨2, 0, 0, 0, 0⟩, t.t2d⟩
  let r ← nielsAddDigits b r ((List.range 31).map fun k => 2 * k + 3)
  let r ← doublePartial r r
  let r ← doublePartial r r
  let r ← doublePartial r r
  let r ← double r
  let t := scalarmultBaseChooseNiels 0 (b.getD 0 0)
  let t2d ← mul t.t2d ecd
  let r ← nielsAdd r { t with t2d := t2d }
  nielsAddDigits b r ((List.range 31).map fun k => 2 * k + 2)

/-! ## The values -/

@[simp] theorem value_mul (a b : Fe) : (mul a b).value = Curve25519.mul a b := by
  rw [mul, Traced.value_record]

@[simp] theorem value_squareN (a : Fe) (n : ℕ) :
    (squareN a n).value = Curve25519.squareN a n := by
  rw [squareN, Traced.value_record]

@[simp] theorem value_subNoReduce (a b : Fe) :
    (subNoReduce a b).value = Curve25519.subNoReduce a b := by
  rw [subNoReduce, Traced.value_record]

@[simp] theorem value_subNoReduceFourP (a b : Fe) :
    (subNoReduceFourP a b).value = Curve25519.subNoReduceFourP a b := by
  rw [subNoReduceFourP, Traced.value_record]

@[simp] theorem value_p1p1ToPartial (r : Ge) (p : P1p1) :
    (p1p1ToPartial r p).value = Ed25519.p1p1ToPartial r p := by
  simp [p1p1ToPartial, Ed25519.p1p1ToPartial]

@[simp] theorem value_p1p1ToFull (p : P1p1) :
    (p1p1ToFull p).value = Ed25519.p1p1ToFull p := by
  simp [p1p1ToFull, Ed25519.p1p1ToFull]

@[simp] theorem value_fullToPniels (r : Ge) :
    (fullToPniels r).value = Ed25519.fullToPniels r := by
  simp [fullToPniels, Ed25519.fullToPniels]

@[simp] theorem value_doubleP1p1 (p : Ge) :
    (doubleP1p1 p).value = Ed25519.doubleP1p1 p := by
  simp [doubleP1p1, Ed25519.doubleP1p1]

@[simp] theorem value_nielsAddP1p1 (p : Ge) (q : Niels) (signbit : Bool) :
    (nielsAddP1p1 p q signbit).value = Ed25519.nielsAddP1p1 p q signbit := by
  cases signbit with
  | false => simp [nielsAddP1p1, Ed25519.nielsAddP1p1, p1p1Finish]
  | true => simp [nielsAddP1p1, Ed25519.nielsAddP1p1, p1p1Finish]

@[simp] theorem value_pnielsAddP1p1 (p : Ge) (q : Pniels) (signbit : Bool) :
    (pnielsAddP1p1 p q signbit).value = Ed25519.pnielsAddP1p1 p q signbit := by
  cases signbit with
  | false => simp [pnielsAddP1p1, Ed25519.pnielsAddP1p1, p1p1Finish]
  | true => simp [pnielsAddP1p1, Ed25519.pnielsAddP1p1, p1p1Finish]

@[simp] theorem value_doublePartial (r p : Ge) :
    (doublePartial r p).value = Ed25519.doublePartial r p := by
  simp [doublePartial, Ed25519.doublePartial]

@[simp] theorem value_double (p : Ge) : (double p).value = Ed25519.double p := by
  simp [double, Ed25519.double]

@[simp] theorem value_nielsAdd (r : Ge) (q : Niels) :
    (nielsAdd r q).value = Ed25519.nielsAdd r q := by
  simp [nielsAdd, Ed25519.nielsAdd]

@[simp] theorem value_pnielsAdd (p : Ge) (q : Pniels) :
    (pnielsAdd p q).value = Ed25519.pnielsAdd p q := by
  simp [pnielsAdd, Ed25519.pnielsAdd]

@[simp] theorem value_oddMultiples (d1 : Ge) (n : ℕ) (p : Pniels) :
    (oddMultiples d1 n p).value = Ed25519.oddMultiples d1 n p := by
  induction n using Nat.strong_induction_on generalizing p with
  | _ n ih =>
      match n with
      | 0 => rfl
      | 1 => rfl
      | n + 2 => simp [oddMultiples, ih (n + 1) (by omega), Ed25519.oddMultiples]

@[simp] theorem value_doubleScalarmultStep (pre1 : List Pniels) (r : Ge) (slide : ℤ × ℤ) :
    (doubleScalarmultStep pre1 r slide).value = Ed25519.doubleScalarmultStep pre1 r slide := by
  unfold doubleScalarmultStep Ed25519.doubleScalarmultStep addOddMultiple addSlidingMultiple
  by_cases hfirst : slide.1 = 0
  · by_cases hsecond : slide.2 = 0
    · simp [hfirst, hsecond]
    · simp [hfirst, hsecond]
  · by_cases hsecond : slide.2 = 0
    · simp [hfirst, hsecond]
    · simp [hfirst, hsecond]

theorem value_doubleScalarmultVartime (p1 : Ge) (s1 s2 : Scalar) :
    (doubleScalarmultVartime p1 s1 s2).value = Ed25519.doubleScalarmultVartime p1 s1 s2 := by
  simp [doubleScalarmultVartime, Ed25519.doubleScalarmultVartime]

@[simp] theorem value_nielsAddDigits (b : List ℤ) (r : Ge) (positions : List ℕ) :
    (nielsAddDigits b r positions).value = Ed25519.nielsAddDigits b r positions := by
  simp [nielsAddDigits, Ed25519.nielsAddDigits]

theorem value_scalarmultBaseNiels (s : Scalar) :
    (scalarmultBaseNiels s).value = Ed25519.scalarmultBaseNiels s := by
  simp [scalarmultBaseNiels, Ed25519.scalarmultBaseNiels]

end Calls

end Hc.Ed25519
