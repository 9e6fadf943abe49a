import Hc.Crypto.Ed25519Modm
import Hc.Crypto.Ed25519Tables

/-!
# Points of Ed25519

The `ed25519_ge` part of `hc/core/hc/crypto/ed25519.c`: points of the twisted Edwards
curve in four representations, their encoding in 32 bytes, and the two scalar
multiplications. A function gets the old value of a structure that it only partly
overwrites.
-/

namespace Hc.Ed25519

open Curve25519

/-- `struct ed25519_ge`. -/
structure Ge where
  x : Fe
  y : Fe
  z : Fe
  t : Fe
deriving DecidableEq

/-- `struct ed25519_ge_p1p1`. -/
structure P1p1 where
  x : Fe
  y : Fe
  z : Fe
  t : Fe

/-- `struct ed25519_ge_pniels`. -/
structure Pniels where
  ysubx : Fe
  xaddy : Fe
  z : Fe
  t2d : Fe

/-! ## Point operations -/

/-- `ed25519_ge_p1p1ToPartial`; `t` is left alone. -/
def p1p1ToPartial (r : Ge) (p : P1p1) : Ge :=
  { r with x := mul p.x p.t, y := mul p.y p.z, z := mul p.z p.t }

/-- `ed25519_ge_p1p1ToFull`. -/
def p1p1ToFull (p : P1p1) : Ge :=
  ⟨mul p.x p.t, mul p.y p.z, mul p.z p.t, mul p.x p.y⟩

/-- `ed25519_ge_fullToPniels`. -/
def fullToPniels (r : Ge) : Pniels :=
  ⟨subNoReduce r.y r.x, addNoReduce r.y r.x, r.z, mul r.t ec2d⟩

/-- `ed25519_ge_doubleP1p1`. -/
def doubleP1p1 (p : Ge) : P1p1 :=
  let a := squareN p.x 1
  let b := squareN p.y 1
  let c := squareN p.z 1
  let c := add c c
  let rx := addNoReduce p.x p.y
  let rx := squareN rx 1
  let ry := addNoReduce b a
  let rz := subNoReduce b a
  ⟨subNoReduceFourP rx ry, ry, rz, subNoReduceFourP c rz⟩

/-- The end of `ed25519_ge_nielsAddP1p1` and `ed25519_ge_pnielsAddP1p1`: `c` is added to
one of `r->z` and `r->t` and subtracted from the other. -/
def p1p1Finish (x a t c : Fe) (signbit : Bool) : P1p1 :=
  if signbit then ⟨subNoReduce x a, addNoReduce x a, subNoReduce t c, addNoReduce t c⟩
  else ⟨subNoReduce x a, addNoReduce x a, addNoReduce t c, subNoReduce t c⟩

/-- `ed25519_ge_nielsAddP1p1`; `signbit` selects among `ysubx` and `xaddy`. -/
def nielsAddP1p1 (p : Ge) (q : Niels) (signbit : Bool) : P1p1 :=
  let a := subNoReduce p.y p.x
  let b := addNoReduce p.y p.x
  let a := mul a (if signbit then q.xaddy else q.ysubx)
  let rx := mul b (if signbit then q.ysubx else q.xaddy)
  let c := mul p.t q.t2d
  let rt := add p.z p.z
  p1p1Finish rx a rt c signbit

/-- `ed25519_ge_pnielsAddP1p1`. -/
def pnielsAddP1p1 (p : Ge) (q : Pniels) (signbit : Bool) : P1p1 :=
  let a := subNoReduce p.y p.x
  let b := addNoReduce p.y p.x
  let a := mul a (if signbit then q.xaddy else q.ysubx)
  let rx := mul b (if signbit then q.ysubx else q.xaddy)
  let c := mul p.t q.t2d
  let rt := mul p.z q.z
  let rt := add rt rt
  p1p1Finish rx a rt c signbit

/-- `ed25519_ge_doublePartial`. -/
def doublePartial (r p : Ge) : Ge := p1p1ToPartial r (doubleP1p1 p)

/-- `ed25519_ge_double`. -/
def double (p : Ge) : Ge := p1p1ToFull (doubleP1p1 p)

/-- `ed25519_ge_nielsAdd`. -/
def nielsAdd (r : Ge) (q : Niels) : Ge :=
  let a := subNoReduce r.y r.x
  let b := addNoReduce r.y r.x
  let a := mul a q.ysubx
  let e := mul b q.xaddy
  let h := addNoReduce e a
  let e := subNoReduce e a
  let c := mul r.t q.t2d
  let f := addNoReduce r.z r.z
  let g := addNoReduce f c
  let f := subNoReduce f c
  ⟨mul e f, mul h g, mul g f, mul e h⟩

/-- `ed25519_ge_pnielsAdd`. -/
def pnielsAdd (p : Ge) (q : Pniels) : Pniels :=
  let a := subNoReduce p.y p.x
  let b := addNoReduce p.y p.x
  let a := mul a q.ysubx
  let x := mul b q.xaddy
  let y := addNoReduce x a
  let x := subNoReduce x a
  let c := mul p.t q.t2d
  let t := mul p.z q.z
  let t := addNoReduce t t
  let z := addNoReduce t c
  let t := subNoReduce t c
  let xaddy := mul x t
  let ysubx := mul y z
  let rz := mul z t
  let t2d := mul x y
  let y := ysubx
  ⟨subNoReduce ysubx xaddy, addNoReduce xaddy y, rz, mul t2d ec2d⟩

/-! ## Encoding -/

/-- `ed25519_ge_pack`: the 32 bytes written. -/
def pack (p : Ge) : List UInt8 :=
  let zi := invert p.z
  let tx := mul p.x zi
  let ty := mul p.y zi
  let r := store (reduce ty)
  let tx := reduce tx
  r.modify 31 (· ^^^ UInt8.ofNat ((tx.l0 &&& 1) <<< 7).toNat)

/-- `mem_compare` of five limbs with `curve25519_zero`. -/
def equalsZero (a : Fe) : Bool :=
  decide (a.l0.toNat = 0 ∧ a.l1.toNat = 0 ∧ a.l2.toNat = 0 ∧ a.l3.toNat = 0 ∧ a.l4.toNat = 0)

/-- `ed25519_ge_unpackNegativeVartime`: the point if the return value is 1. -/
def unpackNegativeVartime (p : List UInt8) : Option Ge :=
  let parity := (byteAt p 31).toNat >>> 7
  let y := load p
  let num := squareN y 1
  let den := mul num ecd
  let num := subNoReduce num one
  let den := addNoReduce den one
  let t := squareN den 1
  let d3 := mul t den
  let x := squareN d3 1
  let x := mul x den
  let x := mul x num
  let x := powTwo252m3 x
  let x := mul x d3
  let x := mul x num
  let t := squareN x 1
  let t := mul t den
  let root := reduce (subNoReduceFourP t num)
  let finish (x : Fe) : Ge :=
    let x := reduce x
    let x := if (x.l0 &&& 1).toNat = parity then sub zero x else x
    ⟨x, y, one, mul x y⟩
  if !equalsZero root then
    let t := reduce (addNoReduce t num)
    if !equalsZero t then none else some (finish (mul x sqrtneg1))
  else
    some (finish x)

/-! ## Scalar multiplication -/

/-- `hc_MEMSET(r, 0, sizeof(*r))` with `r->y[0] = 1` and `r->z[0] = 1`. -/
def neutral : Ge := ⟨zero, one, one, zero⟩

/-- `pre1` in `ed25519_ge_doubleScalarmultVartime` from the given entry on. -/
def oddMultiples (d1 : Ge) : ℕ → Pniels → List Pniels
  | 0, _ => []
  | n + 1, p => p :: oddMultiples d1 n (pnielsAdd d1 p)

/-- One iteration of the main loop of `ed25519_ge_doubleScalarmultVartime`, with
`slide1[i]` and `slide2[i]`. -/
def doubleScalarmultStep (pre1 : List Pniels) (r : Ge) (slide : ℤ × ℤ) : Ge :=
  let t := doubleP1p1 r
  let (r, t) :=
    if slide.1 ≠ 0 then
      let r := p1p1ToFull t
      (r, pnielsAddP1p1 r (pre1.getD (slide.1.natAbs >>> 1) (fullToPniels neutral))
        (decide (slide.1 < 0)))
    else (r, t)
  let (r, t) :=
    if slide.2 ≠ 0 then
      let r := p1p1ToFull t
      (r, nielsAddP1p1 r
        (nielsSlidingMultiples.getD (slide.2.natAbs >>> 1) ⟨one, one, zero⟩)
        (decide (slide.2 < 0)))
    else (r, t)
  p1p1ToPartial r t

/-- `ed25519_ge_doubleScalarmultVartime`. -/
def doubleScalarmultVartime (p1 : Ge) (s1 s2 : Scalar) : Ge :=
  let slide1 := window s1 15
  let slide2 := window s2 63
  let d1 := double p1
  let pre1 := oddMultiples d1 8 (fullToPniels p1)
  let slides := (slide1.zip slide2).reverse.dropWhile fun slide => slide.1 = 0 ∧ slide.2 = 0
  slides.foldl (doubleScalarmultStep pre1) neutral

/-- `_ed25519_move96BytesConditional`. -/
def move96BytesConditional (out input : List (Word 64)) (flag : Word 64) : List (Word 64) :=
  let nb := flag.wrapSub 1
  let b := ~~~nb
  out.zipWith (fun o i => (o &&& nb) ||| (i &&& b)) input

/-- `_ed25519_ge_scalarmultBaseChooseNiels`. -/
def scalarmultBaseChooseNiels (pos : ℕ) (b : ℤ) : Niels :=
  let sign : Word 32 := Word.lit 32 ((b % 256).toNat >>> 7)
  let mask := ~~~(sign.wrapSub 1)
  let u := (Word.wrapAdd (Word.lit 32 (b % 2 ^ 32).toNat) mask) ^^^ mask
  let packed : List (Word 64) := [1, 0, 0, 0, 1, 0, 0, 0, 0, 0, 0, 0]
  let packed := (List.range 8).foldl (fun packed i =>
    move96BytesConditional packed ((nielsBaseMultiples.getD ((pos <<< 3) + i) []).map (Word.lit 64))
      (((u ^^^ Word.lit 32 (i + 1)).wrapSub 1 >>> 31).cast 64)) packed
  let memory := packed.flatMap storeU64
  let ysubx := load memory
  let xaddy := load (memory.drop 32)
  let t2d := load (memory.drop 64)
  let swapped := cSwap ysubx xaddy (sign.cast 64)
  let neg := sub zero t2d
  ⟨swapped.1, swapped.2, (cSwap t2d neg (sign.cast 64)).1⟩

/-- The loops of `ed25519_ge_scalarmultBaseNiels` over every second digit. -/
def nielsAddDigits (b : List ℤ) (r : Ge) (positions : List ℕ) : Ge :=
  positions.foldl (fun r i => nielsAdd r (scalarmultBaseChooseNiels (i >>> 1) (b.getD i 0))) r

/-- `ed25519_ge_scalarmultBaseNiels`. -/
def scalarmultBaseNiels (s : Scalar) : Ge :=
  let b := window4 s
  let t := scalarmultBaseChooseNiels 0 (b.getD 1 0)
  let r : Ge := ⟨sub t.xaddy t.ysubx, add t.xaddy t.ysubx, ⟨2, 0, 0, 0, 0⟩, t.t2d⟩
  let r := nielsAddDigits b r ((List.range 31).map fun k => 2 * k + 3)
  let r := doublePartial r r
  let r := doublePartial r r
  let r := doublePartial r r
  let r := double r
  let t := scalarmultBaseChooseNiels 0 (b.getD 0 0)
  let r := nielsAdd r { t with t2d := mul t.t2d ecd }
  nielsAddDigits b r ((List.range 31).map fun k => 2 * k + 2)

end Hc.Ed25519
