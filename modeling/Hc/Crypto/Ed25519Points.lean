import Hc.Crypto.Ed25519Calls
import Hc.Crypto.Ed25519Curve

/-!
# What the point operations compute

Each structure of limbs represents a point in one of the coordinate systems, with a bound
on its limbs. The bounds of the results are again those of the arguments, so the
operations can be composed in any order. What holds of an operation is proved together with what
holds of the calls it makes.
-/

namespace Hc.Ed25519

open Curve25519

/-- The largest limb of a coordinate between two operations. -/
abbrev limbBound : ℕ := 2 ^ 51 + 2 ^ 17 - 1

/-- `x`, `y` and `z` represent a point; nothing is known about `t`. -/
def Ge.Partial (r : Ge) (P : Point) : Prop :=
  ∃ X Y Z : F, r.x.Rep limbBound X ∧ r.y.Rep limbBound Y ∧ r.z.Rep limbBound Z ∧
    curve.Projective X Y Z P

/-- All four coordinates represent a point. -/
def Ge.Full (r : Ge) (P : Point) : Prop :=
  ∃ X Y Z T : F, r.x.Rep limbBound X ∧ r.y.Rep limbBound Y ∧ r.z.Rep limbBound Z ∧
    r.t.Rep limbBound T ∧ curve.Extended X Y Z T P

def P1p1.Represents (p : P1p1) (P : Point) : Prop :=
  ∃ X Y Z T : F, p.x.Rep (2 ^ 54 - 1) X ∧ p.y.Rep (2 ^ 54 - 1) Y ∧ p.z.Rep (2 ^ 54 - 1) Z ∧
    p.t.Rep (2 ^ 54 - 1) T ∧ curve.Completed X Y Z T P

def Niels.Represents (q : Niels) (P : Point) : Prop :=
  ∃ a b c : F, q.ysubx.Rep (2 ^ 54 - 1) a ∧ q.xaddy.Rep (2 ^ 54 - 1) b ∧ q.t2d.Rep (2 ^ 54 - 1) c ∧
    curve.Niels a b 1 c P

def Pniels.Represents (q : Pniels) (P : Point) : Prop :=
  ∃ a b z c : F, q.ysubx.Rep (2 ^ 54 - 1) a ∧ q.xaddy.Rep (2 ^ 54 - 1) b ∧ q.z.Rep (2 ^ 54 - 1) z ∧
    q.t2d.Rep (2 ^ 54 - 1) c ∧ curve.Niels a b z c P

variable {r g : Ge} {P Q : Point}

theorem Ge.Full.toPartial (h : r.Full P) : r.Partial P := by
  obtain ⟨X, Y, Z, T, hx, hy, hz, -, hpoint⟩ := h
  exact ⟨X, Y, Z, hx, hy, hz, hpoint.toProjective⟩

/-! ## Constants -/

/-- The limbs are literals below `2 ^ 51` with the value `n` modulo `p`. -/
def isLiteral (a : Fe) (n : ℕ) : Bool :=
  [a.l0, a.l1, a.l2, a.l3, a.l4].all (fun l => l.exact && decide (l.toNat ≤ 2 ^ 51 - 1)) &&
    decide (a.value % p = n % p)

theorem rep_of_isLiteral {a : Fe} {n : ℕ} (h : isLiteral a n = true) :
    a.Rep (2 ^ 51 - 1) (n : F) := by
  simp only [isLiteral, List.all_cons, List.all_nil, Bool.and_true, Bool.and_eq_true,
    decide_eq_true_eq] at h
  obtain ⟨⟨h0, h1, h2, h3, h4⟩, hvalue⟩ := h
  exact ⟨⟨.self h0.1 h0.2, .self h1.1 h1.2, .self h2.1 h2.2, .self h3.1 h3.2, .self h4.1 h4.2⟩,
    natCast_eq_of_mod hvalue⟩

theorem ecd_rep : ecd.Rep (2 ^ 51 - 1) d :=
  rep_of_isLiteral (by decide)

theorem ec2d_rep : ec2d.Rep (2 ^ 51 - 1) (2 * d) := by
  have h : ec2d.Rep (2 ^ 51 - 1) ((2 * dNat : ℕ) : F) :=
    rep_of_isLiteral (by decide)
  rwa [Nat.cast_mul] at h

theorem sqrtneg1_rep : sqrtneg1.Rep (2 ^ 51 - 1) (iNat : F) :=
  rep_of_isLiteral (by decide)

theorem zero_rep : zero.Rep (2 ^ 51 - 1) 0 := by
  have h : zero.Rep (2 ^ 51 - 1) ((0 : ℕ) : F) :=
    rep_of_isLiteral (by decide)
  rwa [Nat.cast_zero] at h

theorem one_rep : one.Rep (2 ^ 51 - 1) 1 := by
  have h : one.Rep (2 ^ 51 - 1) ((1 : ℕ) : F) :=
    rep_of_isLiteral (by decide)
  rwa [Nat.cast_one] at h

/-! ## Calls -/

/-- Factors have limbs below `2 ^ 54`, no limb of a difference wraps, and the result of a point
operation represents what it is to compute of the points that its arguments represent. -/
def Call.Sound : Call → Prop
  | .mul a b => a.Bounded (2 ^ 54 - 1) ∧ b.Bounded (2 ^ 54 - 1)
  | .squareN a _ => a.Bounded (2 ^ 54 - 1)
  | .subNoReduce a b => (Curve25519.subNoReduce a b).Exact
  | .subNoReduceFourP a b => (Curve25519.subNoReduceFourP a b).Exact
  | .p1p1ToPartial p r => ∃ P, p.Represents P ∧ r.Partial P
  | .p1p1ToFull p r => ∃ P, p.Represents P ∧ r.Full P
  | .fullToPniels r q => ∃ P, r.Full P ∧ q.Represents P
  | .doubleP1p1 p r => ∃ P, p.Partial P ∧ r.Represents (P + P)
  | .nielsAddP1p1 p q signbit r =>
    ∃ P Q, p.Full P ∧ q.Represents Q ∧ r.Represents (if signbit then P - Q else P + Q)
  | .pnielsAddP1p1 p q signbit r =>
    ∃ P Q, p.Full P ∧ q.Represents Q ∧ r.Represents (if signbit then P - Q else P + Q)
  | .nielsAdd p q r => ∃ P Q, p.Full P ∧ q.Represents Q ∧ r.Full (P + Q)
  | .pnielsAdd p q r => ∃ P Q, p.Full P ∧ q.Represents Q ∧ r.Represents (P + Q)

/-- All calls are sound, and the result has the property. -/
abbrev Calls.Ensures {α : Type} (m : Calls α) (post : α → Prop) : Prop :=
  Traced.Ensures Call.Sound m post

namespace Calls

open Traced.Ensures (record)

variable {a b : Fe} {x y : F}

theorem mul_ensures (ha : a.Rep (2 ^ 54 - 1) x) (hb : b.Rep (2 ^ 54 - 1) y) :
    Ensures (mul a b) (·.Rep (2 ^ 51 + 2 ^ 13 - 1) (x * y)) :=
  record ⟨ha.toBounded, hb.toBounded⟩ (mul_rep (ha.mono (by decide)) (hb.mono (by decide)))

theorem square_ensures (ha : a.Rep (2 ^ 54 - 1) x) :
    Ensures (squareN a 1) (·.Rep (2 ^ 51 + 2 ^ 13 - 1) (x ^ 2)) :=
  record ha.toBounded (squareN_one_rep (ha.mono (by decide)))

theorem subNoReduce_ensures {A : ℕ} (ha : a.Rep A x) (hb : b.Rep (2 ^ 52 - 38) y)
    (h : A + (2 ^ 52 - 2) < 2 ^ 64) :
    Ensures (subNoReduce a b) (·.Rep (A + (2 ^ 52 - 2)) (x - y)) :=
  record (subNoReduce_rep ha hb h).exact (subNoReduce_rep ha hb h)

theorem subNoReduceFourP_ensures {A : ℕ} (ha : a.Rep A x) (hb : b.Rep (2 ^ 53 - 76) y)
    (h : A + (2 ^ 53 - 4) < 2 ^ 64) :
    Ensures (subNoReduceFourP a b) (·.Rep (A + (2 ^ 53 - 4)) (x - y)) :=
  record (subNoReduceFourP_rep ha hb h).exact (subNoReduceFourP_rep ha hb h)

end Calls

/-! ## Conversions -/

theorem p1p1ToPartial_ensures {t : P1p1} (h : t.Represents P) (r : Ge) :
    (Calls.p1p1ToPartial r t).Ensures (·.Partial P) := by
  obtain ⟨X, Y, Z, T, hx, hy, hz, ht, hpoint⟩ := id h
  refine (Calls.mul_ensures hx ht).bind fun rx hrx => ?_
  refine (Calls.mul_ensures hy hz).bind fun ry hry => ?_
  refine (Calls.mul_ensures hz ht).bind fun rz hrz => ?_
  have hr : Ge.Partial { r with x := rx, y := ry, z := rz } P := ⟨_, _, _, hrx.mono (by decide),
    hry.mono (by decide), hrz.mono (by decide), hpoint.extended.toProjective⟩
  exact .record ⟨P, h, hr⟩ hr

theorem p1p1ToFull_ensures {t : P1p1} (h : t.Represents P) :
    (Calls.p1p1ToFull t).Ensures (·.Full P) := by
  obtain ⟨X, Y, Z, T, hx, hy, hz, ht, hpoint⟩ := id h
  refine (Calls.mul_ensures hx ht).bind fun rx hrx => ?_
  refine (Calls.mul_ensures hy hz).bind fun ry hry => ?_
  refine (Calls.mul_ensures hz ht).bind fun rz hrz => ?_
  refine (Calls.mul_ensures hx hy).bind fun rt hrt => ?_
  have hr : Ge.Full ⟨rx, ry, rz, rt⟩ P := ⟨_, _, _, _, hrx.mono (by decide),
    hry.mono (by decide), hrz.mono (by decide), hrt.mono (by decide), hpoint.extended⟩
  exact .record ⟨P, h, hr⟩ hr

theorem fullToPniels_ensures (h : r.Full P) :
    (Calls.fullToPniels r).Ensures (·.Represents P) := by
  obtain ⟨X, Y, Z, T, hx, hy, hz, ht, hpoint⟩ := id h
  refine (Calls.subNoReduce_ensures hy (hx.mono (by decide)) (by decide)).bind fun ysubx hsub => ?_
  refine (Calls.mul_ensures (ht.mono (by decide)) (ec2d_rep.mono (by decide))).bind
    fun t2d ht2d => ?_
  have hq : Pniels.Represents ⟨ysubx, addNoReduce r.y r.x, r.z, t2d⟩ P :=
    ⟨_, _, _, _, hsub.mono (by decide), (addNoReduce_rep hy hx (by decide)).mono (by decide),
      hz.mono (by decide), ht2d.mono (by decide), hpoint.niels⟩
  exact .record ⟨P, h, hq⟩ hq

/-! ## Doublings -/

theorem doubleP1p1_ensures (h : g.Partial P) :
    (Calls.doubleP1p1 g).Ensures (·.Represents (P + P)) := by
  obtain ⟨X, Y, Z, hx, hy, hz, hpoint⟩ := id h
  refine (Calls.square_ensures (hx.mono (by decide))).bind fun a ha => ?_
  refine (Calls.square_ensures (hy.mono (by decide))).bind fun b hb => ?_
  refine (Calls.square_ensures (hz.mono (by decide))).bind fun c hc => ?_
  have hcc := add_rep hc hc (by decide)
  have hxy := addNoReduce_rep hx hy (by decide)
  refine (Calls.square_ensures (hxy.mono (by decide))).bind fun rx hrx => ?_
  have hry := addNoReduce_rep hb ha (by decide)
  refine (Calls.subNoReduce_ensures hb (ha.mono (by decide)) (by decide)).bind fun rz hrz => ?_
  refine (Calls.subNoReduceFourP_ensures hrx (hry.mono (by decide)) (by decide)).bind
    fun rx' hrx' => ?_
  refine (Calls.subNoReduceFourP_ensures hcc (hrz.mono (by decide)) (by decide)).bind
    fun rt hrt => ?_
  have hr : P1p1.Represents ⟨rx', addNoReduce b a, rz, rt⟩ (P + P) :=
    ⟨_, _, _, _, hrx'.mono (by decide), hry.mono (by decide), hrz.mono (by decide),
      hrt.mono (by decide), hpoint.double⟩
  exact .record ⟨P, h, hr⟩ hr

theorem doublePartial_ensures (h : g.Partial P) (r : Ge) :
    (Calls.doublePartial r g).Ensures (·.Partial (P + P)) :=
  (doubleP1p1_ensures h).bind fun _ ht => p1p1ToPartial_ensures ht r

theorem double_ensures (h : g.Partial P) : (Calls.double g).Ensures (·.Full (P + P)) :=
  (doubleP1p1_ensures h).bind fun _ ht => p1p1ToFull_ensures ht

/-! ## Additions -/

section Additions

variable {X Y : F} (hx : g.x.Rep limbBound X) (hy : g.y.Rep limbBound Y)

include hx hy

theorem ysubx_ensures :
    (Calls.subNoReduce g.y g.x).Ensures (·.Rep (2 ^ 54 - 1) (Y - X)) :=
  (Calls.subNoReduce_ensures hy (hx.mono (by decide)) (by decide)).mono
    fun _ h => h.mono (by decide)

theorem xaddy_rep : (addNoReduce g.y g.x).Rep (2 ^ 54 - 1) (Y + X) :=
  (addNoReduce_rep hy hx (by decide)).mono (by decide)

end Additions

/-- The results of an addition or subtraction in the coordinates of `p1p1`: the sign decides which
of `z` and `t` is the sum. -/
theorem completed_of_signbit (signbit : Bool) {rx ry sum difference : Fe} {X Y S D : F} {R : Point}
    (hx : rx.Rep (2 ^ 54 - 1) X) (hy : ry.Rep (2 ^ 54 - 1) Y) (hs : sum.Rep (2 ^ 54 - 1) S)
    (hd : difference.Rep (2 ^ 54 - 1) D)
    (hR : if signbit then curve.Completed X Y D S R else curve.Completed X Y S D R) :
    P1p1.Represents (if signbit then ⟨rx, ry, difference, sum⟩ else ⟨rx, ry, sum, difference⟩)
      R := by
  cases signbit with
  | false => exact ⟨_, _, _, _, hx, hy, hs, hd, hR⟩
  | true => exact ⟨_, _, _, _, hx, hy, hd, hs, hR⟩

/-- The coordinate of the second point that the sign selects. -/
theorem selected_rep {u v : Fe} {U V : F} {signbit : Bool} (hu : u.Rep (2 ^ 54 - 1) U)
    (hv : v.Rep (2 ^ 54 - 1) V) :
    (if signbit then u else v).Rep (2 ^ 54 - 1) (if signbit then U else V) := by
  cases signbit with
  | false => exact hv
  | true => exact hu

theorem nielsAddP1p1_ensures {q : Niels} (hg : g.Full P) (hq : q.Represents Q) (signbit : Bool) :
    (Calls.nielsAddP1p1 g q signbit).Ensures
      (·.Represents (if signbit then P - Q else P + Q)) := by
  obtain ⟨X, Y, Z, T, hx, hy, hz, ht, hP⟩ := id hg
  obtain ⟨A, B, C, ha, hb, hc, hQ⟩ := id hq
  refine (ysubx_ensures hx hy).bind fun a hsub => ?_
  refine (Calls.mul_ensures hsub (selected_rep hb ha)).bind fun a' ha' => ?_
  refine (Calls.mul_ensures (xaddy_rep hx hy) (selected_rep ha hb)).bind fun rx hrx => ?_
  have hry := addNoReduce_rep hrx ha' (by decide)
  refine (Calls.subNoReduce_ensures hrx (ha'.mono (by decide)) (by decide)).bind
    fun rx' hrx' => ?_
  refine (Calls.mul_ensures (ht.mono (by decide)) hc).bind fun c htc => ?_
  have hzz := add_rep hz hz (by decide)
  have hsum := addNoReduce_rep hzz htc (by decide)
  refine (Calls.subNoReduce_ensures hzz (htc.mono (by decide)) (by decide)).bind
    fun difference hdiff => ?_
  have hplus := hP.add hQ
  have hminus := hP.sub hQ
  rw [mul_one] at hplus hminus
  have hr := completed_of_signbit signbit (R := if signbit then P - Q else P + Q)
    (hrx'.mono (by decide)) (hry.mono (by decide)) (hsum.mono (by decide))
    (hdiff.mono (by decide)) (by
      cases signbit with
      | false => exact hplus
      | true => exact hminus)
  exact .record ⟨P, Q, hg, hq, hr⟩ hr

theorem pnielsAddP1p1_ensures {q : Pniels} (hg : g.Full P) (hq : q.Represents Q)
    (signbit : Bool) : (Calls.pnielsAddP1p1 g q signbit).Ensures
      (·.Represents (if signbit then P - Q else P + Q)) := by
  obtain ⟨X, Y, Z, T, hx, hy, hz, ht, hP⟩ := id hg
  obtain ⟨A, B, z, C, ha, hb, hqz, hc, hQ⟩ := id hq
  refine (ysubx_ensures hx hy).bind fun a hsub => ?_
  refine (Calls.mul_ensures hsub (selected_rep hb ha)).bind fun a' ha' => ?_
  refine (Calls.mul_ensures (xaddy_rep hx hy) (selected_rep ha hb)).bind fun rx hrx => ?_
  have hry := addNoReduce_rep hrx ha' (by decide)
  refine (Calls.subNoReduce_ensures hrx (ha'.mono (by decide)) (by decide)).bind
    fun rx' hrx' => ?_
  refine (Calls.mul_ensures (ht.mono (by decide)) hc).bind fun c htc => ?_
  refine (Calls.mul_ensures (hz.mono (by decide)) hqz).bind fun rt hrt => ?_
  have hzz := add_rep hrt hrt (by decide)
  have hsum := addNoReduce_rep hzz htc (by decide)
  refine (Calls.subNoReduce_ensures hzz (htc.mono (by decide)) (by decide)).bind
    fun difference hdiff => ?_
  have hr := completed_of_signbit signbit (R := if signbit then P - Q else P + Q)
    (hrx'.mono (by decide)) (hry.mono (by decide)) (hsum.mono (by decide))
    (hdiff.mono (by decide)) (by
      cases signbit with
      | false => exact hP.add hQ
      | true => exact hP.sub hQ)
  exact .record ⟨P, Q, hg, hq, hr⟩ hr

theorem nielsAdd_ensures {q : Niels} (hg : g.Full P) (hq : q.Represents Q) :
    (Calls.nielsAdd g q).Ensures (·.Full (P + Q)) := by
  obtain ⟨X, Y, Z, T, hx, hy, hz, ht, hP⟩ := id hg
  obtain ⟨A, B, C, ha, hb, hc, hQ⟩ := id hq
  refine (ysubx_ensures hx hy).bind fun a hsub => ?_
  refine (Calls.mul_ensures hsub ha).bind fun a' ha' => ?_
  refine (Calls.mul_ensures (xaddy_rep hx hy) hb).bind fun e he => ?_
  have hh := (addNoReduce_rep he ha' (by decide)).mono (B := 2 ^ 54 - 1) (by decide)
  refine (Calls.subNoReduce_ensures he (ha'.mono (by decide)) (by decide)).bind fun e' he' => ?_
  have he'' := he'.mono (B := 2 ^ 54 - 1) (by decide)
  refine (Calls.mul_ensures (ht.mono (by decide)) hc).bind fun c htc => ?_
  have hf := addNoReduce_rep hz hz (by decide)
  have hgg := (addNoReduce_rep hf htc (by decide)).mono (B := 2 ^ 54 - 1) (by decide)
  refine (Calls.subNoReduce_ensures hf (htc.mono (by decide)) (by decide)).bind fun f' hf' => ?_
  have hf'' := hf'.mono (B := 2 ^ 54 - 1) (by decide)
  refine (Calls.mul_ensures he'' hf'').bind fun rx hrx => ?_
  refine (Calls.mul_ensures hh hgg).bind fun ry hry => ?_
  refine (Calls.mul_ensures hgg hf'').bind fun rz hrz => ?_
  refine (Calls.mul_ensures he'' hh).bind fun rt hrt => ?_
  have hsum := (hP.add hQ).extended
  rw [mul_one] at hsum
  have hr : Ge.Full ⟨rx, ry, rz, rt⟩ (P + Q) := ⟨_, _, _, _, hrx.mono (by decide),
    hry.mono (by decide), hrz.mono (by decide), hrt.mono (by decide), hsum⟩
  exact .record ⟨P, Q, hg, hq, hr⟩ hr

theorem pnielsAdd_ensures {q : Pniels} (hg : g.Full P) (hq : q.Represents Q) :
    (Calls.pnielsAdd g q).Ensures (·.Represents (P + Q)) := by
  obtain ⟨X, Y, Z, T, hx, hy, hz, ht, hP⟩ := id hg
  obtain ⟨A, B, z, C, ha, hb, hqz, hc, hQ⟩ := id hq
  refine (ysubx_ensures hx hy).bind fun a hsub => ?_
  refine (Calls.mul_ensures hsub ha).bind fun a' ha' => ?_
  refine (Calls.mul_ensures (xaddy_rep hx hy) hb).bind fun x hx' => ?_
  have hry := (addNoReduce_rep hx' ha' (by decide)).mono (B := 2 ^ 54 - 1) (by decide)
  refine (Calls.subNoReduce_ensures hx' (ha'.mono (by decide)) (by decide)).bind fun x' hrx => ?_
  have hrx' := hrx.mono (B := 2 ^ 54 - 1) (by decide)
  refine (Calls.mul_ensures (ht.mono (by decide)) hc).bind fun c htc => ?_
  refine (Calls.mul_ensures (hz.mono (by decide)) hqz).bind fun t hz' => ?_
  have hzz := addNoReduce_rep hz' hz' (by decide)
  have hrz := (addNoReduce_rep hzz htc (by decide)).mono (B := 2 ^ 54 - 1) (by decide)
  refine (Calls.subNoReduce_ensures hzz (htc.mono (by decide)) (by decide)).bind fun t' hrt => ?_
  have hrt' := hrt.mono (B := 2 ^ 54 - 1) (by decide)
  refine (Calls.mul_ensures hrx' hrt').bind fun xaddy hX => ?_
  refine (Calls.mul_ensures hry hrz).bind fun ysubx hY => ?_
  refine (Calls.mul_ensures hrz hrt').bind fun rz hZ => ?_
  refine (Calls.mul_ensures hrx' hry).bind fun t2d hT => ?_
  refine (Calls.subNoReduce_ensures hY (hX.mono (by decide)) (by decide)).bind
    fun ysubx' hysubx => ?_
  refine (Calls.mul_ensures (hT.mono (by decide)) (ec2d_rep.mono (by decide))).bind
    fun t2d' hT' => ?_
  have hsum := (hP.add hQ).extended.niels
  have hxaddy := addNoReduce_rep hX hY (by decide)
  rw [add_comm (_ * _)] at hxaddy
  have hr : Pniels.Represents ⟨ysubx', addNoReduce xaddy ysubx, rz, t2d'⟩ (P + Q) :=
    ⟨_, _, _, _, hysubx.mono (by decide), hxaddy.mono (by decide), hZ.mono (by decide),
      hT'.mono (by decide), hsum⟩
  exact .record ⟨P, Q, hg, hq, hr⟩ hr

end Hc.Ed25519
