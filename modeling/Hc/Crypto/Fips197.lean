import Mathlib.Data.Nat.Notation
import Hc.Foundation.Bytes

/-!
# The advanced encryption standard

The encryption of FIPS 197, with the names of the standard. The substitution box is given by
the inverse in the field with 256 elements and the affine transformation, not by a table.
-/

namespace Hc.Fips197

abbrev Byte := BitVec 8

/-! ## The field with 256 elements

An element is a number below 256 whose bits are the coefficients of a polynomial. -/

/-- Multiplication by `x` modulo `x⁸ + x⁴ + x³ + x + 1`. -/
def xtime (b : ℕ) : ℕ := 2 * b ^^^ (b / 128 * 0x11b)

/-- Multiplication of `b` by the polynomial with the `n` low coefficients of `a`. -/
def mulBits (b : ℕ) : ℕ → ℕ → ℕ
  | 0, _ => 0
  | n + 1, a => (a % 2 * b) ^^^ xtime (mulBits b n (a / 2))

def mul (a b : ℕ) : ℕ := mulBits b 8 a

/-- The product of the powers `1`, `2`, `4`, … `2 ^ (n - 1)`. -/
def squaresProduct (b : ℕ) : ℕ → ℕ
  | 0 => 1
  | n + 1 => mul b (squaresProduct (mul b b) n)

/-- The multiplicative inverse, which is the power `254 = 2 + 4 + ⋯ + 128`; zero for zero. -/
def inverse (b : ℕ) : ℕ := squaresProduct (mul b b) 7

/-- The affine transformation: bit `i` is the sum of the bits `i`, `i + 4`, `i + 5`, `i + 6`
and `i + 7` modulo 8 and of bit `i` of `63`. -/
def affine (b : Byte) : Byte :=
  b ^^^ b.rotateRight 4 ^^^ b.rotateRight 5 ^^^ b.rotateRight 6 ^^^ b.rotateRight 7 ^^^ 0x63

/-- The substitution box. -/
def sBox (b : Byte) : Byte := affine (.ofNat 8 (inverse b.toNat))

/-! ## Words and states -/

/-- A word, and a column of the state. -/
structure Column where
  r0 : Byte
  r1 : Byte
  r2 : Byte
  r3 : Byte
deriving DecidableEq

namespace Column

/-- The word at an offset. -/
def ofBytes (bytes : List UInt8) (offset : ℕ) : Column :=
  ⟨(byteAt bytes offset).toBitVec, (byteAt bytes (offset + 1)).toBitVec,
    (byteAt bytes (offset + 2)).toBitVec, (byteAt bytes (offset + 3)).toBitVec⟩

def toBytes (a : Column) : List UInt8 := [⟨a.r0⟩, ⟨a.r1⟩, ⟨a.r2⟩, ⟨a.r3⟩]

instance : XorOp Column := ⟨fun a b => ⟨a.r0 ^^^ b.r0, a.r1 ^^^ b.r1, a.r2 ^^^ b.r2, a.r3 ^^^ b.r3⟩⟩

def map (f : Byte → Byte) (a : Column) : Column := ⟨f a.r0, f a.r1, f a.r2, f a.r3⟩

end Column

/-- The state, by its columns. -/
structure State where
  c0 : Column
  c1 : Column
  c2 : Column
  c3 : Column

namespace State

def ofBytes (bytes : List UInt8) : State :=
  ⟨.ofBytes bytes 0, .ofBytes bytes 4, .ofBytes bytes 8, .ofBytes bytes 12⟩

def toBytes (s : State) : List UInt8 :=
  s.c0.toBytes ++ s.c1.toBytes ++ s.c2.toBytes ++ s.c3.toBytes

def map (f : Column → Column) (s : State) : State := ⟨f s.c0, f s.c1, f s.c2, f s.c3⟩

end State

/-! ## The cipher -/

def subBytes (s : State) : State := s.map (Column.map sBox)

/-- Row `r` is shifted by `r` columns. -/
def shiftRows (s : State) : State where
  c0 := ⟨s.c0.r0, s.c1.r1, s.c2.r2, s.c3.r3⟩
  c1 := ⟨s.c1.r0, s.c2.r1, s.c3.r2, s.c0.r3⟩
  c2 := ⟨s.c2.r0, s.c3.r1, s.c0.r2, s.c1.r3⟩
  c3 := ⟨s.c3.r0, s.c0.r1, s.c1.r2, s.c2.r3⟩

/-- A byte multiplied by a field element. -/
def times (a : ℕ) (b : Byte) : Byte := .ofNat 8 (mul a b.toNat)

def mixColumn (a : Column) : Column where
  r0 := times 2 a.r0 ^^^ times 3 a.r1 ^^^ a.r2 ^^^ a.r3
  r1 := a.r0 ^^^ times 2 a.r1 ^^^ times 3 a.r2 ^^^ a.r3
  r2 := a.r0 ^^^ a.r1 ^^^ times 2 a.r2 ^^^ times 3 a.r3
  r3 := times 3 a.r0 ^^^ a.r1 ^^^ a.r2 ^^^ times 2 a.r3

def mixColumns (s : State) : State := s.map mixColumn

/-- The four words of the key schedule for `round` are added to the columns. -/
def addRoundKey (w : ℕ → Column) (round : ℕ) (s : State) : State where
  c0 := s.c0 ^^^ w (4 * round)
  c1 := s.c1 ^^^ w (4 * round + 1)
  c2 := s.c2 ^^^ w (4 * round + 2)
  c3 := s.c3 ^^^ w (4 * round + 3)

def cipher (Nr : ℕ) (w : ℕ → Column) (input : List UInt8) : List UInt8 :=
  let s := addRoundKey w 0 (.ofBytes input)
  let s := (List.range (Nr - 1)).foldl (fun s i =>
    addRoundKey w (i + 1) (mixColumns (shiftRows (subBytes s)))) s
  (addRoundKey w Nr (shiftRows (subBytes s))).toBytes

/-! ## The key expansion -/

def rotWord (a : Column) : Column := ⟨a.r1, a.r2, a.r3, a.r0⟩

def subWord (a : Column) : Column := a.map sBox

/-- The round constant: the power `i - 1` of `x` and three zeros. -/
def rcon (i : ℕ) : Column := ⟨.ofNat 8 (xtime^[i - 1] 1), 0, 0, 0⟩

/-- The key lengths of the standard that are used. -/
inductive KeyLength where
  | aes128
  | aes256

namespace KeyLength

/-- The number of words of the key. -/
def Nk : KeyLength → ℕ
  | aes128 => 4
  | aes256 => 8

/-- The number of rounds. -/
def Nr (keyLength : KeyLength) : ℕ := keyLength.Nk + 6

theorem Nk_pos (keyLength : KeyLength) : 0 < keyLength.Nk := by
  cases keyLength with
  | aes128 => decide
  | aes256 => decide

/-- The words of the key schedule. -/
def w (keyLength : KeyLength) (key : List UInt8) (i : ℕ) : Column :=
  if i < keyLength.Nk then .ofBytes key (4 * i)
  else
    let temp := keyLength.w key (i - 1)
    let temp :=
      if i % keyLength.Nk = 0 then subWord (rotWord temp) ^^^ rcon (i / keyLength.Nk)
      else if 6 < keyLength.Nk ∧ i % keyLength.Nk = 4 then subWord temp
      else temp
    keyLength.w key (i - keyLength.Nk) ^^^ temp
termination_by i
decreasing_by
  all_goals
    have hpos := keyLength.Nk_pos
    omega

end KeyLength

def aes128 (key input : List UInt8) : List UInt8 :=
  cipher KeyLength.aes128.Nr (KeyLength.aes128.w key) input

def aes256 (key input : List UInt8) : List UInt8 :=
  cipher KeyLength.aes256.Nr (KeyLength.aes256.w key) input

end Hc.Fips197
