import Mathlib.Tactic.NormNum.Prime
import Hc.Foundation.Primality

/-!
# The prime `2 ^ 255 - 19`

Lucas's test down the chain of large prime factors of `p - 1`.
-/

namespace Hc.Curve25519

/-- The modulus of the field. -/
def p : ℕ := 2 ^ 255 - 19

/-- The tests of the chain. -/
private theorem lucasTests :
    lucasTest 32 2773320623 5 [2, 2437, 569003] ∧
      lucasTest 40 72106336199 7 [2, 13, 2773320623] ∧
      lucasTest 64 1919519569386763 2 [2, 3, 7, 19, 47, 47, 127, 8574133] ∧
      lucasTest 64 31757755568855353 10 [2, 2, 2, 3, 31, 107, 223, 4153, 430751] ∧
      lucasTest 128 75445702479781427272750846543864801 7
        [2, 2, 2, 2, 2, 3, 3, 5, 5, 75707, 72106336199, 1919519569386763] ∧
      lucasTest 256 74058212732561358302231226437062788676166966415465897661863160754340907 2
        [2, 3, 353, 57467, 132049, 1923133, 31757755568855353,
          75445702479781427272750846543864801] ∧
      lucasTest 255 p 2
        [2, 2, 3, 65147, 74058212732561358302231226437062788676166966415465897661863160754340907] := by
  decide +kernel

private theorem prime_factor1 : Nat.Prime 2773320623 := by
  refine prime_of_lucasTest _ _ _ _ ?_ lucasTests.1
  simp only [List.forall_mem_cons, List.not_mem_nil, IsEmpty.forall_iff, implies_true, and_true]
  refine ⟨by norm_num, by norm_num, by norm_num⟩

private theorem prime_factor2 : Nat.Prime 72106336199 := by
  refine prime_of_lucasTest _ _ _ _ ?_ lucasTests.2.1
  simp only [List.forall_mem_cons, List.not_mem_nil, IsEmpty.forall_iff, implies_true, and_true]
  refine ⟨by norm_num, by norm_num, prime_factor1⟩

private theorem prime_factor3 : Nat.Prime 1919519569386763 := by
  refine prime_of_lucasTest _ _ _ _ ?_ lucasTests.2.2.1
  simp only [List.forall_mem_cons, List.not_mem_nil, IsEmpty.forall_iff, implies_true, and_true]
  refine ⟨by norm_num, by norm_num, by norm_num, by norm_num, by norm_num, by norm_num,
      by norm_num, by norm_num⟩

private theorem prime_factor4 : Nat.Prime 31757755568855353 := by
  refine prime_of_lucasTest _ _ _ _ ?_ lucasTests.2.2.2.1
  simp only [List.forall_mem_cons, List.not_mem_nil, IsEmpty.forall_iff, implies_true, and_true]
  refine ⟨by norm_num, by norm_num, by norm_num, by norm_num, by norm_num, by norm_num,
      by norm_num, by norm_num, by norm_num⟩

private theorem prime_factor5 : Nat.Prime 75445702479781427272750846543864801 := by
  refine prime_of_lucasTest _ _ _ _ ?_ lucasTests.2.2.2.2.1
  simp only [List.forall_mem_cons, List.not_mem_nil, IsEmpty.forall_iff, implies_true, and_true]
  refine ⟨by norm_num, by norm_num, by norm_num, by norm_num, by norm_num, by norm_num,
      by norm_num, by norm_num, by norm_num, by norm_num, prime_factor2, prime_factor3⟩

private theorem prime_factor6 :
    Nat.Prime 74058212732561358302231226437062788676166966415465897661863160754340907 := by
  refine prime_of_lucasTest _ _ _ _ ?_ lucasTests.2.2.2.2.2.1
  simp only [List.forall_mem_cons, List.not_mem_nil, IsEmpty.forall_iff, implies_true, and_true]
  refine ⟨by norm_num, by norm_num, by norm_num, by norm_num, by norm_num, by norm_num,
      prime_factor4, prime_factor5⟩

theorem prime_p : p.Prime := by
  refine prime_of_lucasTest _ _ _ _ ?_ lucasTests.2.2.2.2.2.2
  simp only [List.forall_mem_cons, List.not_mem_nil, IsEmpty.forall_iff, implies_true, and_true]
  refine ⟨by norm_num, by norm_num, by norm_num, by norm_num, prime_factor6⟩

instance : Fact p.Prime := ⟨prime_p⟩

end Hc.Curve25519
