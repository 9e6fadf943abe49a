import Mathlib.Data.List.Basic

/-!
# Bytes that arrive in pieces

What a descriptor delivers is a list of pieces: every call of `read` takes as much of the first one
as it has room for. An empty piece is a call that is interrupted by a signal; when no pieces are
left, the stream has ended.
-/

namespace Hc

/-- What a descriptor will deliver. -/
abbrev Pieces := List (List UInt8)

/-- `util_readAll` with room for `size` bytes: the bytes read, and what is left to read. -/
def readAll : Pieces → ℕ → List UInt8 × Pieces
  | [], _ => ([], [])
  | piece :: pieces, size =>
    if size = 0 then ([], piece :: pieces)
    else if piece.length ≤ size then
      let (bytes, rest) := readAll pieces (size - piece.length)
      (piece ++ bytes, rest)
    else (piece.take size, piece.drop size :: pieces)

/-- However the stream is cut in pieces, the next bytes of it are read. -/
theorem readAll_eq (pieces : Pieces) (size : ℕ) :
    (readAll pieces size).1 = pieces.flatten.take size ∧
      (readAll pieces size).2.flatten = pieces.flatten.drop size := by
  induction pieces generalizing size with
  | nil => simp [readAll]
  | cons piece pieces ih =>
      rw [readAll, List.flatten_cons]
      split
      next hzero => simp [hzero]
      next =>
        split
        next hle =>
          obtain ⟨hbytes, hrest⟩ := ih (size - piece.length)
          dsimp only
          rw [hbytes, hrest, List.take_append, List.take_of_length_le hle, List.drop_append,
            List.drop_of_length_le hle, List.nil_append]
          exact ⟨rfl, rfl⟩
        next hlt =>
          have hle : size ≤ piece.length := Nat.le_of_not_le hlt
          rw [List.take_append_of_le_length hle, List.drop_append_of_le_length hle,
            List.flatten_cons]
          exact ⟨rfl, rfl⟩

end Hc
