import Mathlib.Data.Nat.Find
import Hc.Foundation.Bytes
import Hc.Core.Util

/-!
# The search for include directives

`hc/tools/webPacker/common.c`: `findPattern` looks for a text in the buffer, and `handleInclude` for
the first directive of a kind. The bound of the search leaves out an occurrence that ends with the
last byte of the buffer.
-/

namespace Hc.WebPacker

/-- The loop of `findPattern` over the pattern. -/
def matchLoop (buffer : List UInt8) : List UInt8 → ℕ → Bool
  | [], _ => true
  | c :: pattern, i => if byteAt buffer i ≠ c then false else matchLoop buffer pattern (i + 1)

/-- The loop of `findPattern` over the buffer, for `fuel` indices at most. The bound
`bufferI < bufferSize - patternSize` is a comparison of signed numbers. -/
def findLoop (buffer pattern : List UInt8) : ℕ → ℕ → Option ℕ
  | 0, _ => none
  | fuel + 1, bufferI =>
    if bufferI + pattern.length < buffer.length then
      if matchLoop buffer pattern bufferI then some bufferI
      else findLoop buffer pattern fuel (bufferI + 1)
    else none

/-- `findPattern`; `none` for the result -1. -/
def findPattern (buffer : List UInt8) (bufferStartI : ℕ) (pattern : List UInt8) : Option ℕ :=
  findLoop buffer pattern buffer.length bufferStartI

/-- How `handleInclude` ends, or the call of `replaceWithFile` it makes. -/
inductive Handled where
  | complete
  | unclosed
  | nameTooLong
  | replace (replaceIndex replaceSize : ℕ) (path : List UInt8)
deriving DecidableEq

/-- The end of `handleInclude`, with the indices of the patterns. A start pattern ends with `(` and
an end pattern begins with `)`, so that `nameLen` is not negative. -/
def expand (buffer startPattern endPattern : List UInt8) (startPatternI endPatternI : ℕ) :
    Handled :=
  let nameI := startPatternI + startPattern.length
  let nameLen := endPatternI - nameI
  if nameLen > 2 ^ 31 - 1 then .nameTooLong
  else
    .replace startPatternI (endPatternI + endPattern.length - startPatternI)
      ((buffer.drop nameI).take nameLen)

/-- `handleInclude`. -/
def handleInclude (buffer startPattern endPattern : List UInt8) : Handled :=
  match findPattern buffer 0 startPattern with
  | none => .complete
  | some startPatternI =>
    match findPattern buffer startPatternI endPattern with
    | none => .unclosed
    | some endPatternI => expand buffer startPattern endPattern startPatternI endPatternI

/-! ## What is searched -/

/-- The pattern is in the buffer at an index. -/
abbrev Occurs (buffer pattern : List UInt8) (i : ℕ) : Prop := pattern <+: buffer.drop i

/-- The index is that of the first occurrence from `start` on. -/
def IsFirst (buffer : List UInt8) (start : ℕ) (pattern : List UInt8) (i : ℕ) : Prop :=
  start ≤ i ∧ Occurs buffer pattern i ∧ ∀ j, start ≤ j → j < i → ¬Occurs buffer pattern j

variable {buffer pattern : List UInt8} {start i : ℕ}

theorem matchLoop_iff (hend : i + pattern.length ≤ buffer.length) :
    matchLoop buffer pattern i = true ↔ Occurs buffer pattern i := by
  induction pattern generalizing i with
  | nil => simp [matchLoop]
  | cons c pattern ih =>
      rw [List.length_cons] at hend
      have hdrop : buffer.drop i = byteAt buffer i :: buffer.drop (i + 1) := by
        rw [List.drop_eq_getElem_cons (by omega), byteAt, List.getD_eq_getElem _ _ (by omega)]
      rw [matchLoop, Occurs, hdrop, List.cons_prefix_cons]
      split
      next hne => simp [Ne.symm hne]
      next heq =>
        rw [ih (by omega)]
        exact ⟨fun h => ⟨(not_not.mp heq).symm, h⟩, fun h => h.2⟩

theorem Occurs.le (hpattern : pattern ≠ []) (h : Occurs buffer pattern i) :
    i + pattern.length ≤ buffer.length := by
  have hle := h.length_le
  have hpos := List.length_pos_of_ne_nil hpattern
  rw [List.length_drop] at hle
  omega

theorem IsFirst.unique {j : ℕ} (hi : IsFirst buffer start pattern i)
    (hj : IsFirst buffer start pattern j) : i = j := by
  rcases lt_trichotomy i j with hlt | heq | hgt
  · exact absurd hi.2.1 (hj.2.2 i hi.1 hlt)
  · exact heq
  · exact absurd hj.2.1 (hi.2.2 j hj.1 hgt)

theorem exists_isFirst (hstart : start ≤ i) (h : Occurs buffer pattern i) :
    ∃ j, IsFirst buffer start pattern j := by
  classical
  have hex : ∃ j, start ≤ j ∧ Occurs buffer pattern j := ⟨i, hstart, h⟩
  refine ⟨Nat.find hex, (Nat.find_spec hex).1, (Nat.find_spec hex).2, ?_⟩
  intro j hj hlt hoccurs
  exact Nat.find_min hex hlt ⟨hj, hoccurs⟩

/-! ## What is found -/

/-- The loop finds the first occurrence that ends in front of the last byte. -/
theorem findLoop_eq_some_iff {fuel : ℕ} (hfuel : buffer.length ≤ start + fuel) :
    findLoop buffer pattern fuel start = some i ↔
      IsFirst buffer start pattern i ∧ i + pattern.length < buffer.length := by
  induction fuel generalizing start with
  | zero =>
      refine ⟨nofun, fun ⟨hfirst, hend⟩ => ?_⟩
      have hstart := hfirst.1
      omega
  | succ fuel ih =>
      unfold findLoop
      split
      next hend =>
        split
        next hmatch =>
          rw [matchLoop_iff hend.le] at hmatch
          have hfirst : IsFirst buffer start pattern start :=
            ⟨le_rfl, hmatch, fun j hj hlt => absurd hlt (not_lt.mpr hj)⟩
          constructor
          · rintro ⟨⟩
            exact ⟨hfirst, hend⟩
          · rintro ⟨hi, -⟩
            rw [hfirst.unique hi]
        next hmatch =>
          rw [matchLoop_iff hend.le] at hmatch
          rw [ih (by omega)]
          constructor
          · rintro ⟨⟨hstart, hoccurs, hbefore⟩, hlt⟩
            refine ⟨⟨by omega, hoccurs, fun j hj hji => ?_⟩, hlt⟩
            rcases eq_or_lt_of_le hj with rfl | hj
            · exact hmatch
            · exact hbefore j hj hji
          · rintro ⟨⟨hstart, hoccurs, hbefore⟩, hlt⟩
            have hne : start ≠ i := by
              rintro rfl
              exact hmatch hoccurs
            exact ⟨⟨by omega, hoccurs, fun j hj => hbefore j (by omega)⟩, hlt⟩
      next hend =>
        refine ⟨nofun, fun ⟨hfirst, hlt⟩ => ?_⟩
        have hstart := hfirst.1
        omega

theorem findPattern_eq_some_iff :
    findPattern buffer start pattern = some i ↔
      IsFirst buffer start pattern i ∧ i + pattern.length < buffer.length :=
  findLoop_eq_some_iff (Nat.le_add_left _ _)

/-- `findPattern` returns the first occurrence, and -1 if there is none. -/
def FindsFirst (buffer : List UInt8) (start : ℕ) (pattern : List UInt8) : Prop :=
  ∀ result, findPattern buffer start pattern = result ↔
    match result with
    | some i => IsFirst buffer start pattern i
    | none => ∀ i, start ≤ i → ¬Occurs buffer pattern i

theorem findPattern_eq_some_of_isFirst (hpattern : pattern ≠ [])
    (h : IsFirst buffer start pattern i)
    (hend : i + pattern.length ≠ buffer.length) : findPattern buffer start pattern = some i :=
  findPattern_eq_some_iff.mpr ⟨h, lt_of_le_of_ne (h.2.1.le hpattern) hend⟩

theorem findPattern_eq_none_of_isFirst (h : IsFirst buffer start pattern i)
    (hend : i + pattern.length = buffer.length) : findPattern buffer start pattern = none := by
  cases hfound : findPattern buffer start pattern with
  | none => rfl
  | some j =>
      obtain ⟨hfirst, hlt⟩ := findPattern_eq_some_iff.mp hfound
      rw [hfirst.unique h, hend] at hlt
      exact absurd hlt (lt_irrefl _)

theorem findPattern_eq_none (h : ∀ i, start ≤ i → ¬Occurs buffer pattern i) :
    findPattern buffer start pattern = none := by
  cases hfound : findPattern buffer start pattern with
  | none => rfl
  | some j =>
      obtain ⟨hfirst, -⟩ := findPattern_eq_some_iff.mp hfound
      exact absurd hfirst.2.1 (h j hfirst.1)

theorem findsFirst_iff (hpattern : pattern ≠ []) :
    FindsFirst buffer start pattern ↔
      ∀ i, IsFirst buffer start pattern i → i + pattern.length ≠ buffer.length := by
  constructor
  · intro h i hi hend
    have hnone := findPattern_eq_none_of_isFirst hi hend
    rw [(h (some i)).mpr hi] at hnone
    exact absurd hnone (Option.some_ne_none i)
  · intro h result
    cases result with
    | some i =>
        constructor
        · intro hfound
          exact (findPattern_eq_some_iff.mp hfound).1
        · intro hi
          exact findPattern_eq_some_of_isFirst hpattern hi (h i hi)
    | none =>
        constructor
        · intro hfound i hi hoccurs
          obtain ⟨j, hj⟩ := exists_isFirst hi hoccurs
          rw [findPattern_eq_some_of_isFirst hpattern hj (h j hj)] at hfound
          exact absurd hfound (Option.some_ne_none j)
        · exact findPattern_eq_none

/-! ## Directives -/

/-- The first start pattern of the buffer is at `startPatternI`, and the first end pattern from it
on is at `endPatternI`. -/
def Closed (buffer startPattern endPattern : List UInt8) (startPatternI endPatternI : ℕ) : Prop :=
  IsFirst buffer 0 startPattern startPatternI ∧ IsFirst buffer startPatternI endPattern endPatternI

/-- An unclosed directive is reported only if no end pattern follows the start pattern, and a closed
one is expanded. -/
def HandlesClosed (buffer startPattern endPattern : List UInt8) : Prop :=
  (handleInclude buffer startPattern endPattern = .unclosed →
      ∀ startPatternI, IsFirst buffer 0 startPattern startPatternI →
        ∀ i, startPatternI ≤ i → ¬Occurs buffer endPattern i) ∧
    ∀ startPatternI endPatternI, Closed buffer startPattern endPattern startPatternI endPatternI →
      handleInclude buffer startPattern endPattern =
        expand buffer startPattern endPattern startPatternI endPatternI

variable {startPattern endPattern : List UInt8} {startPatternI endPatternI : ℕ}

theorem expand_ne_complete :
    expand buffer startPattern endPattern startPatternI endPatternI ≠ .complete := by
  unfold expand
  dsimp only
  split <;> exact nofun

theorem expand_ne_unclosed :
    expand buffer startPattern endPattern startPatternI endPatternI ≠ .unclosed := by
  unfold expand
  dsimp only
  split <;> exact nofun

theorem handlesClosed_iff (hstart : startPattern ≠ []) (hend : endPattern ≠ []) :
    HandlesClosed buffer startPattern endPattern ↔
      ∀ startPatternI endPatternI, Closed buffer startPattern endPattern startPatternI endPatternI →
        startPatternI + startPattern.length ≠ buffer.length ∧
          endPatternI + endPattern.length ≠ buffer.length := by
  constructor
  · intro h startPatternI endPatternI hclosed
    have hexpand := h.2 startPatternI endPatternI hclosed
    unfold handleInclude at hexpand
    have hstartEnd : startPatternI + startPattern.length ≠ buffer.length := by
      intro hlast
      rw [findPattern_eq_none_of_isFirst hclosed.1 hlast] at hexpand
      exact expand_ne_complete hexpand.symm
    refine ⟨hstartEnd, fun hlast => ?_⟩
    rw [findPattern_eq_some_of_isFirst hstart hclosed.1 hstartEnd] at hexpand
    dsimp only at hexpand
    rw [findPattern_eq_none_of_isFirst hclosed.2 hlast] at hexpand
    exact expand_ne_unclosed hexpand.symm
  · intro h
    have hexpand : ∀ startPatternI endPatternI,
        Closed buffer startPattern endPattern startPatternI endPatternI →
        handleInclude buffer startPattern endPattern =
          expand buffer startPattern endPattern startPatternI endPatternI := by
      intro startPatternI endPatternI hclosed
      obtain ⟨hstartEnd, hendEnd⟩ := h startPatternI endPatternI hclosed
      rw [handleInclude, findPattern_eq_some_of_isFirst hstart hclosed.1 hstartEnd]
      dsimp only
      rw [findPattern_eq_some_of_isFirst hend hclosed.2 hendEnd]
    refine ⟨fun hunclosed startPatternI hfirst i hi hoccurs => ?_, hexpand⟩
    obtain ⟨endPatternI, hlast⟩ := exists_isFirst hi hoccurs
    rw [hexpand startPatternI endPatternI ⟨hfirst, hlast⟩] at hunclosed
    exact expand_ne_unclosed hunclosed

/-- A text is found exactly if its first occurrence does not end with the last byte of the buffer,
and a directive is handled exactly if it does not end there. -/
theorem finds_iff_not_last (buffer : List UInt8) :
    (∀ start pattern, pattern ≠ [] →
        (FindsFirst buffer start pattern ↔
          ∀ i, IsFirst buffer start pattern i → i + pattern.length ≠ buffer.length)) ∧
      ∀ startPattern endPattern, startPattern ≠ [] → endPattern ≠ [] →
        (HandlesClosed buffer startPattern endPattern ↔
          ∀ startPatternI endPatternI,
            Closed buffer startPattern endPattern startPatternI endPatternI →
              startPatternI + startPattern.length ≠ buffer.length ∧
                endPatternI + endPattern.length ≠ buffer.length) :=
  ⟨fun _ _ hpattern => findsFirst_iff hpattern,
    fun _ _ hstart hend => handlesClosed_iff hstart hend⟩

/-- The directive for texts in comments of scripts and styles. -/
abbrev includeStart : List UInt8 := ascii "/*INCLUDE("
abbrev includeEnd : List UInt8 := ascii ")*/"

/-- In front of a newline, the end pattern is found and the directive is handled. -/
theorem finds_newline :
    FindsFirst (ascii "/*INCLUDE(a)*/\n") 0 includeEnd ∧
      HandlesClosed (ascii "/*INCLUDE(a)*/\n") includeStart includeEnd := by
  have hlength : (ascii "/*INCLUDE(a)*/\n").length = 15 ∧ includeStart.length = 10 ∧
      includeEnd.length = 3 := by
    decide
  have hlast : ∀ i, Occurs (ascii "/*INCLUDE(a)*/\n") includeEnd i → i + 3 ≠ 15 := by
    intro i hoccurs hi
    obtain rfl : i = 12 := by omega
    revert hoccurs
    decide
  refine ⟨((finds_iff_not_last _).1 _ _ (by decide)).mpr fun i hi => ?_,
    ((finds_iff_not_last _).2 _ _ (by decide) (by decide)).mpr fun i j hclosed =>
      ⟨fun hi => ?_, ?_⟩⟩
  · rw [hlength.1, hlength.2.2]
    exact hlast i hi.2.1
  · obtain rfl : i = 5 := by omega
    exact absurd hclosed.1.2.1 (by decide)
  · rw [hlength.1, hlength.2.2]
    exact hlast j hclosed.2.2.1

/-- At the end of the file, the directive is reported as unclosed. -/
theorem not_finds_at_end :
    ¬FindsFirst (ascii "/*INCLUDE(a)*/") 0 includeEnd ∧
      ¬HandlesClosed (ascii "/*INCLUDE(a)*/") includeStart includeEnd := by
  have hoccurs : Occurs (ascii "/*INCLUDE(a)*/") includeEnd 11 := by decide
  constructor
  · intro h
    exact (h none).mp (by decide) 11 (by decide) hoccurs
  · intro h
    have hfirst : IsFirst (ascii "/*INCLUDE(a)*/") 0 includeStart 0 := ⟨le_rfl, by decide, nofun⟩
    exact h.1 (by decide) 0 hfirst 11 (by decide) hoccurs

end Hc.WebPacker
