import Hc.Core.Util
import Hc.Foundation.Bytes

/-!
# Name lists

`_client_nameListContains` of `hc/examples/ssh/client.c`, which searches an algorithm in the comma
separated names of a server. `none` is a load past the list, or a loop that does not end within as
many iterations as there can be. The search goes from name to name, but it takes a name for the
algorithm as soon as it starts with it.
-/

namespace Hc.Ssh

abbrev comma : UInt8 := 44

/-- The inner loop of `_client_nameListContains`: the start of the next name, or the end. -/
def nextName (nameList : List UInt8) : ℕ → ℕ → Option ℕ
  | 0, _ => none
  | fuel + 1, i =>
    if i < nameList.length then do
      let c ← nameList[i]?
      if c = comma then return i + 1 else nextName nameList fuel (i + 1)
    else return i

/-- The loop of `_client_nameListContains`. The sizes are `uint32_t`. -/
def containsLoop (nameList string : List UInt8) : ℕ → ℕ → Option Bool
  | 0, _ => none
  | fuel + 1, i =>
    if (nameList.length + 2 ^ 32 - i) % 2 ^ 32 < string.length then return false
    else if i + string.length > nameList.length then none
    else if memCompare ((nameList.drop i).take string.length) string = 0 then return true
    else do
      let i ← nextName nameList (nameList.length + 1) i
      containsLoop nameList string fuel i

/-- `_client_nameListContains`. Every iteration but the last one passes a byte of the list. -/
def nameListContains (nameList string : List UInt8) : Option Bool :=
  containsLoop nameList string (nameList.length + 2) 0

/-- The names of a list. -/
def names (nameList : List UInt8) : List (List UInt8) := nameList.splitOn comma

/-! ## The search -/

section Search

variable {nameList rest name more string : List UInt8} {i fuel : ℕ}

/-- The bytes of a name are passed over. -/
theorem nextName_pass (hname : comma ∉ name) (h : nameList.drop i = name ++ rest) :
    nextName nameList (name.length + fuel) i = nextName nameList fuel (i + name.length) := by
  induction name generalizing i with
  | nil => rw [List.length_nil, Nat.zero_add, Nat.add_zero]
  | cons c name ih =>
      obtain ⟨hc, hname⟩ := List.ne_and_not_mem_of_not_mem_cons hname
      have hlt := offset_add_length_le h (List.cons_ne_nil c name)
      have htail : nameList.drop (i + 1) = name ++ rest := by
        rw [← List.drop_drop, h]
        rfl
      rw [List.length_cons] at hlt ⊢
      rw [Nat.add_right_comm, nextName, if_pos (by omega), getElem?_of_drop h]
      refine (if_neg hc.symm).trans ?_
      rw [ih hname htail, Nat.add_assoc, Nat.add_comm 1]

/-- The inner loop ends behind the next comma. -/
theorem nextName_of_comma (hfuel : name.length < fuel) (hname : comma ∉ name)
    (h : nameList.drop i = name ++ comma :: more) :
    nextName nameList fuel i = some (i + name.length + 1) := by
  obtain ⟨fuel, rfl⟩ : ∃ k, fuel = name.length + (k + 1) := ⟨fuel - name.length - 1, by omega⟩
  have hcomma := drop_add_length h
  have hlt : i + name.length < nameList.length := by
    have hlength := congrArg List.length hcomma
    rw [List.length_drop, List.length_cons] at hlength
    omega
  rw [nextName_pass hname h, nextName, if_pos hlt, getElem?_of_drop hcomma]
  rfl

/-- Without a comma it goes to the end of the list. -/
theorem nextName_of_last (hfuel : name.length < fuel) (hname : comma ∉ name)
    (h : nameList.drop i = name) (hi : i ≤ nameList.length) :
    nextName nameList fuel i = some nameList.length := by
  obtain ⟨fuel, rfl⟩ : ∃ k, fuel = name.length + (k + 1) := ⟨fuel - name.length - 1, by omega⟩
  have hlength := congrArg List.length h
  rw [List.length_drop] at hlength
  rw [nextName_pass hname (h.trans (List.append_nil name).symm), nextName, if_neg (by omega)]
  exact congrArg some (by omega)

/-- A string without commas that a list starts with is inside of its first name. -/
theorem isPrefix_of_isPrefix_append (hstring : comma ∉ string)
    (h : string <+: name ++ comma :: more) : string <+: name := by
  induction string generalizing name with
  | nil => exact List.nil_prefix
  | cons c string ih =>
      obtain ⟨hc, hstring⟩ := List.ne_and_not_mem_of_not_mem_cons hstring
      cases name with
      | nil => exact absurd (List.cons_prefix_cons.mp h).1.symm hc
      | cons d name =>
          obtain ⟨rfl, htail⟩ := List.cons_prefix_cons.mp h
          exact List.cons_prefix_cons.mpr ⟨rfl, ih hstring htail⟩

/-- A list is its only name, or its first name, a comma and a list. -/
theorem names_cases (rest : List UInt8) :
    (comma ∉ rest ∧ names rest = [rest]) ∨
    ∃ name more, comma ∉ name ∧ rest = name ++ comma :: more ∧
      names rest = name :: names more := by
  by_cases h : comma ∈ rest
  · obtain ⟨name, more, rfl, hname⟩ := List.eq_append_cons_of_mem h
    exact .inr ⟨name, more, hname, rfl, List.splitOn_append_cons_self_of_not_mem hname _⟩
  · exact .inl ⟨h, List.splitOn_eq_singleton h⟩

theorem length_le_of_mem_names {rest name : List UInt8} (h : name ∈ names rest) :
    name.length ≤ rest.length := by
  rcases names_cases rest with ⟨-, hnames⟩ | ⟨first, more, -, hrest, hnames⟩
  · rw [hnames, List.mem_singleton] at h
    rw [h]
  · have hlength := congrArg List.length hrest
    rw [List.length_append, List.length_cons] at hlength
    rw [hnames, List.mem_cons] at h
    rcases h with rfl | hmore
    · omega
    · have hshorter : more.length < rest.length := by omega
      exact (length_le_of_mem_names hmore).trans hshorter.le
termination_by rest.length

/-- The algorithm that the search looks for at the start of a name. -/
theorem memCompare_take_iff (string rest : List UInt8) (hle : string.length ≤ rest.length) :
    memCompare (rest.take string.length) string = 0 ↔ string <+: rest := by
  rw [memCompare_eq_zero_iff (List.length_take_of_le hle), List.prefix_iff_eq_take, eq_comm]

theorem exists_starts_of_last {rest : List UInt8} (hnames : names rest = [rest]) :
    (∃ name ∈ names rest, string <+: name) ↔ string <+: rest := by
  rw [hnames]
  simp

/-- A string without a comma starts the first name if it starts the list. -/
theorem exists_starts_of_comma {rest name more : List UInt8} (hstring : comma ∉ string)
    (hrest : rest = name ++ comma :: more) (hnames : names rest = name :: names more) :
    (∃ found ∈ names rest, string <+: found) ↔
      string <+: rest ∨ ∃ found ∈ names more, string <+: found := by
  have hfirst : string <+: name ↔ string <+: rest := by
    rw [hrest]
    constructor
    · exact fun h => h.trans (List.prefix_append _ _)
    · exact isPrefix_of_isPrefix_append hstring
  rw [hnames, ← hfirst]
  simp

/-- No name starts with a string that is longer than the list. -/
theorem not_exists_starts {rest : List UInt8} (hshort : rest.length < string.length) :
    ¬ ∃ name ∈ names rest, string <+: name := by
  rintro ⟨name, hname, hstarts⟩
  have hle := length_le_of_mem_names hname
  have hle' := hstarts.length_le
  omega

/-- From the start of a name on, the loop finds a name that starts with the string. -/
theorem containsLoop_eq (hlist : nameList.length < 2 ^ 32) (hne : string ≠ [])
    (hstring : comma ∉ string) (hi : i ≤ nameList.length) (hfuel : nameList.length - i < fuel) :
    containsLoop nameList string fuel i =
      some (decide (∃ name ∈ names (nameList.drop i), string <+: name)) := by
  have hpos := List.length_pos_iff.mpr hne
  induction fuel generalizing i with
  | zero => omega
  | succ fuel ih =>
      have hsize : (nameList.length + 2 ^ 32 - i) % 2 ^ 32 = nameList.length - i := by omega
      have hrest : (nameList.drop i).length = nameList.length - i := List.length_drop
      rw [containsLoop, hsize]
      split
      next hshort =>
        rw [decide_eq_false (not_exists_starts (by omega))]
        rfl
      next hlong =>
        rw [if_neg (by omega)]
        have hfound := memCompare_take_iff string (nameList.drop i) (by omega)
        rcases names_cases (nameList.drop i) with ⟨hcomma, hnames⟩ |
          ⟨name, more, hcomma, hdrop, hnames⟩
        · -- The last name: the next iteration finds nothing left.
          have hstarts : (∃ name ∈ names (nameList.drop i), string <+: name) ↔ _ :=
            exists_starts_of_last hnames
          split
          next heq =>
            rw [decide_eq_true (hstarts.mpr (hfound.mp heq))]
            rfl
          next hdiffer =>
            have hnone : ¬ ∃ name ∈ names [], string <+: name := not_exists_starts hpos
            have hend := ih (Nat.le_refl _) (by omega)
            rw [List.drop_length, decide_eq_false hnone] at hend
            rw [nextName_of_last (by omega) hcomma rfl hi,
              decide_eq_false fun h => hdiffer (hfound.mpr (hstarts.mp h))]
            exact hend
        · have hstarts := exists_starts_of_comma hstring hdrop hnames
          have hmore : nameList.drop (i + name.length + 1) = more := by
            have hcommaDrop := drop_add_length hdrop
            rw [← List.drop_drop, hcommaDrop]
            rfl
          rw [hdrop] at hrest
          rw [List.length_append, List.length_cons] at hrest
          split
          next heq =>
            rw [decide_eq_true (hstarts.mpr (.inl (hfound.mp heq)))]
            rfl
          next hdiffer =>
            rw [nextName_of_comma (by omega) hcomma hdrop]
            refine (ih (by omega) (by omega)).trans ?_
            rw [hmore]
            refine congrArg some (decide_eq_decide.mpr ?_)
            rw [hstarts, or_iff_right fun h => hdiffer (hfound.mpr h)]

end Search

/-- The search always ends, and it finds a name that starts with the string. -/
theorem nameListContains_eq {nameList string : List UInt8} (hlist : nameList.length < 2 ^ 32)
    (hne : string ≠ []) (hstring : comma ∉ string) :
    nameListContains nameList string =
      some (decide (∃ name ∈ names nameList, string <+: name)) :=
  containsLoop_eq hlist hne hstring (Nat.zero_le _) (by omega)

/-- The search ends inside of the list with the answer to whether the algorithm is one of its names,
unless the algorithm is none of them and some name only starts with it. -/
theorem nameListContains_iff_mem_iff (nameList string : List UInt8)
    (hlist : nameList.length < 2 ^ 32) (hne : string ≠ []) (hstring : comma ∉ string) :
    nameListContains nameList string = some (decide (string ∈ names nameList)) ↔
      string ∈ names nameList ∨ ∀ name ∈ names nameList, ¬ string <+: name := by
  rw [nameListContains_eq hlist hne hstring, Option.some.injEq, decide_eq_decide]
  constructor
  · intro h
    by_cases hmem : string ∈ names nameList
    · exact .inl hmem
    · exact .inr fun name hname hstarts => hmem (h.mp ⟨name, hname, hstarts⟩)
  · rintro (hmem | hnone)
    · exact iff_of_true ⟨string, hmem, List.prefix_rfl⟩ hmem
    · refine iff_of_false ?_ fun hmem => hnone string hmem List.prefix_rfl
      rintro ⟨name, hname, hstarts⟩
      exact hnone name hname hstarts

/-- The only key exchange of the list starts with the one that is searched. -/
theorem nameListContains_libssh :
    nameListContains (ascii "curve25519-sha256@libssh.org") (ascii "curve25519-sha256") ≠
      some (decide (ascii "curve25519-sha256" ∈ names (ascii "curve25519-sha256@libssh.org"))) := by
  decide

/-- Two names, the second of which is searched. -/
theorem nameListContains_iff_mem_zlib :
    nameListContains (ascii "none,zlib") (ascii "zlib") =
      some (decide (ascii "zlib" ∈ names (ascii "none,zlib"))) :=
  (nameListContains_iff_mem_iff (ascii "none,zlib") (ascii "zlib") (by decide) (by decide)
    (by decide)).mpr (.inl (by decide))

end Hc.Ssh
