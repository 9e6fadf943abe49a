import Mathlib.Logic.Relation
import Hc.Router.Netlink

/-!
# Attributes of netlink messages

`netlink_findAttr` goes from one attribute to the next by the length in its header, and checks the
end of the region only. An attribute of length 0 is its own successor, and it fits into what is
left of the region also where nothing is left. When the attribute is absent, the header at the end
of the region is what an earlier message left there.
-/

namespace Hc.Netlink

/-- `sizeof(struct nlattr)`. -/
abbrev attrSize : ℕ := 4

/-- `sizeof(struct genlmsghdr)`. -/
abbrev genHeaderSize : ℕ := 4

/-- `nla_len` of the attribute at `start`. -/
def nlaLen (buffer : List UInt8) (start : ℕ) : ℕ := (loadLE 16 buffer start).toNat

/-- `nla_type` of the attribute at `start`. -/
def nlaType (buffer : List UInt8) (start : ℕ) : BitVec 16 := loadLE 16 buffer (start + 2)

/-- `next` in `netlink_findAttr`. -/
def nextAttr (buffer : List UInt8) (start : ℕ) : ℕ := start + alignForward (nlaLen buffer start) 4

/-- How `netlink_findAttr` ends: it returns the place of an attribute, or its `CHECK` fails. -/
inductive Search where
  | found (pos : ℕ)
  | failed
deriving DecidableEq

/-- `netlink_findAttr` in the region up to `last`; `none` if it does not end in `fuel`
iterations. -/
def findAttr (buffer : List UInt8) (last : ℕ) (attrType : BitVec 16) : ℕ → ℕ → Option Search
  | 0, _ => none
  | fuel + 1, start =>
    let next := nextAttr buffer start
    if ¬next ≤ last then some .failed
    else if nlaType buffer start = attrType then some (.found start)
    else findAttr buffer last attrType fuel next

/-- `genetlink_findAttr`. -/
def genetlinkFindAttr (buffer : List UInt8) (attrType : BitVec 16) (fuel : ℕ) : Option Search :=
  let last := (loadLE 32 buffer 0).toNat
  findAttr buffer last attrType fuel (headerSize + genHeaderSize)

variable {buffer : List UInt8} {last start : ℕ} {attrType : BitVec 16}

/-- An attribute of the type with its header and its payload in the region. -/
structure AttrIn (buffer : List UInt8) (start last : ℕ) (attrType : BitVec 16) (pos : ℕ) :
    Prop where
  type_eq : nlaType buffer pos = attrType
  start_le : start ≤ pos
  header_le : pos + attrSize ≤ last
  len_le : pos + nlaLen buffer pos ≤ last

/-- The search ends, and what it returns is an attribute in the region. -/
structure Searches (buffer : List UInt8) (start last : ℕ) (attrType : BitVec 16) : Prop where
  ends : ∃ fuel, findAttr buffer last attrType fuel start ≠ none
  found : ∀ fuel pos, findAttr buffer last attrType fuel start = some (.found pos) →
    AttrIn buffer start last attrType pos

/-- An iteration that goes on. -/
structure Skips (buffer : List UInt8) (last : ℕ) (attrType : BitVec 16) (start next : ℕ) :
    Prop where
  next_eq : nextAttr buffer start = next
  next_le : next ≤ last
  type_ne : nlaType buffer start ≠ attrType

/-! ## One iteration -/

theorem findAttr_failed (h : last < nextAttr buffer start) (fuel : ℕ) :
    findAttr buffer last attrType (fuel + 1) start = some .failed :=
  if_pos (Nat.not_le_of_lt h)

theorem findAttr_found (hnext : nextAttr buffer start ≤ last)
    (htype : nlaType buffer start = attrType) (fuel : ℕ) :
    findAttr buffer last attrType (fuel + 1) start = some (.found start) := by
  rw [findAttr, if_neg (not_not_intro hnext), if_pos htype]

theorem Skips.findAttr_eq {next : ℕ} (h : Skips buffer last attrType start next) (fuel : ℕ) :
    findAttr buffer last attrType (fuel + 1) start = findAttr buffer last attrType fuel next := by
  rw [findAttr, h.next_eq, if_neg (not_not_intro h.next_le), if_neg h.type_ne]

theorem nextAttr_of_zero (hzero : nlaLen buffer start = 0) : nextAttr buffer start = start := by
  rw [nextAttr, hzero]
  rfl

/-- Any other length is at least that of a header when it is rounded up. -/
theorem le_nextAttr (hlen : nlaLen buffer start ≠ 0) : start + attrSize ≤ nextAttr buffer start ∧
    start + nlaLen buffer start ≤ nextAttr buffer start := by
  have hle : nlaLen buffer start ≤ alignForward (nlaLen buffer start) 4 :=
    le_alignForward (by decide)
  obtain ⟨k, hk⟩ := dvd_alignForward (nlaLen buffer start) 4
  unfold nextAttr attrSize
  omega

/-- The cases of an iteration. -/
theorem failed_or_found_or_skips (buffer : List UInt8) (last start : ℕ) (attrType : BitVec 16) :
    last < nextAttr buffer start ∨
      (nextAttr buffer start ≤ last ∧ nlaType buffer start = attrType) ∨
      Skips buffer last attrType start (nextAttr buffer start) := by
  by_cases hnext : nextAttr buffer start ≤ last
  · by_cases htype : nlaType buffer start = attrType
    · exact .inr (.inl ⟨hnext, htype⟩)
    · exact .inr (.inr ⟨rfl, hnext, htype⟩)
  · exact .inl (Nat.lt_of_not_le hnext)

/-! ## Runs -/

/-- More fuel does not change how a search ends. -/
theorem findAttr_add {fuel : ℕ} {exit : Search}
    (h : findAttr buffer last attrType fuel start = some exit) (k : ℕ) :
    findAttr buffer last attrType (fuel + k) start = some exit := by
  induction fuel generalizing start with
  | zero => cases h
  | succ fuel ih =>
      rw [Nat.add_right_comm]
      rcases failed_or_found_or_skips buffer last start attrType with hfailed | hfound | hskips
      · rwa [findAttr_failed hfailed] at h ⊢
      · rwa [findAttr_found hfound.1 hfound.2] at h ⊢
      · rw [hskips.findAttr_eq] at h ⊢
        exact ih h

/-- The iterations that skip attributes only cost fuel. -/
theorem findAttr_of_skips {pos : ℕ}
    (h : Relation.ReflTransGen (Skips buffer last attrType) start pos) :
    ∃ k, ∀ fuel, findAttr buffer last attrType (fuel + k) start =
      findAttr buffer last attrType fuel pos := by
  induction h using Relation.ReflTransGen.head_induction_on with
  | refl => exact ⟨0, fun _ => rfl⟩
  | head hskips _ ih =>
      obtain ⟨k, hk⟩ := ih
      exact ⟨k + 1, fun fuel => (hskips.findAttr_eq (fuel + k)).trans (hk fuel)⟩

/-- An attribute of length 0 and of another type is skipped forever. -/
theorem findAttr_of_zero (hle : start ≤ last) (hzero : nlaLen buffer start = 0)
    (htype : nlaType buffer start ≠ attrType) (fuel : ℕ) :
    findAttr buffer last attrType fuel start = none := by
  have hskips : Skips buffer last attrType start start := ⟨nextAttr_of_zero hzero, hle, htype⟩
  induction fuel with
  | zero => rfl
  | succ fuel ih => rw [hskips.findAttr_eq, ih]

/-! ## The whole search -/

theorem Searches.of_failed (h : last < nextAttr buffer start) :
    Searches buffer start last attrType := by
  refine ⟨⟨1, by rw [findAttr_failed h]; exact Option.some_ne_none _⟩, fun fuel pos hpos => ?_⟩
  cases fuel with
  | zero => cases hpos
  | succ fuel =>
      rw [findAttr_failed h] at hpos
      cases hpos

theorem Searches.of_found (hnext : nextAttr buffer start ≤ last)
    (h : AttrIn buffer start last attrType start) : Searches buffer start last attrType := by
  refine ⟨⟨1, by rw [findAttr_found hnext h.type_eq]; exact Option.some_ne_none _⟩,
    fun fuel pos hpos => ?_⟩
  cases fuel with
  | zero => cases hpos
  | succ fuel =>
      rw [findAttr_found hnext h.type_eq] at hpos
      cases hpos
      exact h

theorem Searches.of_skips {next : ℕ} (hskips : Skips buffer last attrType start next)
    (h : Searches buffer next last attrType) : Searches buffer start last attrType := by
  have hle : start ≤ next := hskips.next_eq ▸ Nat.le_add_right _ _
  obtain ⟨fuel, hends⟩ := h.ends
  refine ⟨⟨fuel + 1, by rwa [hskips.findAttr_eq]⟩, fun fuel pos hpos => ?_⟩
  cases fuel with
  | zero => cases hpos
  | succ fuel =>
      rw [hskips.findAttr_eq] at hpos
      exact { h.found fuel pos hpos with start_le := hle.trans (h.found fuel pos hpos).start_le }

theorem Searches.of_reach {pos : ℕ}
    (hreach : Relation.ReflTransGen (Skips buffer last attrType) start pos)
    (h : Searches buffer pos last attrType) : Searches buffer start last attrType := by
  induction hreach using Relation.ReflTransGen.head_induction_on with
  | refl => exact h
  | head hskips _ ih => exact .of_skips hskips ih

/-- A search that comes to an attribute of length 0 in the region does not end, or returns it. -/
theorem Searches.at_zero (h : Searches buffer start last attrType) {pos : ℕ}
    (hreach : Relation.ReflTransGen (Skips buffer last attrType) start pos) (hle : pos ≤ last)
    (hzero : nlaLen buffer pos = 0) :
    nlaType buffer pos = attrType ∧ pos + attrSize ≤ last := by
  obtain ⟨k, hk⟩ := findAttr_of_skips hreach
  by_cases htype : nlaType buffer pos = attrType
  · have hfound := findAttr_found ((nextAttr_of_zero hzero).trans_le hle) htype 0
    rw [← hk] at hfound
    exact ⟨htype, (h.found _ _ hfound).header_le⟩
  · obtain ⟨fuel, hends⟩ := h.ends
    obtain ⟨exit, hexit⟩ := Option.ne_none_iff_exists'.mp hends
    have hmore := findAttr_add hexit k
    rw [hk, findAttr_of_zero hle hzero htype] at hmore
    cases hmore

/-- The search ends with an attribute in the region or with a failed `CHECK` exactly if no
attribute of length 0 is in its way, but for one of the type whose header is in the region. -/
theorem searches_iff (buffer : List UInt8) (start last : ℕ) (attrType : BitVec 16) :
    Searches buffer start last attrType ↔
      ∀ pos, Relation.ReflTransGen (Skips buffer last attrType) start pos → pos ≤ last →
        nlaLen buffer pos = 0 → nlaType buffer pos = attrType ∧ pos + attrSize ≤ last := by
  refine ⟨fun h pos => h.at_zero, fun h => ?_⟩
  -- Every other attribute takes the search on by four bytes at least.
  induction hleft : last - start using Nat.strong_induction_on generalizing start with
  | _ left ih =>
      rcases failed_or_found_or_skips buffer last start attrType with
        hfailed | ⟨hnext, htype⟩ | hskips
      · exact .of_failed hfailed
      · have hstart : start ≤ last := (Nat.le_add_right _ _).trans hnext
        refine .of_found hnext ⟨htype, le_rfl, ?_, ?_⟩
        · by_cases hzero : nlaLen buffer start = 0
          · exact (h start .refl hstart hzero).2
          · exact (le_nextAttr hzero).1.trans hnext
        · by_cases hzero : nlaLen buffer start = 0
          · rwa [hzero]
          · exact (le_nextAttr hzero).2.trans hnext
      · have hnext := hskips.next_le
        have hstart : start ≤ last := (Nat.le_add_right _ _).trans hnext
        have hlen : nlaLen buffer start ≠ 0 := fun hzero =>
          hskips.type_ne (h start .refl hstart hzero).1
        have hprogress := (le_nextAttr hlen).1
        have hpos : 0 < attrSize := by decide
        exact .of_skips hskips (ih (last - nextAttr buffer start) (by omega)
          (nextAttr buffer start) (fun pos hreach => h pos (.head hskips hreach)) rfl)

/-- `CTRL_ATTR_MCAST_GROUPS`. -/
abbrev mcastGroupsAttr : BitVec 16 := 7

/-- The answer about a family without groups, and what is behind it in the buffer. -/
def noGroups (behind : List UInt8) : List UInt8 :=
  (⟨16, 0, 1, 0, [1, 2, 0, 0] ++ [8, 0, 2, 0, 97, 98, 99, 0]⟩ : Message).bytes ++ behind

/-- With zeros behind the answer, the search for the groups never ends; with what looks like the
header of an empty attribute, it returns that. -/
theorem not_searches_noGroups :
    (∀ fuel, genetlinkFindAttr (noGroups [0, 0, 0, 0]) mcastGroupsAttr fuel = none) ∧
      ¬Searches (noGroups [0, 0, 0, 0]) 20 28 mcastGroupsAttr ∧
      genetlinkFindAttr (noGroups [0, 0, 7, 0]) mcastGroupsAttr 2 = some (.found 28) ∧
      ¬Searches (noGroups [0, 0, 7, 0]) 20 28 mcastGroupsAttr := by
  have hskips : Skips (noGroups [0, 0, 0, 0]) 28 mcastGroupsAttr 20 28 :=
    ⟨by decide, by decide, by decide⟩
  have hloops : ∀ fuel, findAttr (noGroups [0, 0, 0, 0]) 28 mcastGroupsAttr fuel 20 = none := by
    intro fuel
    cases fuel with
    | zero => rfl
    | succ fuel =>
        rw [hskips.findAttr_eq]
        exact findAttr_of_zero (by decide) (by decide) (by decide) fuel
  have hlast : (loadLE 32 (noGroups [0, 0, 0, 0]) 0).toNat = 28 := by decide
  have hfound : genetlinkFindAttr (noGroups [0, 0, 7, 0]) mcastGroupsAttr 2 = some (.found 28) := by
    decide
  refine ⟨fun fuel => ?_, fun h => ?_, hfound, fun h => ?_⟩
  · rw [genetlinkFindAttr, hlast]
    exact hloops fuel
  · obtain ⟨fuel, hends⟩ := h.ends
    exact hends (hloops fuel)
  · exact absurd (h.found 2 28 hfound).header_le (by decide)

/-! ## Attributes that are written in full -/

/-- An attribute of the kernel. -/
structure Attr where
  type : BitVec 16
  payload : List UInt8
  fits : attrSize + payload.length < 2 ^ 16

namespace Attr

variable (attr : Attr)

/-- `nla_len`. -/
def len : ℕ := attrSize + attr.payload.length

/-- The header, the payload and the padding. -/
def bytes : List UInt8 :=
  storeLE (BitVec.ofNat 16 attr.len) ++ (storeLE attr.type ++ (attr.payload ++
    .replicate (alignForward attr.len 4 - attr.len) 0))

theorem length_bytes : attr.bytes.length = alignForward attr.len 4 := by
  have hle : attr.len ≤ alignForward attr.len 4 := le_alignForward (by decide)
  have hlen : attr.len = 4 + attr.payload.length := rfl
  simp only [bytes, List.length_append, length_storeLE, List.length_replicate]
  omega

theorem nlaLen_append (before after : List UInt8) :
    nlaLen (before ++ (attr.bytes ++ after)) before.length = attr.len := by
  rw [nlaLen, bytes, List.append_assoc, loadLE_append (by decide), BitVec.toNat_ofNat,
    Nat.mod_eq_of_lt (show attr.len < 2 ^ 16 from attr.fits)]

theorem nlaType_append (before after : List UInt8) :
    nlaType (before ++ (attr.bytes ++ after)) before.length = attr.type := by
  have hbefore : (before ++ storeLE (BitVec.ofNat 16 attr.len)).length = before.length + 2 := by
    rw [List.length_append, length_storeLE]
  rw [nlaType, bytes, List.append_assoc, List.append_assoc, ← List.append_assoc before, ← hbefore,
    loadLE_append (by decide)]

theorem nextAttr_append (before after : List UInt8) :
    nextAttr (before ++ (attr.bytes ++ after)) before.length =
      (before ++ attr.bytes).length := by
  rw [nextAttr, nlaLen_append, List.length_append, length_bytes]

end Attr

/-- A search goes over attributes of other types. -/
theorem skips_attrs {attrs : List Attr} (before after : List UInt8)
    (hlast : (before ++ attrs.flatMap Attr.bytes).length ≤ last)
    (hattrs : ∀ attr ∈ attrs, attr.type ≠ attrType) :
    Relation.ReflTransGen
      (Skips (before ++ (attrs.flatMap Attr.bytes ++ after)) last attrType) before.length
      (before ++ attrs.flatMap Attr.bytes).length := by
  induction attrs generalizing before with
  | nil =>
      rw [List.flatMap_nil, List.append_nil]
  | cons attr attrs ih =>
      obtain ⟨hattr, hothers⟩ := List.forall_mem_cons.mp hattrs
      rw [List.flatMap_cons, ← List.append_assoc] at hlast
      rw [List.flatMap_cons, List.append_assoc]
      have hrest := ih (before ++ attr.bytes) hlast hothers
      rw [List.append_assoc, List.append_assoc] at hrest
      refine .head ⟨attr.nextAttr_append before _, ?_, ?_⟩ hrest
      · rw [List.length_append] at hlast
        exact (Nat.le_add_right _ _).trans hlast
      · rwa [attr.nlaType_append]

/-- In a region of attributes the first one of the type is returned. -/
theorem findAttr_first {skipped : List Attr} {attr : Attr} (before after : List UInt8)
    (hlast : (before ++ (skipped.flatMap Attr.bytes ++ attr.bytes)).length ≤ last)
    (hskipped : ∀ other ∈ skipped, other.type ≠ attr.type) :
    ∃ fuel, findAttr (before ++ (skipped.flatMap Attr.bytes ++ (attr.bytes ++ after))) last
      attr.type fuel before.length =
        some (.found (before ++ skipped.flatMap Attr.bytes).length) := by
  rw [← List.append_assoc] at hlast
  have hreach := skips_attrs before (attr.bytes ++ after)
    ((List.length_append ▸ Nat.le_add_right _ _).trans hlast) hskipped
  obtain ⟨k, hk⟩ := findAttr_of_skips hreach
  refine ⟨1 + k, (hk 1).trans ?_⟩
  rw [← List.append_assoc]
  refine findAttr_found ?_ (attr.nlaType_append _ after) 0
  rwa [attr.nextAttr_append]

/-- When the attribute is absent, what an earlier message left behind the region decides. -/
theorem searches_absent_iff {attrs : List Attr} (before after : List UInt8)
    (hattrs : ∀ attr ∈ attrs, attr.type ≠ attrType) :
    Searches (before ++ (attrs.flatMap Attr.bytes ++ after)) before.length
        (before ++ attrs.flatMap Attr.bytes).length attrType ↔
      nlaLen (before ++ (attrs.flatMap Attr.bytes ++ after))
        (before ++ attrs.flatMap Attr.bytes).length ≠ 0 := by
  have hreach := skips_attrs before after le_rfl hattrs
  constructor
  · intro h hzero
    have hinside := (h.at_zero hreach le_rfl hzero).2
    unfold attrSize at hinside
    omega
  · intro hlen
    have hnext := (le_nextAttr hlen).1
    exact .of_reach hreach (.of_failed ((Nat.lt_add_of_pos_right (by decide)).trans_le hnext))

end Hc.Netlink
