import Mathlib.Data.Finset.Card
import Mathlib.Data.Finset.Image
import Mathlib.Order.Interval.Finset.Nat

/-!
# Tables with least-recently-used replacement

A table has `n` slots, each with a key and the time of its last use; the time zero means that
the slot was never used, whatever its key. A request for a key takes the first slot with that
key, or else, if it may, the oldest slot. The keys of used slots are then distinct, and a slot
changes its key only after `n` other keys were served since its last use.
-/

namespace Hc.LruTable

variable {K : Type}

structure Slot (K : Type) where
  time : ℤ
  key : K

/-- A request that was served: when, for which key, and with which slot. -/
structure Serve (K : Type) where
  time : ℤ
  key : K
  index : ℕ

/-- What a request for `key` at the time `now` does to a table of `n` slots. -/
inductive Step (n : ℕ) (slots : ℕ → Slot K) (now : ℤ) (key : K) :
    (ℕ → Slot K) → Option ℕ → Prop where
  | hit {i : ℕ} (hi : i < n) (hkey : (slots i).key = key) (hfirst : ∀ j < i, (slots j).key ≠ key) :
      Step n slots now key (Function.update slots i ⟨now, key⟩) (some i)
  | evict {i : ℕ} (hi : i < n) (hmiss : ∀ j < n, (slots j).key ≠ key)
      (holdest : ∀ j < n, (slots i).time ≤ (slots j).time) :
      Step n slots now key (Function.update slots i ⟨now, key⟩) (some i)
  | miss (hmiss : ∀ j < n, (slots j).key ≠ key) : Step n slots now key slots none

/-- Requests at positive times that never decrease, with the time of the last one and the
requests that were served. -/
inductive Run (n : ℕ) : (ℕ → Slot K) → ℤ → List (Serve K) → Prop where
  | start {slots : ℕ → Slot K} (hunused : ∀ i < n, (slots i).time = 0) : Run n slots 0 []
  | serve {slots slots' : ℕ → Slot K} {last now : ℤ} {history : List (Serve K)} {key : K} {i : ℕ}
      (h : Run n slots last history) (hpos : 0 < now) (hle : last ≤ now)
      (hstep : Step n slots now key slots' (some i)) : Run n slots' now (history ++ [⟨now, key, i⟩])
  | miss {slots slots' : ℕ → Slot K} {last now : ℤ} {history : List (Serve K)} {key : K}
      (h : Run n slots last history) (hpos : 0 < now) (hle : last ≤ now)
      (hstep : Step n slots now key slots' none) : Run n slots' now history

/-- The invariant of a table: every used slot was last used by a request in the history, and
no slot before it has its key. -/
structure Inv (n : ℕ) (slots : ℕ → Slot K) (last : ℤ) (history : List (Serve K)) : Prop where
  used : ∀ i < n, (slots i).time = 0 ∨
    0 < (slots i).time ∧ ⟨(slots i).time, (slots i).key, i⟩ ∈ history
  first : ∀ j < n, (slots j).time ≠ 0 → ∀ i < j, (slots i).key ≠ (slots j).key
  le_last : ∀ i < n, (slots i).time ≤ last

variable {n i : ℕ} {slots slots' : ℕ → Slot K} {last now : ℤ} {history : List (Serve K)} {key : K}

/-- Both ways to serve a request write one slot, and no other used slot has the key. -/
theorem Step.served (h : Step n slots now key slots' (some i)) (hinv : Inv n slots last history) :
    i < n ∧ slots' = Function.update slots i ⟨now, key⟩ ∧ (∀ j < i, (slots j).key ≠ key) ∧
      ∀ j < n, i < j → (slots j).time ≠ 0 → (slots j).key ≠ key := by
  cases h with
  | hit hi hkey hfirst =>
      refine ⟨hi, rfl, hfirst, ?_⟩
      intro j hj hij hused hsame
      exact hinv.first j hj hused i hij (hkey.trans hsame.symm)
  | evict hi hmiss holdest =>
      exact ⟨hi, rfl, fun j hj => hmiss j (hj.trans hi), fun j hj _ _ => hmiss j hj⟩

theorem Inv.serve (hinv : Inv n slots last history) (hpos : 0 < now) (hle : last ≤ now)
    (h : Step n slots now key slots' (some i)) :
    Inv n slots' now (history ++ [⟨now, key, i⟩]) := by
  obtain ⟨hi, rfl, hbefore, hafter⟩ := h.served hinv
  have hself : Function.update slots i ⟨now, key⟩ i = ⟨now, key⟩ := Function.update_self ..
  have hother {j : ℕ} (hj : j ≠ i) : Function.update slots i ⟨now, key⟩ j = slots j :=
    Function.update_of_ne hj ..
  constructor
  · intro j hj
    rcases eq_or_ne j i with rfl | hne
    · rw [hself]
      exact .inr ⟨hpos, List.mem_append_right _ List.mem_cons_self⟩
    · rw [hother hne]
      exact (hinv.used j hj).imp_right fun h => ⟨h.1, List.mem_append_left _ h.2⟩
  · intro j hj hused k hk
    rcases eq_or_ne j i with rfl | hne
    · rw [hself, hother hk.ne]
      exact hbefore k hk
    · rw [hother hne] at hused ⊢
      rcases eq_or_ne k i with rfl | hne'
      · rw [hself]
        exact (hafter j hj hk hused).symm
      · rw [hother hne']
        exact hinv.first j hj hused k hk
  · intro j hj
    rcases eq_or_ne j i with rfl | hne
    · rw [hself]
    · rw [hother hne]
      exact (hinv.le_last j hj).trans hle

theorem Run.inv (h : Run n slots last history) : Inv n slots last history := by
  induction h with
  | start hunused =>
      refine ⟨fun i hi => .inl (hunused i hi), fun j hj hused => absurd (hunused j hj) hused, ?_⟩
      intro i hi
      rw [hunused i hi]
  | serve _ hpos hle hstep ih => exact ih.serve hpos hle hstep
  | miss _ _ hle hstep ih =>
      cases hstep with
      | miss hmiss => exact ⟨ih.used, ih.first, fun i hi => (ih.le_last i hi).trans hle⟩

theorem Run.index_lt (h : Run n slots last history) : ∀ e ∈ history, e.index < n := by
  induction h with
  | start => nofun
  | serve h _ _ hstep ih =>
      intro e he
      rcases List.mem_append.mp he with he | he
      · exact ih e he
      · rw [List.mem_singleton.mp he]
        exact (hstep.served h.inv).1
  | miss _ _ _ _ ih => exact ih

/-- The keys of used slots are distinct. -/
theorem Inv.key_ne (hinv : Inv n slots last history) {i j : ℕ} (hi : i < n) (hj : j < n)
    (hne : i ≠ j) (hused : (slots i).time ≠ 0) (hused' : (slots j).time ≠ 0) :
    (slots i).key ≠ (slots j).key := by
  rcases Nat.lt_or_gt_of_ne hne with hlt | hgt
  · exact hinv.first j hj hused' i hlt
  · exact (hinv.first i hi hused j hgt).symm

/-! ## Replacement -/

/-- The keys were all served in the given time. -/
def ServedWithin (history : List (Serve K)) (keys : Finset K) (first last : ℤ) : Prop :=
  ∀ key ∈ keys, ∃ e ∈ history, e.key = key ∧ first ≤ e.time ∧ e.time ≤ last

/-- When a used slot gets another key, every slot holds a key that was served since the last
use of that slot. -/
theorem Inv.servedWithin (hinv : Inv n slots last history) (hle : last ≤ now) (hi : i < n)
    (hused : (slots i).time ≠ 0) (hmiss : ∀ j < n, (slots j).key ≠ key)
    (holdest : ∀ j < n, (slots i).time ≤ (slots j).time) :
    ∃ keys : Finset K, keys.card = n ∧ key ∉ keys ∧
      ServedWithin history keys (slots i).time now := by
  classical
  have hpos : 0 < (slots i).time := (hinv.used i hi).resolve_left hused |>.1
  have hallUsed : ∀ j < n, (slots j).time ≠ 0 := fun j hj => (hpos.trans_le (holdest j hj)).ne'
  refine ⟨(Finset.range n).image fun j => (slots j).key, ?_, ?_, ?_⟩
  · rw [Finset.card_image_of_injOn, Finset.card_range]
    intro j hj k hk hsame
    by_contra hne
    have hj' := Finset.mem_range.mp hj
    have hk' := Finset.mem_range.mp hk
    exact hinv.key_ne hj' hk' hne (hallUsed j hj') (hallUsed k hk') hsame
  · intro hmem
    obtain ⟨j, hj, hsame⟩ := Finset.mem_image.mp hmem
    exact hmiss j (Finset.mem_range.mp hj) hsame
  · intro k hk
    obtain ⟨j, hj, rfl⟩ := Finset.mem_image.mp hk
    have hj' := Finset.mem_range.mp hj
    have hserve := (hinv.used j hj').resolve_left (hallUsed j hj')
    exact ⟨_, hserve.2, rfl, holdest j hj', (hinv.le_last j hj').trans hle⟩

/-! ## Leases -/

/-- No time of the given length sees more keys than there are slots. -/
def Uncrowded (n : ℕ) (lease : ℤ) (history : List (Serve K)) : Prop :=
  ∀ (first : ℤ) (keys : Finset K),
    (∀ key ∈ keys, ∃ e ∈ history, e.key = key ∧ first ≤ e.time ∧ e.time < first + lease) →
      keys.card ≤ n

theorem Uncrowded.of_append {lease : ℤ} {more : List (Serve K)}
    (h : Uncrowded n lease (history ++ more)) : Uncrowded n lease history := by
  intro first keys hkeys
  refine h first keys fun key hkey => ?_
  obtain ⟨e, he, hrest⟩ := hkeys key hkey
  exact ⟨e, List.mem_append_left _ he, hrest⟩

/-- Every served request still holds its slot, or its lease has run out. -/
structure Leases (n : ℕ) (lease : ℤ) (slots : ℕ → Slot K) (last : ℤ) (history : List (Serve K)) :
    Prop where
  pos : ∀ e ∈ history, 0 < e.time
  holds : ∀ e ∈ history, e.key = (slots e.index).key ∧ e.time ≤ (slots e.index).time ∨
    e.time + lease ≤ last
  pairwise : history.Pairwise fun e e' =>
    e.index = e'.index → e.key ≠ e'.key → e.time + lease ≤ e'.time

variable {lease : ℤ}

/-- A slot that gets another key is not leased any more. -/
theorem Leases.expired (hinv : Inv n slots last history)
    (hleases : Leases n lease slots last history) (hle : last ≤ now)
    (hstep : Step n slots now key slots' (some i))
    (huncrowded : Uncrowded n lease (history ++ [⟨now, key, i⟩])) {e : Serve K}
    (he : e ∈ history) (hindex : e.index = i) (hne : e.key ≠ key) : e.time + lease ≤ now := by
  subst hindex
  rcases hleases.holds e he with ⟨hkey, htime⟩ | hover
  · cases hstep with
    | hit hi hsame hfirst => exact absurd (hkey.trans hsame) hne
    | evict hi hmiss holdest =>
        have hused : (slots e.index).time ≠ 0 := ((hleases.pos e he).trans_le htime).ne'
        obtain ⟨keys, hcard, hnotin, hserved⟩ := hinv.servedWithin hle hi hused hmiss holdest
        by_contra hrunning
        -- The `n` keys of the table and the new one were all served within one lease.
        have hwindow := huncrowded (slots e.index).time (keys.cons key hnotin) ?_
        · rw [Finset.card_cons, hcard] at hwindow
          omega
        · intro k hk
          rcases Finset.mem_cons.mp hk with rfl | hk
          · refine ⟨_, List.mem_append_right _ List.mem_cons_self, rfl, ?_, ?_⟩
            · exact (hinv.le_last _ hi).trans hle
            · dsimp only
              omega
          · obtain ⟨e', he', hkey', hfrom, hto⟩ := hserved k hk
            exact ⟨e', List.mem_append_left _ he', hkey', hfrom, by omega⟩
  · exact hover.trans hle

theorem Leases.serve (hinv : Inv n slots last history)
    (hleases : Leases n lease slots last history) (hpos : 0 < now) (hle : last ≤ now)
    (hstep : Step n slots now key slots' (some i))
    (huncrowded : Uncrowded n lease (history ++ [⟨now, key, i⟩])) :
    Leases n lease slots' now (history ++ [⟨now, key, i⟩]) := by
  have hexpired {e : Serve K} : e ∈ history → e.index = i → e.key ≠ key → e.time + lease ≤ now :=
    Leases.expired hinv hleases hle hstep huncrowded
  obtain ⟨hi, rfl, -, -⟩ := hstep.served hinv
  have hself : Function.update slots i ⟨now, key⟩ i = ⟨now, key⟩ := Function.update_self ..
  constructor
  · intro e he
    rcases List.mem_append.mp he with he | he
    · exact hleases.pos e he
    · rw [List.mem_singleton.mp he]
      exact hpos
  · intro e he
    rcases List.mem_append.mp he with he | he
    · by_cases hindex : e.index = i
      · by_cases hkey : e.key = key
        · refine (hleases.holds e he).imp (fun h => ?_) (fun h => h.trans hle)
          rw [hindex] at h ⊢
          rw [hself]
          exact ⟨hkey, h.2.trans ((hinv.le_last i hi).trans hle)⟩
        · exact .inr (hexpired he hindex hkey)
      · rw [Function.update_of_ne hindex]
        exact (hleases.holds e he).imp_right fun h => h.trans hle
    · rw [List.mem_singleton.mp he, hself]
      exact .inl ⟨rfl, le_rfl⟩
  · rw [List.pairwise_append]
    refine ⟨hleases.pairwise, List.pairwise_singleton _ _, ?_⟩
    intro e he e' he' hindex hne
    rw [List.mem_singleton.mp he'] at hindex hne ⊢
    exact hexpired he hindex hne

/-- If no lease time sees more keys than there are slots, no slot goes to another key while
its lease is running. -/
theorem Run.leases (h : Run n slots last history) (huncrowded : Uncrowded n lease history) :
    Leases n lease slots last history := by
  induction h with
  | start => exact ⟨nofun, nofun, List.Pairwise.nil⟩
  | serve h hpos hle hstep ih =>
      exact (ih huncrowded.of_append).serve h.inv hpos hle hstep huncrowded
  | miss h hpos hle hstep ih =>
      cases hstep with
      | miss hmiss =>
          have hleases := ih huncrowded
          exact ⟨hleases.pos, fun e he => (hleases.holds e he).imp_right fun h => h.trans hle,
            hleases.pairwise⟩

end Hc.LruTable
