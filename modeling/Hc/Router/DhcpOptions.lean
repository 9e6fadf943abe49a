import Hc.Router.DhcpServer
import Hc.Router.DhcpClient

/-!
# The options of a DHCP message

By RFC 2132 the code 0 (PAD) is a byte of its own, and the code 255 (END) ends the options. The loop
of the handlers takes both for options with a length. It finds the options of the standard as long
as the codes PAD come in pairs, and nothing that looks like an option follows the END.
-/

namespace Hc.Dhcp

abbrev padCode : ℕ := 0

/-- `dhcp_END`. -/
abbrev endCode : ℕ := 255

namespace Datagram

variable (datagram : Datagram)

/-- The code is neither PAD nor END. -/
abbrev IsOption (current : ℕ) : Prop :=
  datagram.optionCode current ≠ padCode ∧ datagram.optionCode current ≠ endCode

/-- Where an option ends, by its length. -/
def optionEnd (current : ℕ) : ℕ := current + 2 + datagram.optionLength current

theorem add_two_le_optionEnd (current : ℕ) : current + 2 ≤ datagram.optionEnd current :=
  Nat.le_add_right _ _

/-- The offsets of the options that the loop of the handlers finds from an offset on. -/
def optionsFrom (current : ℕ) : List ℕ :=
  if datagram.optionEnd current > datagram.numRead then []
  else if datagram.IsOption current then current :: optionsFrom (datagram.optionEnd current)
  else optionsFrom (datagram.optionEnd current)
termination_by datagram.numRead - current
decreasing_by all_goals have := datagram.add_two_le_optionEnd current; omega

/-- The offsets of the options from an offset on, by RFC 2132. An option that is cut off by the end
of the packet is none. -/
def standardFrom (current : ℕ) : List ℕ :=
  if current ≥ datagram.numRead then []
  else if datagram.optionCode current = padCode then standardFrom (current + 1)
  else if datagram.optionCode current = endCode then []
  else if datagram.optionEnd current > datagram.numRead then []
  else current :: standardFrom (datagram.optionEnd current)
termination_by datagram.numRead - current
decreasing_by all_goals have := datagram.add_two_le_optionEnd current; omega

/-! ## The loop of the handlers -/

/-- A loop that ignores PAD and END goes over the options. -/
theorem optionLoop_eq_foldl {σ : Type} {visit : σ → ℕ → σ}
    (hvisit : ∀ found current, ¬datagram.IsOption current → visit found current = found)
    {fuel current : ℕ} (found : σ) (hfuel : datagram.numRead < current + 2 * fuel) :
    datagram.optionLoop visit fuel current found =
      (datagram.optionsFrom current).foldl visit found := by
  induction fuel generalizing current found with
  | zero =>
      have hnext := datagram.add_two_le_optionEnd current
      rw [optionsFrom, if_pos (by omega)]
      rfl
  | succ fuel ih =>
      have hnext := datagram.add_two_le_optionEnd current
      rw [optionsFrom, optionLoop, ← optionEnd]
      split
      next => rfl
      next hend =>
        rw [ih _ (by omega)]
        split
        next => rfl
        next hcode => rw [hvisit found current hcode]

theorem findOptions_eq_foldl {σ : Type} {visit : σ → ℕ → σ}
    (hvisit : ∀ found current, ¬datagram.IsOption current → visit found current = found)
    (none : σ) :
    datagram.findOptions visit none = (datagram.optionsFrom headerSize).foldl visit none := by
  have hheader : headerSize = 240 := rfl
  exact datagram.optionLoop_eq_foldl hvisit none (by omega)

theorem le_of_mem_optionsFrom {current offset : ℕ} (h : offset ∈ datagram.optionsFrom current) :
    current ≤ offset := by
  fun_induction optionsFrom datagram current with
  | case1 => exact absurd h List.not_mem_nil
  | case2 current _ _ ih =>
      rcases List.mem_cons.mp h with rfl | h
      · exact le_rfl
      · exact (Nat.le_add_right _ 2).trans ((datagram.add_two_le_optionEnd current).trans (ih h))
  | case3 current _ _ ih =>
      exact (Nat.le_add_right _ 2).trans ((datagram.add_two_le_optionEnd current).trans (ih h))

/-! ## Where the readings agree -/

/-- Blocks of a code PAD or END, a length and as many bytes, up to one that is cut off. -/
inductive Blank : ℕ → Prop
  | cut {current : ℕ} (hend : datagram.optionEnd current > datagram.numRead) : Blank current
  | block {current : ℕ} (hend : ¬datagram.optionEnd current > datagram.numRead)
      (hcode : ¬datagram.IsOption current) (hrest : Blank (datagram.optionEnd current)) :
      Blank current

/-- Options and pairs of PAD, up to a rest that has no options by the standard and is blank. -/
inductive Aligned : ℕ → Prop
  | option {current : ℕ} (hcode : datagram.IsOption current)
      (hend : ¬datagram.optionEnd current > datagram.numRead)
      (hrest : Aligned (datagram.optionEnd current)) : Aligned current
  | pads {current : ℕ} (hpad : datagram.optionCode current = padCode)
      (hpad' : datagram.optionCode (current + 1) = padCode) (hend : current + 2 ≤ datagram.numRead)
      (hrest : Aligned (current + 2)) : Aligned current
  | rest {current : ℕ} (hstandard : datagram.standardFrom current = [])
      (hblank : Blank datagram current) : Aligned current

theorem blank_iff (current : ℕ) : datagram.Blank current ↔ datagram.optionsFrom current = [] := by
  constructor
  · intro h
    induction h with
    | cut hend => rw [optionsFrom, if_pos hend]
    | block hend hcode _ ih => rw [optionsFrom, if_neg hend, if_neg hcode, ih]
  · intro h
    fun_induction optionsFrom datagram current with
    | case1 current hend => exact .cut hend
    | case2 => exact absurd h (List.cons_ne_nil _ _)
    | case3 current hend hcode ih => exact .block hend hcode (ih h)

variable {datagram}

theorem optionsFrom_option {current : ℕ} (hcode : datagram.IsOption current)
    (hend : ¬datagram.optionEnd current > datagram.numRead) :
    datagram.optionsFrom current = current :: datagram.optionsFrom
      (datagram.optionEnd current) := by
  rw [optionsFrom, if_neg hend, if_pos hcode]

theorem standardFrom_option {current : ℕ} (hcode : datagram.IsOption current)
    (hend : ¬datagram.optionEnd current > datagram.numRead) :
    datagram.standardFrom current = current :: datagram.standardFrom
      (datagram.optionEnd current) := by
  have hnext := datagram.add_two_le_optionEnd current
  rw [standardFrom, if_neg (by omega), if_neg hcode.1, if_neg hcode.2, if_neg hend]

theorem standardFrom_pad {current : ℕ} (hpad : datagram.optionCode current = padCode)
    (hend : current < datagram.numRead) :
    datagram.standardFrom current = datagram.standardFrom (current + 1) := by
  rw [standardFrom, if_neg (by omega), if_pos hpad]

/-- Two PAD are an option without data to the loop. -/
theorem readings_pads {current : ℕ} (hpad : datagram.optionCode current = padCode)
    (hpad' : datagram.optionCode (current + 1) = padCode) (hend : current + 2 ≤ datagram.numRead) :
    datagram.optionsFrom current = datagram.optionsFrom (current + 2) ∧
      datagram.standardFrom current = datagram.standardFrom (current + 2) := by
  constructor
  · have hnext : datagram.optionEnd current = current + 2 := congrArg (current + 2 + ·) hpad'
    rw [optionsFrom, hnext, if_neg (by omega), if_neg fun hcode => hcode.1 hpad]
  · rw [standardFrom_pad hpad (by omega), standardFrom_pad hpad' (by omega)]

/-- An option that the standard finds begins with a PAD or is there at once. -/
theorem standardFrom_cases {current : ℕ} (h : datagram.standardFrom current ≠ []) :
    current < datagram.numRead ∧
      (datagram.optionCode current = padCode ∨
        datagram.IsOption current ∧ ¬datagram.optionEnd current > datagram.numRead) := by
  rw [standardFrom] at h
  split_ifs at h with hend hpad hcode hcut
  · exact absurd rfl h
  · exact ⟨by omega, .inl hpad⟩
  · exact absurd rfl h
  · exact absurd rfl h
  · exact ⟨by omega, .inr ⟨⟨hpad, hcode⟩, hcut⟩⟩

theorem optionsFrom_eq_of_aligned {current : ℕ} (h : datagram.Aligned current) :
    datagram.optionsFrom current = datagram.standardFrom current := by
  induction h with
  | option hcode hend _ ih => rw [optionsFrom_option hcode hend, standardFrom_option hcode hend, ih]
  | pads hpad hpad' hend _ ih =>
      obtain ⟨hoptions, hstandard⟩ := readings_pads hpad hpad' hend
      rw [hoptions, hstandard, ih]
  | rest hstandard hblank => rw [hstandard, (datagram.blank_iff _).mp hblank]

/-- An option directly behind a single PAD is jumped over. -/
theorem ne_of_single_pad {current : ℕ} (hpad : datagram.optionCode current = padCode)
    (hcode : datagram.IsOption (current + 1))
    (hend : ¬datagram.optionEnd (current + 1) > datagram.numRead) :
    datagram.optionsFrom current ≠ datagram.standardFrom current := by
  intro heq
  have hnext := datagram.add_two_le_optionEnd (current + 1)
  have hmem : current + 1 ∈ datagram.optionsFrom current := by
    rw [heq, standardFrom_pad hpad (by omega), standardFrom_option hcode hend]
    exact List.mem_cons_self
  rw [optionsFrom] at hmem
  split_ifs at hmem with hcut hoption
  · exact List.not_mem_nil hmem
  · exact hoption.1 hpad
  · have hle := datagram.le_of_mem_optionsFrom hmem
    exact absurd ((datagram.add_two_le_optionEnd current).trans hle) (by omega)

theorem aligned_of_optionsFrom_eq (current : ℕ)
    (h : datagram.optionsFrom current = datagram.standardFrom current) :
      datagram.Aligned current := by
  -- The induction is on the bytes that are left.
  induction hleft : datagram.numRead - current using Nat.strong_induction_on
    generalizing current with
  | _ left ih =>
      by_cases hnil : datagram.standardFrom current = []
      · exact .rest hnil ((datagram.blank_iff current).mpr (h.trans hnil))
      obtain ⟨hcurrent, hpad | ⟨hcode, hend⟩⟩ := standardFrom_cases hnil
      · rw [standardFrom_pad hpad hcurrent] at hnil
        obtain ⟨hnext, hpad' | ⟨hcode, hend⟩⟩ := standardFrom_cases hnil
        · obtain ⟨hoptions, hstandard⟩ := readings_pads hpad hpad' (by omega)
          rw [hoptions, hstandard] at h
          exact .pads hpad hpad' (by omega) (ih _ (by omega) _ h rfl)
        · exact absurd h (ne_of_single_pad hpad hcode hend)
      · have hnext := datagram.add_two_le_optionEnd current
        rw [optionsFrom_option hcode hend, standardFrom_option hcode hend] at h
        exact .option hcode hend (ih _ (by omega) _ (List.cons.inj h).2 rfl)

end Datagram

end Hc.Dhcp

namespace Hc

open Dhcp

/-! ## The handlers -/

theorem DhcpServer.visitOption_of_not_isOption {datagram : Datagram} (messageType : Option ℕ)
    (current : ℕ)
    (hcode : ¬datagram.IsOption current) :
    DhcpServer.visitOption datagram messageType current = messageType := by
  unfold DhcpServer.visitOption
  rw [if_neg]
  rintro ⟨hmessageType, -⟩
  exact hcode (by rw [Datagram.IsOption, hmessageType]; decide)

theorem DhcpClient.visitOption_of_not_isOption {datagram : Datagram} (found : DhcpClient.Options)
    (current : ℕ)
    (hcode : ¬datagram.IsOption current) : DhcpClient.visitOption datagram found current =
      found := by
  have hne (code : ℕ) (hoption : code ≠ padCode ∧ code ≠ endCode) :
      datagram.optionCode current ≠ code := by
    rintro rfl
    exact hcode hoption
  unfold DhcpClient.visitOption
  dsimp only
  rw [if_neg (hne _ (by decide)), if_neg (hne _ (by decide)), if_neg (hne _ (by decide)),
    if_neg (hne _ (by decide)), if_neg (hne _ (by decide))]

namespace Dhcp

/-- The options that the loops find, and those that the server and the client take of them, are
those of the standard. -/
def ReadsStandard (datagram : Datagram) : Prop :=
  let standard := datagram.standardFrom headerSize
  datagram.optionsFrom headerSize = standard ∧
    datagram.findOptions (DhcpServer.visitOption datagram) none =
      standard.foldl (DhcpServer.visitOption datagram) none ∧
    datagram.findOptions (DhcpClient.visitOption datagram) {} =
      standard.foldl (DhcpClient.visitOption datagram) {}

/-- The handlers read a packet as the standard does exactly if its options are options and pairs of
PAD, up to a rest without options by the standard that has no options for the loop either. -/
theorem readsStandard_iff (datagram : Datagram) :
    ReadsStandard datagram ↔ datagram.Aligned headerSize := by
  constructor
  · intro h
    exact Datagram.aligned_of_optionsFrom_eq headerSize h.1
  · intro h
    have hoptions := Datagram.optionsFrom_eq_of_aligned h
    refine ⟨hoptions, ?_, ?_⟩
    · rw [← hoptions, datagram.findOptions_eq_foldl DhcpServer.visitOption_of_not_isOption]
    · rw [← hoptions, datagram.findOptions_eq_foldl DhcpClient.visitOption_of_not_isOption]

/-- A message with the given bytes behind an empty header. -/
def optionsPacket (options : List UInt8) : Datagram where
  buffer := .replicate 240 0 ++ options
  numRead := 240 + options.length

/-- A DISCOVER behind a PAD is not found; a REQUEST behind the END is. -/
theorem not_readsStandard_pad_end :
    ¬ReadsStandard (optionsPacket [0, 53, 1, 1, 255]) ∧
      ¬ReadsStandard (optionsPacket [53, 1, 1, 255, 0, 53, 1, 3]) := by
  have hserver : ∀ options ∈
    ([[0, 53, 1, 1, 255], [53, 1, 1, 255, 0, 53, 1, 3]] : List (List UInt8)),
      (optionsPacket options).findOptions (DhcpServer.visitOption (optionsPacket options)) none ≠
        ((optionsPacket options).standardFrom headerSize).foldl
          (DhcpServer.visitOption (optionsPacket options)) none := by
    decide +kernel
  constructor
  · intro h
    exact hserver _ (by simp) h.2.1
  · intro h
    exact hserver _ (by simp) h.2.1

end Dhcp

end Hc
