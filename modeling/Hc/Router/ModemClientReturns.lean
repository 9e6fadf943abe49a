import Hc.Router.ModemClientAck

/-!
# The end of a call

The failure exit of `modemClient_onFd` falls through to the normal exit, which sends the
command that waits and jumps back when that fails. After a write that was not complete a
command waits while there is no connection, and the two exits lead to each other for ever.
Every other call returns, if it does not break the assumption of `modemClient_ackPending`
and does not move a negative number of bytes.
-/

namespace Hc.ModemClient

variable {env : Env} {s s' : State} {lines : List Line} {lineStart : ℕ}

/-- The call returns. Neither breaking the assumption of `modemClient_ackPending` nor moving a
negative number of bytes counts as returning. -/
def Ends (env : Env) (s : State) : Prop :=
  ∃ s' lineStart, Returns env s s' lineStart ∧ 0 ≤ s'.receivedSize

/-! ## The exits -/

theorem step_done (env : Env) {c : State × Control} (h : c.2 = .done lineStart) :
    step env c = c := by
  obtain ⟨s, control⟩ := c
  obtain rfl : control = .done lineStart := h
  rfl

theorem step_of_undefined {c : State × Control} (h : c.2 = .undefined) : step env c = c := by
  obtain ⟨s, control⟩ := c
  obtain rfl : control = .undefined := h
  rfl

/-- The exits lead from `c` to the end of the call. -/
def Exits (env : Env) (c : State × Control) : Prop :=
  ∃ n s' lineStart, (step env)^[n] c = (s', .done lineStart)

theorem exits_out (h : Settled s) (lineStart : ℕ) : Exits env (s, .out lineStart) := by
  refine ⟨1, moveTail s lineStart, lineStart, ?_⟩
  change step env (s, .out lineStart) = _
  rw [step, processQueue_of_settled h]

theorem disconnect_settled (s : State) : Settled (disconnect s) ↔ Settled s := by
  unfold disconnect
  split
  next => exact Iff.rfl
  next => exact Iff.rfl

theorem Exits.of_step {c : State × Control} (h : Exits env (step env c)) : Exits env c := by
  obtain ⟨n, s', lineStart, hn⟩ := h
  exact ⟨n + 1, s', lineStart, hn⟩

theorem exits_fail (h : Settled s) (lineStart : ℕ) : Exits env (s, .fail lineStart) :=
  Exits.of_step (exits_out ((disconnect_settled s).mpr h) lineStart)

/-- With a command left to send at the failure exit, the two exits lead to each other
for ever: the connection is closed, so the command cannot be sent. -/
theorem not_exits_fail (h : ¬Settled s) (lineStart : ℕ) : ¬Exits env (s, .fail lineStart) := by
  have hloop : ∀ n, ∃ s', ¬Settled s' ∧
      ((step env)^[n] (s, .fail lineStart) = (s', .fail lineStart) ∨
        s'.connected = false ∧ (step env)^[n] (s, .fail lineStart) = (s', .out lineStart)) := by
    intro n
    induction n with
    | zero => exact ⟨s, h, .inl rfl⟩
    | succ n ih =>
        obtain ⟨s', hunsettled, hfail | ⟨hconnected, hout⟩⟩ := ih
        · refine ⟨disconnect s', mt (disconnect_settled s').mp hunsettled,
            .inr ⟨disconnect_connected s', ?_⟩⟩
          rw [Function.iterate_succ_apply', hfail, step]
        · obtain ⟨hfalse, -, hunsettled'⟩ : (processQueue env s').2 = false ∧ _ :=
            processQueue_disconnected hconnected hunsettled
          refine ⟨(processQueue env s').1, hunsettled', .inl ?_⟩
          rw [Function.iterate_succ_apply', hout, step]
          generalize processQueue env s' = result at hfalse
          obtain ⟨s'', ok⟩ := result
          obtain rfl : ok = false := hfalse
          rfl
  rintro ⟨n, s₁, l, hn⟩
  obtain ⟨s', -, hfail | ⟨-, hout⟩⟩ := hloop n
  · rw [hfail] at hn
    cases hn
  · rw [hout] at hn
    cases hn

theorem Exits.next {c : State × Control} (h : Exits env c) : Exits env (step env c) := by
  obtain ⟨n, s', lineStart, hn⟩ := h
  cases n with
  | zero =>
      have hstay := step_done env (congrArg Prod.snd hn)
      exact ⟨0, s', lineStart, hstay.trans hn⟩
  | succ n => exact ⟨n, s', lineStart, hn⟩

/-- A call that ends goes on to its end from everywhere. -/
theorem Exits.iterate {c : State × Control} (h : Exits env c) (n : ℕ) :
    Exits env ((step env)^[n] c) := by
  induction n with
  | zero => exact h
  | succ n ih =>
      rw [Function.iterate_succ_apply']
      exact ih.next

theorem not_exits_undefined {c : State × Control} (h : c.2 = .undefined) : ¬Exits env c := by
  rintro ⟨n, s', lineStart, hn⟩
  rw [Function.iterate_fixed (step_of_undefined h)] at hn
  rw [hn] at h
  cases h

/-! ## The lines -/

/-- The lines that a call comes to lead to its end: the position only moves forward, and
each exit finds nothing left to send. -/
theorem At.exits (hsound : Sound s) (hconnected : s.connected = true)
    (hanswers : NoSurplusAnswer env s) (hwrites : CompleteWrites env s)
    (h : At env s lines lineStart s') :
    Exits env (s', .line s.pendingCmdTag lineStart) := by
  generalize hmeasure : (callData env s).length - lineStart = k
  induction k using Nat.strong_induction_on generalizing lines lineStart s' with
  | _ k ih =>
      apply Exits.of_step
      rcases h.taken hsound hconnected with ⟨-, hout | hfail⟩ | ⟨line, n, hline, htaken⟩
      · rw [hout]
        exact exits_out h.linked.settled lineStart
      · rw [hfail]
        exact exits_fail h.linked.settled lineStart
      · generalize step env (s', .line s.pendingCmdTag lineStart) = result at htaken
        cases htaken with
        | surplus hanswer hqueue =>
            rw [hanswer] at hline
            exact absurd (hanswers _ _ _ h.comes hline) (h.queue_eq_nil_iff.mp hqueue)
        | full hfull => exact exits_fail h.linked.settled lineStart
        | short hfits hsent hshort hsame hunsettled =>
            rw [h.queue] at hfits hsent
            rw [h.log] at hshort
            exact absurd (hwrites _ _ _ _ h.comes hline hfits _ hsent) hshort
        | next haccepted hsame hqueue hlog hlinked =>
            obtain ⟨hpos, hnonempty, -⟩ := readLine_length hline
            have hleft := List.length_pos_of_ne_nil hnonempty
            rw [List.length_drop] at hleft
            exact ih _ (by omega) (h.next hline haccepted hsame hqueue hlog hlinked) rfl

theorem exits_enter (hsound : Sound s) (hconnected : s.connected = true)
    (hanswers : NoSurplusAnswer env s) (hwrites : CompleteWrites env s) :
    Exits env (enter env s) := by
  by_cases hread : readBytes env s = []
  · have henter : enter env s = (s, .fail 0) := if_pos hread
    rw [henter]
    exact exits_fail hsound.linked.settled 0
  · obtain ⟨henter, hat⟩ := enter_at hsound hread
    rw [henter]
    exact hat.exits hsound hconnected hanswers hwrites

/-- A write that is not complete leads to the failure exit with a command that waits. -/
theorem completeWrites_of_exits (hsound : Sound s) (hconnected : s.connected = true)
    (hexits : Exits env (enter env s)) : CompleteWrites env s := by
  intro lines lineStart line n hcomes hline hfits command hsent
  obtain ⟨k, s', hat, hk⟩ := hcomes.at hsound hconnected
  have hnext := hexits.iterate (k + 1)
  rw [Function.iterate_succ_apply', hk] at hnext
  have htaken := hat.takes hsound hconnected hline
  rw [← hat.queue] at hfits hsent
  rw [← hat.log]
  generalize step env (s', .line s.pendingCmdTag lineStart) = result at hnext htaken
  cases htaken with
  | surplus hanswer hqueue => exact absurd hnext (not_exits_undefined rfl)
  | full hfull => exact absurd hfits hfull
  | short hfits hsent' hshort hsame hunsettled =>
      exact absurd hnext (not_exits_fail hunsettled lineStart)
  | next haccepted hsame hqueue hlog hlinked => exact haccepted.complete command hsent

/-! ## The move -/

/-- An empty message is no command. -/
theorem parseSms_empty {rest number : List UInt8} {lineLength : ℕ} {isIpCommand : Bool}
    (h : parseSms rest lineLength = .sms (lineLength + 1) number isIpCommand) :
    isIpCommand = false := by
  obtain ⟨smsLength, -, hlength, hip⟩ := exists_smsLength h
  refine Bool.eq_false_iff.mpr fun hcommand => ?_
  have htwo := hip hcommand
  omega

/-- The bare header of an empty message is taken with one byte more than there is. -/
theorem readLine_bare {tag : Tag} {rest : List UInt8} (h : BareEmptySms rest) :
    readLine env tag rest = some (.other, rest.length + 1) := by
  obtain ⟨line, number, isIpCommand, rfl, hnewline, hcmgl, hparse⟩ := h
  have hline : (line ++ [10]).takeWhile (· != 10) = line := by
    rw [List.takeWhile_append_of_pos]
    · simp
    · intro c hc
      simpa using fun heq : c = 10 => hnewline (heq ▸ hc)
  have hne (text : List UInt8) (htext : text.take 7 ≠ ascii "+CMGL: ") : line ≠ text := by
    rintro rfl
    exact htext hcmgl
  have hwhole : line ≠ line ++ [10] := by simp
  unfold readLine
  simp only [hline]
  rw [if_neg fun h => hwhole h.1, if_neg (hne _ (by decide)), if_neg (hne _ (by decide)),
    if_neg (hne _ (by decide)), if_pos hcmgl, hparse]
  simp [parseSms_empty hparse]

/-- The position of the call is not before `bound`. -/
def Beyond (bound : ℕ) (c : State × Control) : Prop :=
  match c.2 with
  | .line _ lineStart => bound ≤ lineStart
  | .fail lineStart => bound ≤ lineStart
  | .out lineStart => bound ≤ lineStart
  | .done lineStart => bound ≤ lineStart
  | .undefined => True

theorem continueOrFail_beyond {bound n : ℕ} {tag : Tag} (result : State × Bool)
    (h : bound ≤ lineStart) : Beyond bound (continueOrFail result tag lineStart n) := by
  unfold continueOrFail
  split
  next => exact Nat.le_add_right_of_le h
  next => exact h

theorem step_beyond {bound : ℕ} {c : State × Control} (h : Beyond bound c) :
    Beyond bound (step env c) := by
  obtain ⟨s, control⟩ := c
  cases control with
  | line tag lineStart =>
      have hresult := handleLine_result env s tag lineStart
      rw [step]
      generalize handleLine env s tag lineStart = result at hresult
      cases hresult with
      | out hline => exact h
      | fail hline => exact h
      | undefined hline hack => exact trivial
      | answer hline hack => exact continueOrFail_beyond _ h
      | order hline => exact continueOrFail_beyond _ h
      | other hline => exact Nat.le_add_right_of_le h
  | fail lineStart => exact h
  | out lineStart =>
      rw [step]
      generalize processQueue env s = result
      obtain ⟨s', ok⟩ := result
      cases ok with
      | true => exact h
      | false => exact h
  | done lineStart => exact h
  | undefined => exact trivial

theorem iterate_beyond (env : Env) {bound : ℕ} {c : State × Control} (h : Beyond bound c) (n : ℕ) :
    Beyond bound ((step env)^[n] c) := by
  induction n with
  | zero => exact h
  | succ n ih =>
      rw [Function.iterate_succ_apply']
      exact step_beyond ih

/-- A call returns behind every line that it is at. -/
theorem Returns.le_lineStart {k : ℕ} {tag : Tag} {bound : ℕ} {s₁ : State}
    (h : Returns env s s' lineStart)
    (hk : (step env)^[k] (enter env s) = (s₁, .line tag bound)) : bound ≤ lineStart := by
  obtain ⟨n, hn⟩ := h
  rcases Nat.le_total k n with hle | hle
  · obtain ⟨m, rfl⟩ := Nat.exists_eq_add_of_le hle
    have hbeyond := iterate_beyond env (c := (s₁, .line tag bound)) le_rfl m
    rw [← hk, ← Function.iterate_add_apply, Nat.add_comm, hn] at hbeyond
    exact hbeyond
  · obtain ⟨m, rfl⟩ := Nat.exists_eq_add_of_le hle
    rw [Nat.add_comm, Function.iterate_add_apply, hn,
      Function.iterate_fixed (step_done env (congrArg Prod.snd rfl))] at hk
    cases hk

theorem noBareEmptySms_of_ends (hsound : Sound s) (hconnected : s.connected = true)
    (hends : Ends env s) : NoBareEmptySms env s := by
  intro lines lineStart hcomes hbare
  obtain ⟨s', l, hreturns, hmoved⟩ := hends
  have hother := hcomes.next (readLine_bare hbare) ⟨nofun, trivial, nofun⟩
  obtain ⟨k, s₁, -, hk⟩ := hother.at hsound hconnected
  have hposition := hreturns.le_lineStart hk
  have hsize := hreturns.receivedSize hsound hconnected
  have hlength := length_callData env hsound.nonneg hsound.le
  obtain ⟨line, -, -, hrest, -⟩ := hbare
  have hnonempty := congrArg List.length hrest
  rw [List.length_drop, List.length_append, List.length_singleton] at hnonempty
  rw [List.length_drop] at hposition
  omega

/-- In every reachable state, a call returns if and only if no answer that it comes to is one
too many, every command that it writes is written in full, and no line that it comes to is a
bare header of an empty message. -/
theorem onFd_ends_iff (hreachable : Reachable s) (hconnected : s.connected = true) :
    Ends env s ↔ NoSurplusAnswer env s ∧ CompleteWrites env s ∧ NoBareEmptySms env s := by
  have hsound := hreachable.sound hconnected
  constructor
  · intro hends
    obtain ⟨s', lineStart, ⟨n, hn⟩, -⟩ := id hends
    have hexits : Exits env (enter env s) := ⟨n, s', lineStart, hn⟩
    refine ⟨?_, completeWrites_of_exits hsound hconnected hexits,
      noBareEmptySms_of_ends hsound hconnected hends⟩
    exact noSurplusAnswer_of_acksPending hsound hconnected
      fun k hk => not_exits_undefined hk (hexits.iterate k)
  · rintro ⟨hanswers, hwrites, hno⟩
    obtain ⟨n, s', lineStart, hn⟩ := exits_enter hsound hconnected hanswers hwrites
    have hreturns : Returns env s s' lineStart := ⟨n, hn⟩
    refine ⟨s', lineStart, hreturns, ?_⟩
    obtain ⟨s₁, hleft, -, -⟩ := hreturns.left hsound hconnected
    have hstart := hleft.lineStart_le hno
    have hlength := length_callData env hsound.nonneg hsound.le
    rw [hreturns.receivedSize hsound hconnected]
    omega

/-- A call that reads the answer to a command. -/
theorem onFd_ends_iff_answer :
    let env := completeEnv (ascii "OK\n")
    let s := onTimerFd (completeEnv []) fresh
    Ends env s ↔ NoSurplusAnswer env s ∧ CompleteWrites env s ∧ NoBareEmptySms env s :=
  onFd_ends_iff (.timer _ (.init rfl)) (by decide)

/-- The next command cannot be written after an answer: the call never ends. -/
theorem onFd_not_ends : ∃ s env, Reachable s ∧ s.connected = true ∧ ¬Ends env s := by
  let env : Env := { completeEnv (ascii "OK\n") with write := fun _ _ => 0 }
  let s := onTimerFd (completeEnv []) fresh
  refine ⟨s, env, .timer _ (.init rfl), by decide, ?_⟩
  rintro ⟨s', lineStart, ⟨n, hn⟩, -⟩
  have hends : Exits env (enter env s) := ⟨n, s', lineStart, hn⟩
  have hexits : Exits env (step env (enter env s)) := hends.next
  have hfail : (step env (enter env s)).2 = .fail 0 := by decide
  have hunsettled : ¬Settled (step env (enter env s)).1 := by
    unfold Settled
    decide
  generalize step env (enter env s) = next at hfail hunsettled hexits
  obtain ⟨state, position⟩ := next
  obtain rfl : position = .fail 0 := hfail
  exact not_exits_fail hunsettled 0 hexits

end Hc.ModemClient
