import Hc.Router.ModemClientCall

/-!
# Answers without a command

`modemClient_onFd` reads the tag of the pending command once, before the first line, and
compares every answer of the call with it. An answer that comes after the last queued
command was acknowledged in the same call still passes the comparison, and
`modemClient_ackPending` is entered without a pending command. No other line breaks its
assumption.
-/

namespace Hc.ModemClient

variable {env : Env} {s s' : State} {lines : List Line} {lineStart : ℕ}

/-- The call enters `modemClient_ackPending` only while a command is pending. -/
def AcksPending (env : Env) (s : State) : Prop :=
  ∀ n, ((step env)^[n] (enter env s)).2 ≠ .undefined

/-- An answer finds an empty queue exactly if as many answers came before as there are
commands. -/
theorem At.queue_eq_nil_iff (h : At env s lines lineStart s') :
    s'.queue = [] ↔
      ¬lines.count .answer < s.queue.length + (lines.flatMap Line.ordered).length := by
  have hlength := h.comes.length_queueAfter
  rw [h.queue, ← List.length_eq_zero_iff]
  omega

/-- The handler breaks the assumption at an answer that finds the queue empty. -/
theorem step_undefined {c : State × Control} (hsound : Sound s) (hconnected : s.connected = true)
    (hcall : InCall env s c) (hc : c.2 ≠ .undefined) (h : (step env c).2 = .undefined) :
    ∃ lines lineStart n, At env s lines lineStart c.1 ∧ c.1.queue = [] ∧
      readLine env s.pendingCmdTag ((callData env s).drop lineStart) = some (.answer, n) := by
  obtain ⟨s', control⟩ := c
  cases control with
  | line tag lineStart =>
      obtain ⟨rfl, lines, hat⟩ := hcall
      rcases hat.taken hsound hconnected with ⟨-, hout | hfail⟩ | ⟨line, n, hline, htaken⟩
      · rw [hout] at h
        cases h
      · rw [hfail] at h
        cases h
      · generalize step env (s', .line s.pendingCmdTag lineStart) = result at h htaken
        cases htaken with
        | surplus hanswer hqueue =>
            rw [hanswer] at hline
            exact ⟨lines, lineStart, n, hat, hqueue, hline⟩
        | full hfull => cases h
        | short hfits hsent hshort hsame hunsettled => cases h
        | next haccepted hsame hqueue hlog hlinked => cases h
  | fail lineStart => cases h
  | out lineStart =>
      rw [step] at h
      generalize processQueue env s' = result at h
      obtain ⟨s₁, ok⟩ := result
      cases ok with
      | true => cases h
      | false => cases h
  | done lineStart => cases h
  | undefined => exact absurd rfl hc

theorem enter_ne_undefined (env : Env) (s : State) : (enter env s).2 ≠ .undefined := by
  unfold enter
  split
  next => simp
  next => simp

/-- An answer that finds the queue empty breaks the assumption. -/
theorem noSurplusAnswer_of_acksPending (hsound : Sound s) (hconnected : s.connected = true)
    (hacks : AcksPending env s) : NoSurplusAnswer env s := by
  intro lines lineStart n hcomes hanswer
  obtain ⟨k, s', hat, hk⟩ := hcomes.at hsound hconnected
  by_contra hsurplus
  have hqueue := hat.queue_eq_nil_iff.mpr hsurplus
  apply hacks (k + 1)
  rw [Function.iterate_succ_apply', hk]
  have htaken := hat.takes hsound hconnected hanswer
  generalize step env (s', .line s.pendingCmdTag lineStart) = result at htaken
  cases htaken with
  | surplus hanswer hqueue => rfl
  | full hfull => exact absurd trivial hfull
  | short hfits hsent hshort hsame hunsettled =>
      rw [hqueue] at hsent
      cases hsent
  | next haccepted hsame hqueue' hlog hlinked => exact absurd hqueue (haccepted.command rfl)

theorem acksPending_of_noSurplusAnswer (hsound : Sound s) (hconnected : s.connected = true)
    (hanswers : NoSurplusAnswer env s) : AcksPending env s := by
  intro n
  induction n with
  | zero => exact enter_ne_undefined env s
  | succ n ih =>
      intro hundefined
      rw [Function.iterate_succ_apply'] at hundefined
      obtain ⟨lines, lineStart, k, hat, hqueue, hline⟩ :=
        step_undefined hsound hconnected (iterate_inCall env hsound hconnected n) ih hundefined
      exact hat.queue_eq_nil_iff.mp hqueue (hanswers lines lineStart k hat.comes hline)

/-- In every reachable state, a call enters `modemClient_ackPending` only while a command is
pending if and only if no answer of the data that it comes to is one too many for the
commands. -/
theorem acksPending_iff (hreachable : Reachable s) (hconnected : s.connected = true) :
    AcksPending env s ↔ NoSurplusAnswer env s :=
  have hsound := hreachable.sound hconnected
  ⟨noSurplusAnswer_of_acksPending hsound hconnected,
    acksPending_of_noSurplusAnswer hsound hconnected⟩

/-- The first answer of a connection comes to a queue of two commands. -/
theorem acksPending_iff_answer :
    AcksPending (completeEnv (ascii "OK\n")) (onTimerFd (completeEnv []) fresh) ↔
      NoSurplusAnswer (completeEnv (ascii "OK\n")) (onTimerFd (completeEnv []) fresh) :=
  acksPending_iff (.timer _ (.init rfl)) (by decide)

/-- Three answers in one read, while two commands are queued. -/
theorem onFd_surplus_answer :
    ∃ s env, Reachable s ∧ s.connected = true ∧ ¬AcksPending env s := by
  let env := completeEnv (ascii "OK\nOK\nOK\n")
  let s := onTimerFd (completeEnv []) fresh
  refine ⟨s, env, .timer _ (.init rfl), by decide, fun hacks => hacks 3 ?_⟩
  decide

end Hc.ModemClient
