import Hc.Router.ModemClientRun

/-!
# The calls of the modem client

What a call of `modemClient_onFd` comes to is determined by the data it has, the queue it
finds and the results of its writes. `Comes` says so without the handler: the lines are
read from the data, and the queue and the number of writes are counted along them. The
handler is at a line exactly if the call comes to it.
-/

namespace Hc.ModemClient

variable {env : Env} {s s' : State} {lines : List Line} {lineStart : ℕ}

/-- The data of a call: what was left in the buffer, and what `sys_read` stores behind it. -/
def callData (env : Env) (s : State) : List UInt8 := s.received ++ readBytes env s

/-- The queue after some lines. -/
def queueAfter (queue : List Command) (lines : List Line) : List Command :=
  lines.foldl Line.after queue

/-- The number of commands that are written because of some lines. -/
def writesOf : List Command → List Line → ℕ
  | _, [] => 0
  | queue, line :: lines => (line.sent queue).toList.length + writesOf (line.after queue) lines

/-- The call takes the lines, one after the other, and comes to the position behind them. -/
inductive Comes (env : Env) (s : State) : List Line → ℕ → Prop where
  | nil (hread : readBytes env s ≠ []) : Comes env s [] 0
  | next {lines : List Line} {lineStart n : ℕ} {line : Line} (h : Comes env s lines lineStart)
      (hline : readLine env s.pendingCmdTag ((callData env s).drop lineStart) = some (line, n))
      (haccepted : line.Accepted env (queueAfter s.queue lines)
        (s.log.length + writesOf s.queue lines)) :
      Comes env s (lines ++ [line]) (lineStart + n)

/-- No line that the call comes to is a bare header of an empty message. -/
def NoBareEmptySms (env : Env) (s : State) : Prop :=
  ∀ lines lineStart, Comes env s lines lineStart →
    ¬BareEmptySms ((callData env s).drop lineStart)

/-- When the call comes to an answer, fewer answers came before than there are commands: those
queued at the start of the call and those ordered since. -/
def NoSurplusAnswer (env : Env) (s : State) : Prop :=
  ∀ lines lineStart n, Comes env s lines lineStart →
    readLine env s.pendingCmdTag ((callData env s).drop lineStart) = some (.answer, n) →
    lines.count .answer < s.queue.length + (lines.flatMap Line.ordered).length

/-- Every write of a command that the call comes to is complete. -/
def CompleteWrites (env : Env) (s : State) : Prop :=
  ∀ lines lineStart line n, Comes env s lines lineStart →
    readLine env s.pendingCmdTag ((callData env s).drop lineStart) = some (line, n) →
    line.Fits (queueAfter s.queue lines) →
    ∀ command ∈ line.sent (queueAfter s.queue lines),
      env.write (s.log.length + writesOf s.queue lines) command.render.length =
        command.render.length

theorem queueAfter_concat (queue : List Command) (lines : List Line) (line : Line) :
    queueAfter queue (lines ++ [line]) = line.after (queueAfter queue lines) :=
  List.foldl_concat _ _ _ _

theorem writesOf_concat (queue : List Command) (lines : List Line) (line : Line) :
    writesOf queue (lines ++ [line]) =
      writesOf queue lines + (line.sent (queueAfter queue lines)).toList.length := by
  induction lines generalizing queue with
  | nil => exact Nat.add_comm _ _
  | cons first lines ih =>
      change _ + writesOf (first.after queue) (lines ++ [line]) = _
      rw [ih, ← Nat.add_assoc]
      rfl

/-- The commands that are not answered are in the queue. -/
theorem Comes.length_queueAfter (h : Comes env s lines lineStart) :
    (queueAfter s.queue lines).length + lines.count .answer =
      s.queue.length + (lines.flatMap Line.ordered).length := by
  induction h with
  | nil => rfl
  | @next lines lineStart n line h hline haccepted ih =>
      rw [queueAfter_concat, List.count_append, List.flatMap_append, List.length_append]
      cases line with
      | answer =>
          have hpos := List.length_pos_of_ne_nil (haccepted.command rfl)
          simp only [Line.after, List.length_tail, List.count_singleton_self,
            List.flatMap_singleton, Line.ordered, List.length_nil]
          omega
      | order new =>
          have hcount : List.count Line.answer [Line.order new] = 0 := rfl
          simp only [Line.after, List.length_append, hcount, List.flatMap_singleton, Line.ordered]
          omega
      | other =>
          have hcount : List.count Line.answer [Line.other] = 0 := rfl
          simp only [Line.after, hcount, List.flatMap_singleton, Line.ordered, List.length_nil]
          omega

/-- Without a bare header of an empty message the lines are within the data. -/
theorem Comes.lineStart_le (h : Comes env s lines lineStart) (hno : NoBareEmptySms env s) :
    lineStart ≤ (callData env s).length := by
  induction h with
  | nil => exact Nat.zero_le _
  | @next lines lineStart n line h hline haccepted ih =>
      obtain ⟨-, -, hfits | hbare⟩ := readLine_length hline
      · rw [List.length_drop] at hfits
        omega
      · exact absurd hbare (hno lines lineStart h)

/-! ## The entry -/

theorem length_received (hle : s.receivedSize ≤ 4096) :
    s.received.length = s.receivedSize.toNat := by
  rw [State.received, List.length_take, s.buffer.toList_length]
  omega

theorem length_callData (env : Env) (hnonneg : 0 ≤ s.receivedSize) (hle : s.receivedSize ≤ 4096) :
    ((callData env s).length : ℤ) = s.receivedSize + (readBytes env s).length := by
  rw [callData, List.length_append, length_received hle]
  omega

theorem enter_receivedSize (env : Env) (s : State) :
    (enter env s).1.receivedSize = s.receivedSize + (readBytes env s).length := by
  unfold enter
  split
  next hempty => simp [hempty]
  next => rfl

theorem enter_received (env : Env) (hnonneg : 0 ≤ s.receivedSize) (hle : s.receivedSize ≤ 4096) :
    (enter env s).1.received = callData env s := by
  unfold enter callData
  split
  next hempty => simp [hempty]
  next =>
    have hfits : s.receivedSize.toNat + (readBytes env s).length ≤ 4096 := by
      rw [readBytes, List.length_take]
      omega
    have hsize : (s.receivedSize + (readBytes env s).length).toNat =
        s.receivedSize.toNat + (readBytes env s).length := by omega
    rw [State.received, hsize, Bytes.take_write _ _ _ hfits, State.received]

theorem enter_receivedSize_le (env : Env) (hnonneg : 0 ≤ s.receivedSize)
    (hle : s.receivedSize ≤ 4096) : (enter env s).1.receivedSize ≤ 4096 := by
  rw [enter_receivedSize, readBytes, List.length_take]
  omega

/-! ## Where a call is -/

/-- A state from which a call can start. -/
structure Sound (s : State) : Prop where
  linked : Linked s
  nonneg : 0 ≤ s.receivedSize
  le : s.receivedSize ≤ 4096

/-- The call is at a line, in the state `s'`. -/
structure At (env : Env) (s : State) (lines : List Line) (lineStart : ℕ) (s' : State) : Prop where
  comes : Comes env s lines lineStart
  same : SameBuffer (enter env s).1 s'
  queue : s'.queue = queueAfter s.queue lines
  log : s'.log.length = s.log.length + writesOf s.queue lines
  linked : Linked s'

/-- The call has left its loop, in the state `s'`. -/
structure Left (env : Env) (s : State) (lineStart : ℕ) (s' : State) : Prop where
  position : lineStart = 0 ∨ ∃ lines, Comes env s lines lineStart
  buffer : s'.buffer = (enter env s).1.buffer
  receivedSize : s'.receivedSize = (enter env s).1.receivedSize
  owed : s'.pendingCommand = true → s'.queue ≠ []

theorem At.received (h : At env s lines lineStart s') (hsound : Sound s) :
    s'.received = callData env s :=
  h.same.received.trans (enter_received env hsound.nonneg hsound.le)

theorem At.connected (h : At env s lines lineStart s') (hconnected : s.connected = true) :
    s'.connected = true := by
  refine h.same.connected.trans ?_
  unfold enter
  split
  next => exact hconnected
  next => exact hconnected

theorem At.left (h : At env s lines lineStart s') : Left env s lineStart s' :=
  ⟨.inr ⟨lines, h.comes⟩, h.same.buffer, h.same.receivedSize, h.linked.mp⟩

theorem Left.of_same {s₁ : State} (h : Left env s lineStart s')
    (hbuffer : s₁.buffer = s'.buffer) (hsize : s₁.receivedSize = s'.receivedSize)
    (howed : s₁.pendingCommand = true → s₁.queue ≠ []) : Left env s lineStart s₁ :=
  ⟨h.position, hbuffer.trans h.buffer, hsize.trans h.receivedSize, howed⟩

/-- The handler takes the next line as `Comes` does. -/
theorem At.next {s₁ : State} {line : Line} {n : ℕ} (h : At env s lines lineStart s')
    (hline : readLine env s.pendingCmdTag ((callData env s).drop lineStart) = some (line, n))
    (haccepted : line.Accepted env s'.queue s'.log.length) (hsame : SameBuffer s' s₁)
    (hqueue : s₁.queue = line.after s'.queue)
    (hlog : s₁.log.length = s'.log.length + (line.sent s'.queue).toList.length)
    (hlinked : Linked s₁) : At env s (lines ++ [line]) (lineStart + n) s₁ := by
  rw [h.queue, h.log] at haccepted
  refine ⟨h.comes.next hline haccepted, h.same.trans hsame, ?_, ?_, hlinked⟩
  · rw [hqueue, h.queue, queueAfter_concat]
  · rw [hlog, h.log, h.queue, writesOf_concat, Nat.add_assoc]

/-- What one iteration of the loop does with a line that the call comes to. -/
theorem At.taken (h : At env s lines lineStart s') (hsound : Sound s)
    (hconnected : s.connected = true) :
    (readLine env s.pendingCmdTag ((callData env s).drop lineStart) = none ∧
      (step env (s', .line s.pendingCmdTag lineStart) = (s', .out lineStart) ∨
        step env (s', .line s.pendingCmdTag lineStart) = (s', .fail lineStart))) ∨
    ∃ line n,
      readLine env s.pendingCmdTag ((callData env s).drop lineStart) = some (line, n) ∧
      Taken env s' s.pendingCmdTag lineStart line n
        (step env (s', .line s.pendingCmdTag lineStart)) := by
  have htaken := handleLine_taken env h.linked (h.connected hconnected) s.pendingCmdTag
    lineStart
  rw [h.received hsound] at htaken
  exact htaken

/-- The handler takes the line that is read from the data. -/
theorem At.takes {line : Line} {n : ℕ} (h : At env s lines lineStart s') (hsound : Sound s)
    (hconnected : s.connected = true)
    (hline : readLine env s.pendingCmdTag ((callData env s).drop lineStart) = some (line, n)) :
    Taken env s' s.pendingCmdTag lineStart line n
      (step env (s', .line s.pendingCmdTag lineStart)) := by
  rcases h.taken hsound hconnected with ⟨hnone, -⟩ | ⟨line', n', hline', htaken⟩
  · rw [hnone] at hline
    cases hline
  · rw [hline'] at hline
    obtain ⟨rfl, rfl⟩ := Prod.mk.inj (Option.some.inj hline)
    exact htaken

/-- What holds of a call that started in `s`. -/
def InCall (env : Env) (s : State) (c : State × Control) : Prop :=
  match c.2 with
  | .line tag lineStart => tag = s.pendingCmdTag ∧ ∃ lines, At env s lines lineStart c.1
  | .fail lineStart => Left env s lineStart c.1
  | .out lineStart => Left env s lineStart c.1
  | .done lineStart => ∃ s₁, Left env s lineStart s₁ ∧ Linked s₁ ∧ c.1 = moveTail s₁ lineStart
  | .undefined => True

theorem disconnect_left (h : Left env s lineStart s') : Left env s lineStart (disconnect s') := by
  unfold disconnect
  split
  next => exact h.of_same rfl rfl h.owed
  next => exact h

theorem enter_at (hsound : Sound s) (hread : readBytes env s ≠ []) :
    enter env s = ((enter env s).1, .line s.pendingCmdTag 0) ∧
      At env s [] 0 (enter env s).1 := by
  refine ⟨?_, .nil hread, SameBuffer.refl _, ?_, ?_, ?_⟩
  · rw [enter, if_neg hread]
  · rw [enter, if_neg hread]
    rfl
  · rw [enter, if_neg hread]
    rfl
  · rw [enter, if_neg hread]
    exact hsound.linked

theorem enter_inCall (hsound : Sound s) : InCall env s (enter env s) := by
  by_cases hread : readBytes env s = []
  · have henter : enter env s = (s, .fail 0) := if_pos hread
    have hleft : Left env s 0 s := ⟨.inl rfl, by rw [henter], by rw [henter], hsound.linked.mp⟩
    rw [henter]
    exact hleft
  · obtain ⟨henter, hat⟩ := enter_at hsound hread
    rw [henter]
    exact ⟨rfl, [], hat⟩

theorem step_inCall {c : State × Control} (hsound : Sound s) (hconnected : s.connected = true)
    (h : InCall env s c) : InCall env s (step env c) := by
  obtain ⟨s', control⟩ := c
  cases control with
  | line tag lineStart =>
      obtain ⟨rfl, lines, hat⟩ := h
      rcases hat.taken hsound hconnected with ⟨-, hout | hfail⟩ | ⟨line, n, hline, htaken⟩
      · rw [hout]
        exact hat.left
      · rw [hfail]
        exact hat.left
      · generalize step env (s', .line s.pendingCmdTag lineStart) = result at htaken
        cases htaken with
        | surplus hline hqueue => exact trivial
        | full hfull => exact hat.left
        | short hfits hsent hshort hsame hunsettled =>
            exact hat.left.of_same hsame.buffer hsame.receivedSize
              fun hpending => absurd (.inl hpending) hunsettled
        | next haccepted hsame hqueue hlog hlinked =>
            exact ⟨rfl, _, hat.next hline haccepted hsame hqueue hlog hlinked⟩
  | fail lineStart => exact disconnect_left h
  | out lineStart =>
      have hsame := processQueue_sameBuffer env s'
      have hlinked := processQueue_linked env h.owed
      have howed := processQueue_owed env h.owed
      rw [step]
      generalize processQueue env s' = result at *
      obtain ⟨s₁, ok⟩ := result
      have hleft := h.of_same hsame.buffer hsame.receivedSize howed
      cases ok with
      | false => exact hleft
      | true => exact ⟨s₁, hleft, hlinked rfl, rfl⟩
  | done lineStart => exact h
  | undefined => exact trivial

theorem iterate_inCall (env : Env) (hsound : Sound s) (hconnected : s.connected = true) (n : ℕ) :
    InCall env s ((step env)^[n] (enter env s)) := by
  induction n with
  | zero => exact enter_inCall hsound
  | succ n ih =>
      rw [Function.iterate_succ_apply']
      exact step_inCall hsound hconnected ih

/-- The handler gets to every line that the call comes to. -/
theorem Comes.at (h : Comes env s lines lineStart) (hsound : Sound s)
    (hconnected : s.connected = true) : ∃ n s', At env s lines lineStart s' ∧
      (step env)^[n] (enter env s) = (s', .line s.pendingCmdTag lineStart) := by
  induction h with
  | nil hread =>
      obtain ⟨henter, hat⟩ := enter_at hsound hread
      exact ⟨0, _, hat, henter⟩
  | @next lines lineStart n line h hline haccepted ih =>
      obtain ⟨k, s', hat, hk⟩ := ih
      have htaken := hat.takes hsound hconnected hline
      rw [← hat.queue, ← hat.log] at haccepted
      rw [← hk, ← Function.iterate_succ_apply' (step env)] at htaken
      generalize hnext : (step env)^[k + 1] (enter env s) = result at htaken
      cases htaken with
      | surplus hanswer hqueue => exact absurd hqueue (haccepted.command hanswer)
      | full hfull => exact absurd haccepted.fits hfull
      | short hfits hsent hshort hsame hunsettled =>
          exact absurd (haccepted.complete _ hsent) hshort
      | next haccepted hsame hqueue hlog hlinked =>
          exact ⟨k + 1, _, hat.next hline haccepted hsame hqueue hlog hlinked, hnext⟩

/-! ## Runs -/

/-- A state that some run of events reaches. `modemClient_onFd` is called only while there is
a connection, and a call that moves a negative number of bytes does not return. -/
inductive Reachable : State → Prop where
  | init {s : State} (hconnected : s.connected = false) : Reachable s
  | timer {s : State} (env : Env) (h : Reachable s) : Reachable (onTimerFd env s)
  | readable {s s' : State} {lineStart : ℕ} (env : Env) (h : Reachable s)
      (hconnected : s.connected = true) (hreturns : Returns env s s' lineStart)
      (hmoved : 0 ≤ s'.receivedSize) : Reachable s'

/-- What holds of a state if it is connected; closing the connection establishes it. -/
def WhileConnected (P : State → Prop) (s : State) : Prop := s.connected = true → P s

theorem disconnect_connected (s : State) : (disconnect s).connected = false := by
  unfold disconnect
  split
  next => rfl
  next hconnected => simpa using hconnected

theorem whileConnected_disconnect (P : State → Prop) (s : State) :
    WhileConnected P (disconnect s) := by
  intro hconnected
  rw [disconnect_connected] at hconnected
  cases hconnected

theorem whileConnected_orOutFail {P : State → Prop} {result : State × Bool}
    {next : State → State} (h : result.2 = true → WhileConnected P (next result.1)) :
    WhileConnected P (orOutFail result next) := by
  unfold orOutFail
  split
  next hok => exact h hok
  next => exact whileConnected_disconnect P result.1

theorem queueConstant_sound {text : List UInt8} (h : Sound s)
    (hok : (queueConstant env s text).2 = true) : Sound (queueConstant env s text).1 := by
  rw [queueConstant_eq] at hok ⊢
  have hsame := enqueue_sameBuffer env s [.constant text]
  refine ⟨enqueue_linked h.linked hok, ?_, ?_⟩
  · rw [hsame.receivedSize]
    exact h.nonneg
  · rw [hsame.receivedSize]
    exact h.le

theorem onTimerFd_sound (env : Env) (h : WhileConnected Sound s) :
    WhileConnected Sound (onTimerFd env s) := by
  unfold onTimerFd
  split
  next hopen =>
    split
    next => exact whileConnected_disconnect _ s
    next => exact whileConnected_orOutFail fun hok _ => queueConstant_sound (h hopen) hok
  next =>
    split
    next =>
      dsimp only
      split
      next =>
        refine whileConnected_orOutFail fun hinit => whileConnected_orOutFail fun hpoll _ => ?_
        refine queueConstant_sound (queueConstant_sound ⟨.of_empty rfl rfl, le_rfl, ?_⟩ hinit) hpoll
        exact (by decide : (0 : ℤ) ≤ 4096)
      next => exact whileConnected_disconnect _ _
    next => exact h

/-- A call returns by moving what is left of the data to the front. -/
theorem Returns.left (h : Returns env s s' lineStart) (hsound : Sound s)
    (hconnected : s.connected = true) :
    ∃ s₁, Left env s lineStart s₁ ∧ Linked s₁ ∧ s' = moveTail s₁ lineStart := by
  obtain ⟨n, hn⟩ := h
  have hcall := iterate_inCall env hsound hconnected n
  rw [hn] at hcall
  exact hcall

theorem Left.lineStart_le (h : Left env s lineStart s') (hno : NoBareEmptySms env s) :
    lineStart ≤ (callData env s).length := by
  rcases h.position with rfl | ⟨lines, hcomes⟩
  · exact Nat.zero_le _
  · exact hcomes.lineStart_le hno

theorem Returns.receivedSize (h : Returns env s s' lineStart) (hsound : Sound s)
    (hconnected : s.connected = true) :
    s'.receivedSize = s.receivedSize + (readBytes env s).length - lineStart := by
  obtain ⟨s₁, hleft, -, rfl⟩ := h.left hsound hconnected
  rw [← enter_receivedSize, ← hleft.receivedSize]
  rfl

theorem Returns.sound (h : Returns env s s' lineStart) (hsound : Sound s)
    (hconnected : s.connected = true) (hmoved : 0 ≤ s'.receivedSize) : Sound s' := by
  have hle := enter_receivedSize_le env hsound.nonneg hsound.le
  rw [enter_receivedSize] at hle
  have hsize := h.receivedSize hsound hconnected
  obtain ⟨s₁, -, hlinked, rfl⟩ := h.left hsound hconnected
  exact ⟨hlinked, hmoved, by omega⟩

/-- Whatever the system calls return, a call can start while there is a connection. -/
theorem Reachable.sound (h : Reachable s) : WhileConnected Sound s := by
  induction h with
  | init hclosed =>
      intro hconnected
      rw [hclosed] at hconnected
      cases hconnected
  | timer env _ ih => exact onTimerFd_sound env ih
  | readable env _ hconnected hreturns hmoved ih =>
      exact fun _ => hreturns.sound (ih hconnected) hconnected hmoved

/-- A modem client before its first connection. -/
def fresh : State := ⟨false, 0, List.Vector.replicate 4096 0, [], false, []⟩

end Hc.ModemClient
