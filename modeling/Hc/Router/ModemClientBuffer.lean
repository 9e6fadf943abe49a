import Hc.Router.ModemClientCall

/-!
# The receive buffer of the modem client

A call takes lines from the front of its data and moves the rest to the front of the
buffer. Over the calls of a connection the buffer is what the modem sent less the lines
taken so far, as long as no line is the bare header of an empty text message: the code
then counts a newline that it has not received.
-/

namespace Hc.ModemClient

variable {env : Env} {s s' : State} {lineStart consumed : ℕ} {stream : List UInt8}

/-- The buffer holds exactly the bytes of the stream behind the first `consumed`. -/
structure Consistent (s : State) (stream : List UInt8) (consumed : ℕ) : Prop where
  nonneg : 0 ≤ s.receivedSize
  le : s.receivedSize ≤ 4096
  size : consumed + s.receivedSize = stream.length
  received : s.received = stream.drop consumed

/-- Moving the tail to the front keeps exactly the bytes that are not consumed. -/
theorem received_moveTail (hle : s.receivedSize ≤ 4096) (hstart : lineStart ≤ s.received.length) :
    (moveTail s lineStart).received = s.received.drop lineStart := by
  rw [length_received hle] at hstart
  have hsize : (s.receivedSize - lineStart).toNat = s.receivedSize.toNat - lineStart := by omega
  have hlength : ((s.buffer.toList.drop lineStart).take
      (s.receivedSize.toNat - lineStart)).length = s.receivedSize.toNat - lineStart := by
    rw [List.length_take, List.length_drop, s.buffer.toList_length]
    omega
  have htake := Bytes.take_write s.buffer 0 ((s.buffer.toList.drop lineStart).take
    (s.receivedSize.toNat - lineStart)) (by omega)
  rw [hlength, Nat.zero_add, List.take_zero, List.nil_append] at htake
  rw [State.received, moveTail]
  dsimp only
  rw [hsize, htake, State.received, List.drop_take]

/-- One call leaves exactly the data behind the lines that it has taken. -/
theorem Returns.received (h : Returns env s s' lineStart) (hsound : Sound s)
    (hconnected : s.connected = true) (hno : NoBareEmptySms env s) :
    lineStart ≤ (callData env s).length ∧ s'.received = (callData env s).drop lineStart := by
  obtain ⟨s₁, hleft, -, rfl⟩ := h.left hsound hconnected
  have hstart := hleft.lineStart_le hno
  have hreceived : s₁.received = callData env s := by
    rw [← enter_received env hsound.nonneg hsound.le, State.received, State.received,
      hleft.buffer, hleft.receivedSize]
  refine ⟨hstart, ?_⟩
  rw [received_moveTail, hreceived]
  · rw [hleft.receivedSize]
    exact enter_receivedSize_le env hsound.nonneg hsound.le
  · rwa [hreceived]

theorem Consistent.call (h : Consistent s stream consumed) (hreturns : Returns env s s' lineStart)
    (hsound : Sound s) (hconnected : s.connected = true) (hno : NoBareEmptySms env s) :
    Consistent s' (stream ++ readBytes env s) (consumed + lineStart) := by
  obtain ⟨hstart, hreceived⟩ := hreturns.received hsound hconnected hno
  have hsize := hreturns.receivedSize hsound hconnected
  have hlength := length_callData env hsound.nonneg hsound.le
  have hle := (hreturns.sound hsound hconnected (by omega)).le
  have hconsumed := h.size
  have hnonneg := h.nonneg
  refine ⟨by omega, hle, ?_, ?_⟩
  · rw [List.length_append]
    omega
  · have hdrop : (stream ++ readBytes env s).drop consumed =
        stream.drop consumed ++ readBytes env s :=
      List.drop_append_of_le_length (by omega)
    rw [hreceived, callData, h.received, ← List.drop_drop, hdrop]

/-! ## Runs -/

/-- A run in which no call comes to a bare header of an empty message, with the bytes
received on the current connection and the number of those that were taken as lines. -/
inductive Run : State → List UInt8 → ℕ → Prop where
  | init {s : State} (hconnected : s.connected = false) : Run s [] 0
  | timer {s : State} {stream : List UInt8} {consumed : ℕ} (env : Env)
      (h : Run s stream consumed) :
      Run (onTimerFd env s) (if s.connected then stream else [])
        (if s.connected then consumed else 0)
  | readable {s s' : State} {stream : List UInt8} {consumed lineStart : ℕ} (env : Env)
      (h : Run s stream consumed) (hconnected : s.connected = true)
      (hno : NoBareEmptySms env s) (hreturns : Returns env s s' lineStart) :
      Run s' (stream ++ readBytes env s) (consumed + lineStart)

theorem Consistent.queueConstant (h : Consistent s stream consumed) (env : Env)
    (text : List UInt8) : Consistent (queueConstant env s text).1 stream consumed := by
  rw [queueConstant_eq]
  have hsame := enqueue_sameBuffer env s [.constant text]
  refine ⟨?_, ?_, ?_, hsame.received.trans h.received⟩
  · rw [hsame.receivedSize]
    exact h.nonneg
  · rw [hsame.receivedSize]
    exact h.le
  · rw [hsame.receivedSize]
    exact h.size

theorem onTimerFd_consistent (env : Env) (h : WhileConnected (Consistent · stream consumed) s) :
    WhileConnected (Consistent · (if s.connected then stream else [])
      (if s.connected then consumed else 0)) (onTimerFd env s) := by
  unfold onTimerFd
  split
  next hopen =>
    split
    next => exact whileConnected_disconnect _ s
    next => exact whileConnected_orOutFail fun _ _ => (h hopen).queueConstant env smsPollCmd
  next hclosed =>
    split
    next =>
      dsimp only
      split
      next =>
        refine whileConnected_orOutFail fun _ => whileConnected_orOutFail fun _ _ => ?_
        apply Consistent.queueConstant
        apply Consistent.queueConstant
        exact ⟨le_rfl, (by decide : (0 : ℤ) ≤ 4096), rfl, rfl⟩
      next => exact whileConnected_disconnect _ _
    next => exact fun hconnected => absurd hconnected hclosed

theorem Run.sound (h : Run s stream consumed) :
    WhileConnected Sound s ∧ WhileConnected (Consistent · stream consumed) s := by
  induction h with
  | init hclosed =>
      have hno (P : State → Prop) : WhileConnected P _ := fun hconnected => by
        rw [hclosed] at hconnected
        cases hconnected
      exact ⟨hno _, hno _⟩
  | timer env _ ih => exact ⟨onTimerFd_sound env ih.1, onTimerFd_consistent env ih.2⟩
  | readable env _ hconnected hno hreturns ih =>
      have hsound := ih.1 hconnected
      have hafter := (ih.2 hconnected).call hreturns hsound hconnected hno
      exact ⟨fun _ => hreturns.sound hsound hconnected hafter.nonneg, fun _ => hafter⟩

/-- In a run in which no call comes to a bare header of an empty message, every call consumes
at most what it has received, and what it has not consumed is in the buffer: of its own data
and of everything received on the connection. -/
theorem onFd_consistent (hrun : Run s stream consumed) (hconnected : s.connected = true)
    (hno : NoBareEmptySms env s) (hreturns : Returns env s s' lineStart) :
    lineStart ≤ s.receivedSize + (readBytes env s).length ∧
      s.receivedSize + (readBytes env s).length ≤ 4096 ∧
      s'.receivedSize = s.receivedSize + (readBytes env s).length - lineStart ∧
      s'.received = (s.received ++ readBytes env s).drop lineStart ∧
      Consistent s' (stream ++ readBytes env s) (consumed + lineStart) := by
  have hsound := hrun.sound.1 hconnected
  obtain ⟨hstart, hreceived⟩ := hreturns.received hsound hconnected hno
  refine ⟨?_, ?_, hreturns.receivedSize hsound hconnected, hreceived, ?_⟩
  · rw [← length_callData env hsound.nonneg hsound.le]
    exact_mod_cast hstart
  · rw [← enter_receivedSize]
    exact enter_receivedSize_le env hsound.nonneg hsound.le
  · exact (hrun.sound.2 hconnected).call hreturns hsound hconnected hno

theorem Returns.of_done {n : ℕ} (h : ((step env)^[n] (enter env s)).2 = .done lineStart) :
    Returns env s ((step env)^[n] (enter env s)).1 lineStart :=
  ⟨n, Prod.ext rfl h⟩

/-- The call that reads a first answer, with the state it returns in. -/
theorem onFd_consistent_answer :
    let s := onTimerFd (completeEnv []) fresh
    let env := completeEnv (ascii "OK\n")
    let s' := ((step env)^[3] (enter env s)).1
    (3 : ℕ) ≤ s.receivedSize + (readBytes env s).length ∧
      s.receivedSize + (readBytes env s).length ≤ 4096 ∧
      s'.receivedSize = s.receivedSize + (readBytes env s).length - (3 : ℕ) ∧
      s'.received = (s.received ++ readBytes env s).drop 3 ∧
      Consistent s' ([] ++ readBytes env s) (0 + 3) := by
  intro s env s'
  have hdone : ((step env)^[3] (enter env s)).2 = .done 3 := by decide
  refine onFd_consistent (.timer _ (.init rfl)) (by decide) ?_ (Returns.of_done hdone)
  have hplus : 43 ∉ callData env s := by decide
  rintro lines lineStart - ⟨line, number, isIpCommand, hline, -, hcmgl, -⟩
  have hmem : (43 : UInt8) ∈ line.take 7 := by
    rw [hcmgl]
    decide
  apply hplus
  apply List.mem_of_mem_drop (i := lineStart)
  rw [hline]
  exact List.mem_append_left _ (List.mem_of_mem_take hmem)

/-- The header of an empty message at the end of the data: one byte more is consumed
than was received. -/
theorem onFd_receivedSize_negative :
    ∃ s env s' lineStart, Reachable s ∧ s.connected = true ∧ Returns env s s' lineStart ∧
      s'.receivedSize = -1 := by
  let env := completeEnv (ascii "+CMGL: 1,\"REC UNREAD\",\"+46\",,\"\",145,0\n")
  let s := onTimerFd (completeEnv []) fresh
  have hdone : ((step env)^[3] (enter env s)).2 = .done 39 := by decide
  have hsize : ((step env)^[3] (enter env s)).1.receivedSize = -1 := by decide
  have hconnected : s.connected = true := by decide
  exact ⟨s, env, _, 39, .timer _ (.init rfl), hconnected, Returns.of_done hdone, hsize⟩

end Hc.ModemClient
