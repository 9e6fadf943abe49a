import Mathlib.Tactic.Ring
import Mathlib.Data.List.TakeWhile
import Hc.Router.ModemClient

/-!
# The lines of the modem client

A command is pending exactly while the queue is not empty, except after a write that
was not complete. What a line asks for is read from the data alone (`readLine`); what
the handler does with it is described once, by the queue and the writes (`Taken`).
-/

namespace Hc.ModemClient

variable {env : Env} {s s' : State}

/-- A command is pending, or there is none to send. -/
def Settled (s : State) : Prop := s.pendingCommand = true ∨ s.queue = []

/-- The receive buffer and the connection are those of `s`. -/
structure SameBuffer (s s' : State) : Prop where
  buffer : s'.buffer = s.buffer
  receivedSize : s'.receivedSize = s.receivedSize
  connected : s'.connected = s.connected

theorem SameBuffer.refl (s : State) : SameBuffer s s := ⟨rfl, rfl, rfl⟩

theorem SameBuffer.trans {s'' : State} (h : SameBuffer s s') (h' : SameBuffer s' s'') :
    SameBuffer s s'' :=
  ⟨h'.buffer.trans h.buffer, h'.receivedSize.trans h.receivedSize, h'.connected.trans h.connected⟩

theorem SameBuffer.received (h : SameBuffer s s') : s'.received = s.received := by
  rw [State.received, State.received, h.buffer, h.receivedSize]

/-- Every write to the open device is complete. -/
def Env.Complete (env : Env) : Prop := ∀ i n, env.write i n = n

/-- Calls that all succeed, delivering the bytes `read`. -/
def completeEnv (read : List UInt8) : Env := ⟨read, fun _ n => n, true, true, true, [], 0⟩

/-! ## The queue -/

theorem processQueue_sameBuffer (env : Env) (s : State) :
    SameBuffer s (processQueue env s).1 := by
  unfold processQueue
  split
  next => exact SameBuffer.refl s
  next =>
    split
    next => exact SameBuffer.refl s
    next =>
      dsimp only
      split
      next => exact ⟨rfl, rfl, rfl⟩
      next => exact ⟨rfl, rfl, rfl⟩

theorem processQueue_of_settled (h : Settled s) : processQueue env s = (s, true) := by
  unfold processQueue
  rcases h with hpending | hqueue
  · rw [if_pos hpending]
  · rw [hqueue]
    split
    next => rfl
    next => rfl

theorem processQueue_complete (hcomplete : env.Complete) (hconnected : s.connected = true) :
    (processQueue env s).2 = true := by
  unfold processQueue
  split
  next => rfl
  next =>
    split
    next => rfl
    next command queue hqueue =>
      simp [sysWrite, hconnected, hcomplete _ _]

/-- Without a connection a command that waits cannot be sent. -/
theorem processQueue_disconnected (hconnected : s.connected = false) (h : ¬Settled s) :
    (processQueue env s).2 = false ∧ (processQueue env s).1.connected = false ∧
      ¬Settled (processQueue env s).1 := by
  obtain ⟨hpending, hqueue⟩ := not_or.mp h
  obtain ⟨command, queue, hcons⟩ := List.exists_cons_of_ne_nil hqueue
  have hfails : (-9 : ℤ) ≠ command.render.length := by omega
  unfold processQueue
  rw [if_neg hpending, hcons]
  simp [sysWrite, hconnected, hfails, Settled, hpending, hcons]

/-- A command is pending exactly while there is one in the queue. -/
def Linked (s : State) : Prop := s.pendingCommand = true ↔ s.queue ≠ []

theorem Linked.settled (h : Linked s) : Settled s := by
  by_cases hqueue : s.queue = []
  · exact .inr hqueue
  · exact .inl (h.mpr hqueue)

theorem Linked.of_empty (hpending : s.pendingCommand = false) (hqueue : s.queue = []) :
    Linked s := by
  simp [Linked, hpending, hqueue]

theorem Linked.of_pending (hpending : s.pendingCommand = true) (hqueue : s.queue ≠ []) :
    Linked s :=
  iff_of_true hpending hqueue

theorem processQueue_owed (env : Env) (h : s.pendingCommand = true → s.queue ≠ []) :
    (processQueue env s).1.pendingCommand = true → (processQueue env s).1.queue ≠ [] := by
  unfold processQueue
  split
  next => exact h
  next =>
    split
    next => exact h
    next command queue hqueue =>
      dsimp only
      split
      next => exact h
      next => exact fun _ => hqueue ▸ List.cons_ne_nil command queue

theorem processQueue_linked (env : Env) (h : s.pendingCommand = true → s.queue ≠ [])
    (hok : (processQueue env s).2 = true) : Linked (processQueue env s).1 := by
  unfold processQueue at *
  split
  next hpending => exact .of_pending hpending (h hpending)
  next hpending =>
    rw [if_neg hpending] at hok
    split
    next hqueue => exact .of_empty (Bool.eq_false_iff.mpr hpending) hqueue
    next command queue hqueue =>
      rw [hqueue] at hok
      dsimp only at hok ⊢
      split
      next hwritten =>
        rw [if_pos hwritten] at hok
        cases hok
      next => exact .of_pending rfl (hqueue ▸ List.cons_ne_nil command queue)

/-- `modemClient_queueConstant` and `modemClient_queueSms`, for the commands that they
append. -/
def enqueue (env : Env) (s : State) (new : List Command) : State × Bool :=
  if s.queueSize + (new.map Command.size).sum > 4103 then
    (s, false)
  else
    processQueue env { s with queue := s.queue ++ new }

theorem queueConstant_eq (env : Env) (s : State) (text : List UInt8) :
    queueConstant env s text = enqueue env s [.constant text] := by
  have hsize : (Command.constant text).size = 11 := rfl
  simp only [queueConstant, enqueue, List.map_cons, List.map_nil, List.sum_cons, List.sum_nil,
    hsize]
  by_cases hfull : s.queueSize > 4103 - 11
  · rw [if_pos hfull, if_pos (by omega)]
  · rw [if_neg hfull, if_neg (by omega)]

theorem queueSms_eq (env : Env) (s : State) (number sms : List UInt8) :
    queueSms env s number sms = enqueue env s [.startSms number, .sendSms sms] := by
  simp only [queueSms, enqueue, List.map_cons, List.map_nil, List.sum_cons, List.sum_nil]
  by_cases hfull : (s.queueSize : ℤ) >
      4103 - (Command.startSms number).size - (Command.sendSms sms).size
  · rw [if_pos hfull, if_pos (by omega)]
  · rw [if_neg hfull, if_neg (by omega)]

theorem enqueue_sameBuffer (env : Env) (s : State) (new : List Command) :
    SameBuffer s (enqueue env s new).1 := by
  unfold enqueue
  split
  next => exact SameBuffer.refl s
  next =>
    have hsame := processQueue_sameBuffer env { s with queue := s.queue ++ new }
    exact ⟨hsame.buffer, hsame.receivedSize, hsame.connected⟩

theorem enqueue_linked {new : List Command} (h : Linked s)
    (hok : (enqueue env s new).2 = true) : Linked (enqueue env s new).1 := by
  unfold enqueue at *
  split
  next => exact h
  next hfits =>
    rw [if_neg hfits] at hok
    refine processQueue_linked env (fun hpending => ?_) hok
    exact List.append_ne_nil_of_left_ne_nil (h.mp hpending) new

/-- The end of an operation on the queue of `s` that leaves `queue`, with `sent` the command
that comes to the front: it is written in full, or it waits in the queue. -/
inductive Sent (env : Env) (s : State) (queue : List Command) (sent : Option Command) :
    State × Bool → Prop where
  | short {s' : State} {command : Command} (hsent : command ∈ sent)
      (hshort : env.write s.log.length command.render.length ≠ command.render.length)
      (hsame : SameBuffer s s') (hunsettled : ¬Settled s') : Sent env s queue sent (s', false)
  | complete {s' : State}
      (hcomplete : ∀ command ∈ sent,
        env.write s.log.length command.render.length = command.render.length)
      (hsame : SameBuffer s s') (hqueue : s'.queue = queue)
      (hlog : s'.log.length = s.log.length + sent.toList.length) (hlinked : Linked s') :
      Sent env s queue sent (s', true)

theorem processQueue_sent (hpending : s.pendingCommand = false) (hconnected : s.connected = true) :
    Sent env s s.queue s.queue.head? (processQueue env s) := by
  unfold processQueue
  rw [if_neg (Bool.eq_false_iff.mp hpending)]
  split
  next hqueue =>
    rw [hqueue]
    exact .complete nofun (SameBuffer.refl s) hqueue rfl (.of_empty hpending hqueue)
  next command queue hqueue =>
    simp only [sysWrite, hconnected, if_true, hqueue, List.head?_cons]
    split
    next hwritten =>
      refine .short rfl hwritten ⟨rfl, rfl, hconnected.symm⟩ ?_
      simp [Settled, hpending]
    next hwritten =>
      refine .complete ?_ ⟨rfl, rfl, hconnected.symm⟩ rfl ?_ (.of_pending rfl ?_)
      · rintro _ ⟨rfl⟩
        exact not_not.mp hwritten
      · exact List.length_append
      · exact List.cons_ne_nil command queue

theorem Sent.of_same {queue : List Command} {sent : Option Command} {result : State × Bool}
    (h : Sent env s' queue sent result) (hlog : s'.log = s.log) (hsame : SameBuffer s s') :
    Sent env s queue sent result := by
  cases h with
  | short hsent hshort hsame' hunsettled =>
      rw [hlog] at hshort
      exact .short hsent hshort (hsame.trans hsame') hunsettled
  | complete hcomplete hsame' hqueue hlog' hlinked =>
      rw [hlog] at hcomplete hlog'
      exact .complete hcomplete (hsame.trans hsame') hqueue hlog' hlinked

theorem enqueue_sent {new : List Command} (h : Linked s) (hconnected : s.connected = true)
    (hfits : s.queueSize + (new.map Command.size).sum ≤ 4103) :
    Sent env s (s.queue ++ new) (if s.queue = [] then new.head? else none)
      (enqueue env s new) := by
  unfold enqueue
  rw [if_neg (not_lt.mpr hfits)]
  by_cases hqueue : s.queue = []
  · have hpending : s.pendingCommand = false :=
      Bool.eq_false_iff.mpr fun hpending => h.mp hpending hqueue
    have hsent : Sent env _ (s.queue ++ new) (s.queue ++ new).head? _ :=
      processQueue_sent (s := { s with queue := s.queue ++ new }) hpending hconnected
    rw [if_pos hqueue]
    rw [hqueue, List.nil_append] at hsent ⊢
    exact hsent.of_same rfl ⟨rfl, rfl, rfl⟩
  · have hpending := h.mpr hqueue
    rw [if_neg hqueue, processQueue_of_settled (s := { s with queue := s.queue ++ new })
      (.inl hpending)]
    refine .complete nofun ⟨rfl, rfl, rfl⟩ rfl rfl (.of_pending hpending ?_)
    exact List.append_ne_nil_of_left_ne_nil hqueue new

theorem ackPending_sent (env : Env) {command : Command} {queue : List Command} (h : Linked s)
    (hconnected : s.connected = true) (hqueue : s.queue = command :: queue) :
    ∃ result, ackPending env s = some result ∧ Sent env s queue queue.head? result := by
  have hpending : s.pendingCommand = true := h.mpr (hqueue ▸ List.cons_ne_nil command queue)
  have hsent : Sent env _ queue queue.head? _ :=
    processQueue_sent (s := { s with queue := queue, pendingCommand := false }) rfl hconnected
  refine ⟨_, ?_, hsent.of_same rfl ⟨rfl, rfl, rfl⟩⟩
  unfold ackPending
  rw [if_pos hpending, hqueue]

theorem ackPending_empty (h : Linked s) (hqueue : s.queue = []) : ackPending env s = none := by
  unfold ackPending
  rw [if_neg fun hpending => h.mp hpending hqueue]

/-! ## What a line asks for -/

/-- A line as the handler takes it: an answer to the pending command, a reason to queue
commands, or neither. -/
inductive Line where
  | answer
  | order (new : List Command)
  | other
deriving DecidableEq

/-- The line at the front of the data and the number of bytes it takes up, read as
`modemClient_onFd` does; none if the handler leaves its loop there. -/
def readLine (env : Env) (tag : Tag) (rest : List UInt8) : Option (Line × ℕ) :=
  let line := rest.takeWhile (· != 10)
  if line = rest ∧ rest ≠ ascii "> " then none
  else if line = ascii "> " then
    if tag = .startSms then some (.answer, 2) else none
  else if line = ascii "OK" then
    if tag = .noCmd ∨ tag = .startSms then none else some (.answer, 3)
  else if line = ascii "ERROR" then none
  else if line.take 7 = ascii "+CMGL: " then
    match parseSms rest line.length with
    | .malformed => none
    | .incomplete => none
    | .sms lineLength number isIpCommand =>
      if isIpCommand then
        some (.order [.startSms number, .sendSms (ucs2Hex (printIp env))], lineLength + 1)
      else
        some (.other, lineLength + 1)
  else if line.take 11 = ascii "+CMTI: \"SM\"" then
    some (.order [.constant smsPollCmd], line.length + 1)
  else
    some (.other, line.length + 1)

namespace Line

/-- The commands that the line asks for. -/
def ordered : Line → List Command
  | answer => []
  | order new => new
  | other => []

/-- The queue after the line. -/
def after (queue : List Command) : Line → List Command
  | answer => queue.tail
  | order new => queue ++ new
  | other => queue

/-- The command that comes to the front of the queue, and is to be written. -/
def sent (queue : List Command) : Line → Option Command
  | answer => queue.tail.head?
  | order new => if queue = [] then new.head? else none
  | other => none

/-- The array has room for the commands of the line. -/
def Fits (queue : List Command) : Line → Prop
  | answer => True
  | order new => (queue.map Command.size).sum + (new.map Command.size).sum ≤ 4103
  | other => True

/-- An answer finds a command, and the command that comes to the front is written in full;
`writes` counts the writes before. -/
structure Accepted (env : Env) (queue : List Command) (writes : ℕ) (line : Line) : Prop where
  command : line = answer → queue ≠ []
  fits : line.Fits queue
  complete : ∀ command ∈ line.sent queue,
    env.write writes command.render.length = command.render.length

end Line

theorem take_length_takeWhile (rest : List UInt8) :
    rest.take (rest.takeWhile (· != 10)).length = rest.takeWhile (· != 10) :=
  (List.prefix_iff_eq_take.mp (List.takeWhile_prefix _)).symm

/-- The whole data is its first line. -/
theorem length_takeWhile_eq_iff (rest : List UInt8) :
    (rest.takeWhile (· != 10)).length = rest.length ↔ rest.takeWhile (· != 10) = rest :=
  ⟨fun h => (List.takeWhile_prefix _).eq_of_length h, fun h => by rw [h]⟩

theorem length_takeWhile_lt {rest : List UInt8} (h : rest.takeWhile (· != 10) ≠ rest) :
    (rest.takeWhile (· != 10)).length < rest.length :=
  lt_of_le_of_ne (List.takeWhile_prefix _).length_le
    fun heq => h ((length_takeWhile_eq_iff rest).mp heq)

/-! ## One line -/

/-- The ways one iteration of the loop can end, by what the line asks for. -/
inductive LineResult (env : Env) (s : State) (tag : Tag) (lineStart : ℕ) :
    State × Control → Prop where
  | out (hline : readLine env tag (s.received.drop lineStart) = none) :
      LineResult env s tag lineStart (s, .out lineStart)
  | fail (hline : readLine env tag (s.received.drop lineStart) = none) :
      LineResult env s tag lineStart (s, .fail lineStart)
  | undefined {n : ℕ} (hline : readLine env tag (s.received.drop lineStart) = some (.answer, n + 1))
      (hack : ackPending env s = none) : LineResult env s tag lineStart (s, .undefined)
  | answer {n : ℕ} {result : State × Bool}
      (hline : readLine env tag (s.received.drop lineStart) = some (.answer, n + 1))
      (hack : ackPending env s = some result) :
      LineResult env s tag lineStart (continueOrFail result tag lineStart n)
  | order {n : ℕ} {new : List Command}
      (hline : readLine env tag (s.received.drop lineStart) = some (.order new, n + 1)) :
      LineResult env s tag lineStart (continueOrFail (enqueue env s new) tag lineStart n)
  | other {n : ℕ}
      (hline : readLine env tag (s.received.drop lineStart) = some (.other, n + 1)) :
      LineResult env s tag lineStart (s, .line tag (lineStart + (n + 1)))

theorem handleLine_result (env : Env) (s : State) (tag : Tag) (lineStart : ℕ) :
    LineResult env s tag lineStart (handleLine env s tag lineStart) := by
  have hread : readLine env tag (s.received.drop lineStart) = _ := rfl
  conv at hread => rhs; unfold readLine
  unfold handleLine
  simp only [take_length_takeWhile, length_takeWhile_eq_iff] at hread ⊢
  generalize hline : (s.received.drop lineStart).takeWhile (· != 10) = line at hread ⊢
  have hdistinct : ascii "OK" ≠ ascii "> " := by decide
  split
  next hend => exact .out (by rw [hread, if_pos hend])
  next hend =>
    rw [if_neg hend] at hread
    split
    next hanswer =>
      by_cases hprompt : line = ascii "> "
      · simp only [hprompt, if_true] at hread ⊢
        split
        next htag => exact .fail (by rw [hread, if_neg (by rw [htag]; decide)])
        next =>
          split
          next htag => exact .fail (by rw [hread, if_neg htag])
          next htag =>
            rw [if_pos (not_not.mp htag)] at hread
            split
            next hack => exact .undefined hread hack
            next result hack => exact .answer hread hack
      · have hok : line = ascii "OK" := hanswer.resolve_right hprompt
        simp only [if_neg hprompt, if_pos hok] at hread ⊢
        split
        next htag => exact .fail (by rw [hread, if_pos (.inl htag)])
        next hcmd =>
          split
          next htag => exact .fail (by rw [hread, if_pos (.inr htag)])
          next hstart =>
            rw [if_neg (not_or.mpr ⟨hcmd, hstart⟩)] at hread
            split
            next hack => exact .undefined hread hack
            next result hack =>
              rw [hok]
              exact .answer hread hack
    next hanswer =>
      rw [if_neg fun h => hanswer (.inr h), if_neg fun h => hanswer (.inl h)] at hread
      split
      next herror => exact .fail (by rw [hread, if_pos herror])
      next herror =>
        rw [if_neg herror] at hread
        split
        next hcmgl =>
          rw [if_pos hcmgl] at hread
          split
          next hparse => exact .fail (by rw [hread, hparse])
          next hparse => exact .out (by rw [hread, hparse])
          next total number isIpCommand hparse =>
            rw [hparse] at hread
            dsimp only at hread
            split
            next hip =>
              rw [queueSms_eq]
              exact .order (by rw [hread, if_pos hip])
            next hip => exact .other (by rw [hread, if_neg hip])
        next hcmgl =>
          rw [if_neg hcmgl] at hread
          split
          next hcmti =>
            rw [queueConstant_eq]
            exact .order (by rw [hread, if_pos hcmti])
          next hcmti => exact .other (by rw [hread, if_neg hcmti])

/-- What the handler does with a line that is `n` bytes long, by the queue and the writes. -/
inductive Taken (env : Env) (s : State) (tag : Tag) (lineStart : ℕ) (line : Line) (n : ℕ) :
    State × Control → Prop where
  | surplus (hline : line = .answer) (hqueue : s.queue = []) :
      Taken env s tag lineStart line n (s, .undefined)
  | full (hfull : ¬line.Fits s.queue) : Taken env s tag lineStart line n (s, .fail lineStart)
  | short {s' : State} {command : Command} (hfits : line.Fits s.queue)
      (hsent : command ∈ line.sent s.queue)
      (hshort : env.write s.log.length command.render.length ≠ command.render.length)
      (hsame : SameBuffer s s') (hunsettled : ¬Settled s') :
      Taken env s tag lineStart line n (s', .fail lineStart)
  | next {s' : State} (haccepted : line.Accepted env s.queue s.log.length)
      (hsame : SameBuffer s s') (hqueue : s'.queue = line.after s.queue)
      (hlog : s'.log.length = s.log.length + (line.sent s.queue).toList.length)
      (hlinked : Linked s') : Taken env s tag lineStart line n (s', .line tag (lineStart + n))

theorem Sent.taken {tag : Tag} {lineStart n : ℕ} {line : Line} {result : State × Bool}
    (h : Sent env s (line.after s.queue) (line.sent s.queue) result)
    (hcommand : line = .answer → s.queue ≠ []) (hfits : line.Fits s.queue) :
    Taken env s tag lineStart line (n + 1) (continueOrFail result tag lineStart n) := by
  cases h with
  | short hsent hshort hsame hunsettled => exact .short hfits hsent hshort hsame hunsettled
  | complete hcomplete hsame hqueue hlog hlinked =>
      exact .next ⟨hcommand, hfits, hcomplete⟩ hsame hqueue hlog hlinked

/-- The handler leaves its loop at a line that it cannot take, and takes the others. -/
theorem handleLine_taken (env : Env) (h : Linked s) (hconnected : s.connected = true)
    (tag : Tag) (lineStart : ℕ) :
    (readLine env tag (s.received.drop lineStart) = none ∧
      (handleLine env s tag lineStart = (s, .out lineStart) ∨
        handleLine env s tag lineStart = (s, .fail lineStart))) ∨
    ∃ line n, readLine env tag (s.received.drop lineStart) = some (line, n) ∧
      Taken env s tag lineStart line n (handleLine env s tag lineStart) := by
  have hresult := handleLine_result env s tag lineStart
  generalize handleLine env s tag lineStart = result at hresult
  cases hresult with
  | out hline => exact .inl ⟨hline, .inl rfl⟩
  | fail hline => exact .inl ⟨hline, .inr rfl⟩
  | @undefined n hline hack =>
      refine .inr ⟨_, _, hline, .surplus rfl ?_⟩
      by_contra hqueue
      obtain ⟨command, queue, hcons⟩ := List.exists_cons_of_ne_nil hqueue
      obtain ⟨result, hack', -⟩ := ackPending_sent env h hconnected hcons
      rw [hack] at hack'
      cases hack'
  | @answer n result hline hack =>
      refine .inr ⟨_, _, hline, ?_⟩
      cases hqueue : s.queue with
      | nil =>
          rw [ackPending_empty h hqueue] at hack
          cases hack
      | cons command queue =>
          obtain ⟨result', hack', hsent⟩ := ackPending_sent env h hconnected hqueue
          obtain rfl : result' = result := Option.some.inj (hack'.symm.trans hack)
          refine Sent.taken ?_ (fun _ => hqueue ▸ List.cons_ne_nil command queue) trivial
          rw [hqueue]
          exact hsent
  | @order n new hline =>
      refine .inr ⟨_, _, hline, ?_⟩
      by_cases hfits : (Line.order new).Fits s.queue
      · exact Sent.taken (enqueue_sent h hconnected hfits) nofun hfits
      · have hfull : enqueue env s new = (s, false) := if_pos (not_le.mp hfits)
        rw [hfull]
        exact .full hfits
  | @other n hline =>
      exact .inr ⟨_, _, hline, .next ⟨nofun, trivial, nofun⟩ (SameBuffer.refl s) rfl rfl h⟩

/-- The data is one complete `+CMGL` header that announces an empty message, and
nothing after it. -/
def BareEmptySms (rest : List UInt8) : Prop :=
  ∃ line number isIpCommand, rest = line ++ [10] ∧ 10 ∉ line ∧
    line.take 7 = ascii "+CMGL: " ∧
    parseSms rest line.length = .sms (line.length + 1) number isIpCommand

/-- A message that is taken is no longer than what the division of the remainder allows. -/
theorem exists_smsLength {rest number : List UInt8} {lineLength total : ℕ} {isIpCommand : Bool}
    (h : parseSms rest lineLength = .sms total number isIpCommand) :
    ∃ smsLength,
      smsLength ≤ (((rest.length : ℤ) - (lineLength + 1 : ℕ) - 1).tdiv 4 % 2 ^ 64).toNat ∧
        total = lineLength + (smsLength * 4 + 1) ∧ (isIpCommand = true → smsLength = 2) := by
  unfold parseSms at h
  dsimp only at h
  split at h
  next => cases h
  next =>
    split at h
    next => cases h
    next =>
      split at h
      next => cases h
      next => cases h
      next smsLength hparsed =>
        split at h
        next => cases h
        next havailable =>
          obtain ⟨htotal, -, hip⟩ := SmsParse.sms.inj h
          refine ⟨smsLength, not_lt.mp havailable, htotal.symm, fun hcommand => ?_⟩
          rw [hcommand, Bool.and_eq_true] at hip
          exact beq_iff_eq.mp hip.1

/-- A message that is taken ends within the data, except for an empty one whose
header ends the data: there the remainder is -1, and -1 / 4 is 0. -/
theorem parseSms_sms {rest number : List UInt8} {lineLength total : ℕ} {isIpCommand : Bool}
    (hfound : lineLength < rest.length)
    (h : parseSms rest lineLength = .sms total number isIpCommand) :
    total + 1 ≤ rest.length ∨ (rest.length = lineLength + 1 ∧ total = lineLength + 1) := by
  obtain ⟨smsLength, havailable, rfl, -⟩ := exists_smsLength h
  rcases Nat.lt_or_ge (lineLength + 1) rest.length with hlt | hge
  · have hdiv : ((rest.length : ℤ) - (lineLength + 1 : ℕ) - 1).tdiv 4 =
        ((rest.length - (lineLength + 1) - 1 : ℕ) / 4 : ℕ) := by
      rw [Int.tdiv_eq_ediv_of_nonneg (by omega)]
      omega
    rw [hdiv] at havailable
    have hmod : ((((rest.length - (lineLength + 1) - 1 : ℕ) / 4 : ℕ) : ℤ) % 2 ^ 64).toNat ≤
        (rest.length - (lineLength + 1) - 1) / 4 := by
      omega
    omega
  · have hlength : rest.length = lineLength + 1 := by omega
    have hdiv : ((rest.length : ℤ) - (lineLength + 1 : ℕ) - 1).tdiv 4 = 0 := by
      rw [hlength, show ((lineLength + 1 : ℕ) : ℤ) - (lineLength + 1 : ℕ) - 1 = -1 by omega]
      rfl
    rw [hdiv] at havailable
    simp only [Int.zero_emod, Int.toNat_zero] at havailable
    exact .inr ⟨hlength, by omega⟩

/-- A line that ends the data with its newline. -/
theorem eq_takeWhile_append_newline {rest : List UInt8}
    (h : rest.length = (rest.takeWhile (· != 10)).length + 1) :
    rest = rest.takeWhile (· != 10) ++ [10] := by
  have happend := List.takeWhile_append_dropWhile (p := (· != 10)) (l := rest)
  have hlength := congrArg List.length happend
  rw [List.length_append] at hlength
  obtain ⟨c, hc⟩ := List.length_eq_one_iff.mp (show (rest.dropWhile (· != 10)).length = 1 by omega)
  have hhead := List.head?_dropWhile_not (· != 10) rest
  rw [hc] at hhead
  obtain rfl : c = 10 := by simpa using hhead
  rw [hc] at happend
  exact happend.symm

/-- A line takes up some of the data, and no more than there is, except for the bare
header of an empty message. -/
theorem readLine_length {tag : Tag} {rest : List UInt8} {line : Line} {n : ℕ}
    (h : readLine env tag rest = some (line, n)) :
    0 < n ∧ rest ≠ [] ∧ (n ≤ rest.length ∨ BareEmptySms rest) := by
  unfold readLine at h
  dsimp only at h
  split at h
  next => cases h
  next hfound =>
    have hnonempty : rest ≠ [] := by
      rintro rfl
      exact hfound (by decide)
    split at h
    next hprompt =>
      split at h
      next =>
        cases h
        have hlength := (List.takeWhile_prefix (· != 10) (l := rest)).length_le
        rw [hprompt] at hlength
        exact ⟨by decide, hnonempty, .inl hlength⟩
      next => cases h
    next hprompt =>
      have hlt : (rest.takeWhile (· != 10)).length < rest.length := by
        refine length_takeWhile_lt fun hwhole => hfound ⟨hwhole, ?_⟩
        rwa [← hwhole]
      split at h
      next hok =>
        split at h
        next => cases h
        next =>
          cases h
          rw [hok] at hlt
          exact ⟨by decide, hnonempty, .inl hlt⟩
      next =>
        split at h
        next => cases h
        next =>
          split at h
          next hcmgl =>
            split at h
            next => cases h
            next => cases h
            next total number isIpCommand hparse =>
              obtain rfl : n = total + 1 := by
                split at h
                next => cases h; rfl
                next => cases h; rfl
              refine ⟨Nat.succ_pos total, hnonempty, ?_⟩
              rcases parseSms_sms hlt hparse with hfits | ⟨hbare, rfl⟩
              · exact .inl hfits
              · have hsplit := eq_takeWhile_append_newline hbare
                refine .inr ⟨_, number, isIpCommand, hsplit, fun hmem => ?_, hcmgl, hparse⟩
                simpa using List.mem_takeWhile_imp hmem
          next =>
            split at h
            next =>
              cases h
              exact ⟨Nat.succ_pos _, hnonempty, .inl hlt⟩
            next =>
              cases h
              exact ⟨Nat.succ_pos _, hnonempty, .inl hlt⟩

end Hc.ModemClient
