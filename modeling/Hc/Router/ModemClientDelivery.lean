import Hc.Router.ModemClientQueue

/-!
# What the modem gets

On one connection with complete writes the commands go to the modem in the order in which
they were accepted, each once, and each only after the one before it was acknowledged. The
counting is done on the list model; the array follows it.
-/

namespace Hc.ModemClient

variable {env : Env} {s : State} {commands new : List Command} {acks : ℕ}

/-- Of the accepted commands, `acks` are acknowledged, the next one is written, and the rest
waits in the queue. -/
structure Delivery (s : State) (commands : List Command) (acks : ℕ) : Prop where
  acks_le : acks ≤ commands.length
  queue : s.queue = commands.drop acks
  pending : s.pendingCommand = true ↔ s.queue ≠ []
  log : s.log = (commands.take (acks + 1)).map Command.render
  connected : s.connected = true

/-- Sending the first command that waits. -/
theorem processQueue_delivery (hcomplete : env.Complete) (hconnected : s.connected = true)
    (hpending : s.pendingCommand = false) (hacks : acks ≤ commands.length)
    (hqueue : s.queue = commands.drop acks)
    (hlog : s.log = (commands.take acks).map Command.render) :
    (processQueue env s).2 = true ∧ Delivery (processQueue env s).1 commands acks := by
  refine ⟨processQueue_complete hcomplete hconnected, ?_⟩
  unfold processQueue
  rw [if_neg (by rw [hpending]; exact Bool.false_ne_true)]
  split
  next hnil =>
    rw [hnil] at hqueue
    have hall : commands.length ≤ acks := List.drop_eq_nil_iff.mp hqueue.symm
    refine ⟨hacks, by rw [hnil, hqueue], ?_, ?_, hconnected⟩
    · simp [hpending, hnil]
    · rw [hlog, List.take_of_length_le hall, List.take_of_length_le (by omega)]
  next command queue hcons =>
    rw [hcons] at hqueue
    simp only [sysWrite, hconnected, if_true, hcomplete _ _, ne_eq, not_true, if_false]
    refine ⟨hacks, by rw [hcons]; exact hqueue, ?_, ?_, rfl⟩
    · simp [hcons]
    · have htake : commands.take (acks + 1) = commands.take acks ++ [command] := by
        rw [List.take_add, ← hqueue]
        rfl
      rw [htake, List.map_append, hlog]
      rfl

/-- Accepting commands. -/
theorem Delivery.enqueue (hcomplete : env.Complete) (h : Delivery s commands acks)
    (hnew : new ≠ []) :
    (processQueue env { s with queue := s.queue ++ new }).2 = true ∧
      Delivery (processQueue env { s with queue := s.queue ++ new }).1 (commands ++ new) acks := by
  have hacks := h.acks_le
  have hqueue : s.queue ++ new = (commands ++ new).drop acks := by
    rw [h.queue, List.drop_append_of_le_length hacks]
  have hacks' : acks ≤ (commands ++ new).length := by
    rw [List.length_append]
    omega
  by_cases hpending : s.pendingCommand = true
  · have hwaiting : commands.drop acks ≠ [] := h.queue ▸ h.pending.mp hpending
    have hlt : acks < commands.length := by
      by_contra hge
      exact hwaiting (List.drop_of_length_le (by omega))
    have hnothing : processQueue env { s with queue := s.queue ++ new } =
        ({ s with queue := s.queue ++ new }, true) :=
      processQueue_of_settled (.inl hpending)
    rw [hnothing]
    refine ⟨rfl, hacks', hqueue, ?_, ?_, h.connected⟩
    · simp [hpending, hnew]
    · rw [List.take_append_of_le_length hlt]
      exact h.log
  · have hnil : s.queue = [] := by
      by_contra hne
      exact hpending (h.pending.mpr hne)
    have hall : commands.length ≤ acks := by
      rw [h.queue] at hnil
      exact List.drop_eq_nil_iff.mp hnil
    have hlog : s.log = ((commands ++ new).take acks).map Command.render := by
      rw [List.take_append_of_le_length hacks, List.take_of_length_le hall, h.log,
        List.take_of_length_le (by omega)]
    apply processQueue_delivery hcomplete
    · exact h.connected
    · exact Bool.eq_false_iff.mpr hpending
    · exact hacks'
    · exact hqueue
    · exact hlog

/-- Acknowledging a command. -/
theorem Delivery.ack (hcomplete : env.Complete) (h : Delivery s commands acks)
    (hpending : s.pendingCommand = true) :
    let s' := { s with queue := commands.drop (acks + 1), pendingCommand := false }
    (processQueue env s').2 = true ∧ Delivery (processQueue env s').1 commands (acks + 1) := by
  have hlt : acks < commands.length := by
    by_contra hge
    exact h.pending.mp hpending (h.queue.trans (List.drop_of_length_le (by omega)))
  exact processQueue_delivery hcomplete h.connected rfl hlt rfl h.log

namespace PackedQueue

variable {memory : ℕ → UInt8} {q : PackedQueue} {accepted : List Request}

/-- A run of the three operations on one connection, with the accepted requests and the
number of acknowledgements. -/
inductive Run (memory : ℕ → UInt8) (env : Env) : PackedQueue → List Request → ℕ → Prop where
  | start {q : PackedQueue} (hsize : q.commandQueueSize = 0) (hpending : q.pendingCommand = false)
      (hlog : q.log = []) : Run memory env q [] 0
  | request {q q' : PackedQueue} {accepted : List Request} {acks : ℕ} {result : ℤ}
      (h : Run memory env q accepted acks) (request : Request)
      (hcall : request.enqueue memory env q = some (q', result)) :
      Run memory env q' (if result = 0 then accepted ++ [request] else accepted) acks
  | ack {q q' : PackedQueue} {accepted : List Request} {acks : ℕ} {result : ℤ}
      (h : Run memory env q accepted acks) (hpending : q.pendingCommand = true)
      (hcall : ackPending memory env q = some (q', result)) : Run memory env q' accepted (acks + 1)

/-- The records of the accepted requests: those of a text message stay together. -/
def recordsOf (accepted : List Request) : List Record := accepted.flatMap Request.records

/-- The array refines a list that delivers the accepted commands. -/
def Delivers (memory : ℕ → UInt8) (q : PackedQueue) (accepted : List Request) (acks : ℕ) : Prop :=
  ∃ s, Refines memory q s ((recordsOf accepted).drop acks) ∧
    Delivery s ((recordsOf accepted).map (Record.command memory)) acks

theorem Request.records_ne_nil (request : Request) : request.records ≠ [] := by
  cases request with
  | constant => exact List.cons_ne_nil _ _
  | sms => exact List.cons_ne_nil _ _

/-- A request is refused for lack of space, with nothing changed, or accepted. -/
theorem Delivers.enqueue (hcomplete : env.Complete) (h : Delivers memory q accepted acks)
    (request : Request) :
    (4103 < q.commandQueueSize + request.size ∧ request.enqueue memory env q = some (q, -1)) ∨
    (q.commandQueueSize + request.size ≤ 4103 ∧ ∃ q',
      request.enqueue memory env q = some (q', 0) ∧
      Delivers memory q' (accepted ++ [request]) acks) := by
  obtain ⟨s, hrefines, hdelivery⟩ := h
  rcases enqueue_refines env hrefines request with ⟨hfull, hcall, -⟩ |
    ⟨hfits, s', q', rfl, -, hcall, hrefines'⟩
  · exact .inl ⟨hfull, hcall⟩
  · have hnew : request.records.map (Record.command memory) ≠ [] := by
      rw [ne_eq, List.map_eq_nil_iff]
      exact request.records_ne_nil
    obtain ⟨hok, hdelivery'⟩ := hdelivery.enqueue hcomplete hnew
    have hacks := hdelivery.acks_le
    rw [List.length_map] at hacks
    have happend : recordsOf (accepted ++ [request]) = recordsOf accepted ++ request.records := by
      rw [recordsOf, List.flatMap_append, List.flatMap_singleton]
      rfl
    rw [hok] at hcall
    rw [← List.map_append, ← happend] at hdelivery'
    rw [← List.drop_append_of_le_length hacks, ← happend] at hrefines'
    exact .inr ⟨hfits, q', hcall, _, hrefines', hdelivery'⟩

/-- An acknowledgement while a command is pending is defined and succeeds. -/
theorem Delivers.ack (hcomplete : env.Complete) (h : Delivers memory q accepted acks)
    (hpending : q.pendingCommand = true) : ∃ q',
      ackPending memory env q = some (q', 0) ∧ Delivers memory q' accepted (acks + 1) := by
  obtain ⟨s, hrefines, hdelivery⟩ := h
  have hpending' : s.pendingCommand = true := hrefines.pendingCommand.trans hpending
  cases hdrop : (recordsOf accepted).drop acks with
  | nil =>
      have hqueue := hrefines.queue
      rw [hdrop] at hqueue
      exact absurd hqueue (hdelivery.pending.mp hpending')
  | cons record records =>
      have hrest : (recordsOf accepted).drop (acks + 1) = records := by
        rw [← List.drop_drop, hdrop]
        rfl
      rw [hdrop] at hrefines
      obtain ⟨q', s', rfl, -, hcall, hrefines'⟩ := ackPending_refines env hrefines hpending
      obtain ⟨hok, hdelivery'⟩ := hdelivery.ack hcomplete hpending'
      rw [← List.map_drop, hrest] at hok hdelivery'
      rw [hok] at hcall
      exact ⟨q', hcall, _, by rw [hrest]; exact hrefines', hdelivery'⟩

theorem Run.delivers (hcomplete : env.Complete) (h : Run memory env q accepted acks) :
    Delivers memory q accepted acks := by
  induction h with
  | @start q hsize hpending hlog =>
      let s : State := ⟨true, 0, List.Vector.replicate 4096 0, [], false, []⟩
      refine ⟨s, ⟨⟨by omega, ?_⟩, rfl, hpending.symm, hlog.symm, rfl⟩, le_rfl, rfl, ?_, rfl, rfl⟩
      · rw [hsize]
        rfl
      · simp [s]
  | request h request hcall ih =>
      rcases ih.enqueue hcomplete request with ⟨-, hrefused⟩ | ⟨-, q', haccepted, hdelivers⟩
      · rw [hrefused] at hcall
        cases hcall
        exact ih
      · rw [haccepted] at hcall
        cases hcall
        exact hdelivers
  | ack h hpending hcall ih =>
      obtain ⟨q', hack, hdelivers⟩ := ih.ack hcomplete hpending
      rw [hack] at hcall
      cases hcall
      exact hdelivers

/-- Over every run the used part of the array is exactly the accepted records that are not
acknowledged, the modem has got the renderings of the acknowledged ones and of the next, and
every operation is defined; a refused request changes nothing. -/
theorem run_delivers (hcomplete : env.Complete) (h : Run memory env q accepted acks) :
    q.commandQueueSize ≤ 4103 ∧
    q.commandQueue.toList.take q.commandQueueSize =
      ((recordsOf accepted).drop acks).flatMap Record.encode ∧
    acks ≤ (recordsOf accepted).length ∧
    (q.pendingCommand = true ↔ 0 < q.commandQueueSize) ∧
    q.log = ((recordsOf accepted).take (acks + 1)).map
      (fun record => (record.command memory).render) ∧
    (∀ request : Request,
      (4103 < q.commandQueueSize + request.size ∧ request.enqueue memory env q = some (q, -1)) ∨
      (q.commandQueueSize + request.size ≤ 4103 ∧
        ∃ q', request.enqueue memory env q = some (q', 0))) ∧
    (q.pendingCommand = true → ∃ q', ackPending memory env q = some (q', 0)) := by
  have hdelivers := h.delivers hcomplete
  obtain ⟨s, hrefines, hdelivery⟩ := id hdelivers
  refine ⟨hrefines.packs.le, hrefines.packs.bytes, ?_, ?_, ?_, ?_, ?_⟩
  · simpa using hdelivery.acks_le
  · rw [← hrefines.pendingCommand, hdelivery.pending, hrefines.queue, ne_eq, List.map_eq_nil_iff,
      ← hrefines.packs.size_eq_zero_iff, Nat.pos_iff_ne_zero]
  · rw [← hrefines.log, hdelivery.log, ← List.map_take, List.map_map]
    rfl
  · intro request
    rcases hdelivers.enqueue hcomplete request with hrefused | ⟨hfits, q', haccepted, -⟩
    · exact .inl hrefused
    · exact .inr ⟨hfits, q', haccepted⟩
  · intro hpending
    obtain ⟨q', hack, -⟩ := hdelivers.ack hcomplete hpending
    exact ⟨q', hack⟩

/-- A constant command and a text message, accepted one after the other, and then all their
records acknowledged: the modem gets the command, the number and the text. -/
theorem run_delivers_message :
    let memory : ℕ → UInt8 := fun _ => 65
    let number : Text 8 := ⟨[52, 54], by decide⟩
    let text : Text 16 := ⟨[48, 48, 54, 57], by decide⟩
    ∃ q, Run memory (completeEnv []) q [.constant 0 3, .sms number text] 3 ∧
      q.commandQueueSize = 0 ∧
      q.log = [[65, 65, 65], ascii "AT+CMGS=\"46\"\x0d", ascii "0069\x1a"] := by
  intro memory number text
  let env := completeEnv []
  have hcomplete : env.Complete := fun _ _ => rfl
  -- Every operation is defined, and the requests fit.
  have hrequest {q : PackedQueue} {accepted : List Request} {acks : ℕ}
      (h : Run memory env q accepted acks) (request : Request)
      (hfits : (((recordsOf accepted).drop acks).flatMap Record.encode).length + request.size ≤
        4103) : ∃ q', Run memory env q' (accepted ++ [request]) acks := by
    obtain ⟨hle, hbytes, -, -, -, hrequests, -⟩ := run_delivers hcomplete h
    rcases hrequests request with ⟨hfull, -⟩ | ⟨-, q', hcall⟩
    · have hsize := (Packs.mk hle hbytes).size_eq
      omega
    · exact ⟨q', h.request request hcall⟩
  have hack {q : PackedQueue} {accepted : List Request} {acks : ℕ}
      (h : Run memory env q accepted acks)
      (hwaits : 0 < (((recordsOf accepted).drop acks).flatMap Record.encode).length) :
      ∃ q', Run memory env q' accepted (acks + 1) := by
    obtain ⟨hle, hbytes, -, hpending, -, -, hdefined⟩ := run_delivers hcomplete h
    rw [← (Packs.mk hle hbytes).size_eq, ← hpending] at hwaits
    obtain ⟨q', hcall⟩ := hdefined hwaits
    exact ⟨q', h.ack hwaits hcall⟩
  have hstart : Run memory env ⟨List.Vector.replicate 4103 0, 0, false, []⟩ [] 0 :=
    .start rfl rfl rfl
  obtain ⟨q₁, h₁⟩ := hrequest hstart (.constant 0 3) (by decide)
  obtain ⟨q₂, h₂⟩ := hrequest h₁ (.sms number text) (by decide)
  obtain ⟨q₃, h₃⟩ := hack h₂ (by decide)
  obtain ⟨q₄, h₄⟩ := hack h₃ (by decide)
  obtain ⟨q₅, h₅⟩ := hack h₄ (by decide)
  obtain ⟨hle, hbytes, -, -, hlog, -⟩ := run_delivers hcomplete h₅
  exact ⟨q₅, h₅, (Packs.mk hle hbytes).size_eq, hlog⟩

end PackedQueue

end Hc.ModemClient
