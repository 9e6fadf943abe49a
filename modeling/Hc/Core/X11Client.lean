import Hc.Foundation.Bytes
import Hc.Foundation.Mirror
import Hc.Foundation.Runs

/-!
# Messages from the X11 server

`x11Client_receive`, `x11Client_nextMessage` and `x11Client_ackMessage` of
`hc/core/hc/ix/x11Client.c`, over a circular buffer that is one page mapped twice. Whatever the
calls of `recvfrom` deliver at a time, the messages come out as the server has sent them.
-/

namespace Hc

/-- The fields of `struct x11Client` for the circular buffer. -/
structure X11Client where
  buffer : ℕ → UInt8
  bufferPos : ℕ
  receivedSize : ℕ

namespace X11Client

/-- `x11_TYPE_REPLY`. -/
abbrev typeReply : UInt8 := 1

/-- `x11_genericEvent_TYPE`. -/
abbrev genericEventType : UInt8 := 35

/-- `x11_TYPE_MASK`. -/
abbrev typeMask : UInt8 := 0x7F

/-- The fields that `x11Client_init` sets; the page is new. -/
def init : X11Client := ⟨fun _ => 0, 0, 0⟩

section

variable (pageSize : ℕ) (self : X11Client)

/-- The bytes in the buffer from an offset on. -/
def bytesAt (offset length : ℕ) : List UInt8 := Mirror.read pageSize self.buffer offset length

/-- `x11Client_receive`, where `recvfrom` delivers `data`; no data is a result that is not positive.
-/
def receive (data : List UInt8) : X11Client :=
  if data.length ≤ 0 then self
  else
    { self with
      buffer := Mirror.write pageSize self.buffer (self.bufferPos + self.receivedSize) data
      receivedSize := self.receivedSize + data.length }

/-- `x11Client_nextMessage`. -/
def nextMessage : ℤ :=
  if self.receivedSize < 32 then 0
  else
    let typeMasked := byteAt (self.bytesAt pageSize self.bufferPos 1) 0 &&& typeMask
    -- Errors and standard events are all 32 bytes.
    if typeMasked ≠ typeReply ∧ typeMasked ≠ genericEventType then 32
    else
      let length := (loadLE 32 (self.bytesAt pageSize (self.bufferPos + 4) 4) 0).toNat
      if length > (2 ^ 31 - 1 - 32) / 4 then 0
      else
        let size := 32 + length * 4
        if size > pageSize then -size
        else if self.receivedSize ≥ size then size
        else 0

/-- `x11Client_ackMessage`, where the size of a page is a power of two. -/
def ackMessage (size : ℕ) : X11Client :=
  { self with
    bufferPos := (self.bufferPos + size) % pageSize
    receivedSize := self.receivedSize - size }

end

/-! ## Messages -/

/-- The size of the message that bytes begin with: 32 bytes, and what the length says for replies
and generic events. -/
def messageSize (bytes : List UInt8) : ℕ :=
  let typeMasked := byteAt bytes 0 &&& typeMask
  if typeMasked ≠ typeReply ∧ typeMasked ≠ genericEventType then 32
  else 32 + (loadLE 32 bytes 4).toNat * 4

/-- A message that fits in the buffer. -/
structure Message (pageSize : ℕ) where
  bytes : List UInt8
  size_eq : bytes.length = messageSize bytes
  fits : bytes.length ≤ pageSize

theorem Message.size_ge {pageSize : ℕ} (message : Message pageSize) :
    32 ≤ message.bytes.length := by
  rw [message.size_eq, messageSize]
  split <;> omega

theorem Message.four_dvd_size {pageSize : ℕ} (message : Message pageSize) :
    4 ∣ message.bytes.length := by
  rw [message.size_eq, messageSize]
  split <;> omega

/-- The size of a message is known from its first bytes. -/
theorem messageSize_append {bytes : List UInt8} (hbytes : 8 ≤ bytes.length) (rest : List UInt8) :
    messageSize (bytes ++ rest) = messageSize bytes := by
  have hbyte : byteAt (bytes ++ rest) 0 = byteAt bytes 0 := byteAt_append_left _ (by omega)
  have hload : loadLE 32 (bytes ++ rest) 4 = loadLE 32 bytes 4 := by
    rw [loadLE, loadLE, List.drop_append_of_le_length (by omega),
      List.take_append_of_le_length (by rw [List.length_drop]; omega)]
  rw [messageSize, messageSize, hbyte, hload]

/-! ## Runs -/

/-- A client and its server: the bytes that the server has still to deliver, the message that
`nextMessage` has returned last and that was not acknowledged, and the acknowledged messages. -/
structure Session where
  client : X11Client
  stream : List UInt8
  returned : Option (List UInt8) := none
  delivered : List (List UInt8) := []

/-- A call of one of the functions. The argument of `receive` is how much `recvfrom` delivers at
most. -/
inductive Event where
  | receive (numRead : ℕ)
  | nextMessage
  | ackMessage

namespace Session

variable (pageSize : ℕ)

/-- What one call does. `recvfrom` delivers no more than there is room for. -/
def step (s : Session) : Event → Session
  | .receive numRead =>
    let data := s.stream.take (min numRead (pageSize - s.client.receivedSize))
    { s with client := s.client.receive pageSize data, stream := s.stream.drop data.length }
  | .nextMessage =>
    let size := s.client.nextMessage pageSize
    { s with
      returned :=
        if size > 0 then some (s.client.bytesAt pageSize s.client.bufferPos size.toNat) else none }
  | .ackMessage =>
    match s.returned with
    | none => s
    | some message =>
      { s with
        client := s.client.ackMessage pageSize message.length
        returned := none
        delivered := s.delivered ++ [message] }

/-- The bytes in the buffer. -/
def buffered (s : Session) : List UInt8 :=
  s.client.bytesAt pageSize s.client.bufferPos s.client.receivedSize

/-- The state between two calls: what was delivered are the messages `done`, and the messages `rest`
are in the buffer and in the stream. A message that was returned is the first of them. -/
structure Invariant (messages done rest : List (Message pageSize)) (s : Session) : Prop where
  bufferPos_lt : s.client.bufferPos < pageSize
  four_dvd_bufferPos : 4 ∣ s.client.bufferPos
  receivedSize_le : s.client.receivedSize ≤ pageSize
  messages_eq : messages = done ++ rest
  delivered_eq : s.delivered = done.map Message.bytes
  rest_eq : s.buffered pageSize ++ s.stream = rest.flatMap Message.bytes
  returned : ∀ bytes ∈ s.returned, bytes.length ≤ s.client.receivedSize ∧
    ∃ message ∈ rest.head?, bytes = message.bytes

/-- What `nextMessage` returns if `rest` is still to be delivered: the size of the first message, or
0 if it is not in the buffer completely. -/
def nextSize {pageSize : ℕ} (receivedSize : ℕ) : List (Message pageSize) → ℕ
  | [] => 0
  | message :: _ => if message.bytes.length ≤ receivedSize then message.bytes.length else 0

/-- The messages are delivered in order, and the next one is returned as soon as it is there. -/
def Delivers (messages : List (Message pageSize)) (s : Session) : Prop :=
  ∃ done rest, Invariant pageSize messages done rest s ∧
    s.client.nextMessage pageSize = nextSize s.client.receivedSize rest

variable {pageSize} {messages done rest : List (Message pageSize)} {s : Session}

@[simp] theorem length_buffered : (s.buffered pageSize).length = s.client.receivedSize :=
  Mirror.length_read _ _

/-- The header of the next message is read through the mapping. -/
theorem nextMessage_eq (hreceived : 32 ≤ s.client.receivedSize) (hpage : pageSize ≤ 2 ^ 30)
    (hfits : messageSize (s.buffered pageSize) ≤ pageSize) :
    s.client.nextMessage pageSize =
      ((if messageSize (s.buffered pageSize) ≤ s.client.receivedSize then
        messageSize (s.buffered pageSize) else 0 : ℕ) : ℤ) := by
  have hbyte : byteAt (s.client.bytesAt pageSize s.client.bufferPos 1) 0 =
      byteAt (s.buffered pageSize) 0 := by
    obtain ⟨received, hreceived⟩ : ∃ n, s.client.receivedSize = n + 1 :=
      ⟨s.client.receivedSize - 1, by omega⟩
    rw [buffered, hreceived]
    rfl
  have hload : loadLE 32 (s.client.bytesAt pageSize (s.client.bufferPos + 4) 4) 0 =
      loadLE 32 (s.buffered pageSize) 4 := by
    rw [loadLE, loadLE, List.drop_zero, buffered, bytesAt, bytesAt, Mirror.drop_read _ (by omega),
      Mirror.take_read _ le_rfl, Mirror.take_read _ (by omega)]
  rw [messageSize] at hfits ⊢
  unfold nextMessage
  dsimp only
  rw [if_neg (by omega), hbyte, hload]
  split
  next => rfl
  next htype =>
    rw [if_neg htype] at hfits
    rw [if_neg (by omega), if_neg (by omega)]
    split <;> rfl

/-- The next message begins with the bytes in the buffer. -/
theorem messageSize_buffered {message : Message pageSize} {more : List (Message pageSize)}
    (h : Invariant pageSize messages done (message :: more) s)
    (hreceived : 32 ≤ s.client.receivedSize) :
    messageSize (s.buffered pageSize) = message.bytes.length := by
  have hsize := message.size_ge
  rw [← messageSize_append (by rw [length_buffered]; omega) s.stream, h.rest_eq, List.flatMap_cons,
    messageSize_append (by omega), ← message.size_eq]

theorem nextMessage_of_invariant (hpage : pageSize ≤ 2 ^ 30)
    (h : Invariant pageSize messages done rest s) :
    s.client.nextMessage pageSize = nextSize s.client.receivedSize rest := by
  cases rest with
  | nil =>
      have hlength := congrArg List.length h.rest_eq
      rw [List.length_append, length_buffered, List.flatMap_nil, List.length_nil] at hlength
      unfold nextMessage
      rw [if_pos (by omega)]
      rfl
  | cons message more =>
      by_cases hreceived : 32 ≤ s.client.receivedSize
      · have hsize := messageSize_buffered h hreceived
        rw [nextMessage_eq hreceived hpage (by rw [hsize]; exact message.fits), hsize]
        rfl
      · have hsize := message.size_ge
        rw [nextMessage, if_pos (by omega), nextSize, if_neg (by omega)]
        rfl

/-- The first message is at the beginning of the buffer when it is complete. -/
theorem bytesAt_of_invariant {message : Message pageSize} {more : List (Message pageSize)}
    (h : Invariant pageSize messages done (message :: more) s)
    (hcomplete : message.bytes.length ≤ s.client.receivedSize) :
    s.client.bytesAt pageSize s.client.bufferPos message.bytes.length = message.bytes := by
  have htake := congrArg (List.take message.bytes.length) h.rest_eq
  rw [List.take_append_of_le_length (by rw [length_buffered]; exact hcomplete), List.flatMap_cons,
    List.take_left, buffered, bytesAt, Mirror.take_read _ hcomplete] at htake
  exact htake

/-! ## What a call keeps -/

theorem invariant_receive (h : Invariant pageSize messages done rest s) (numRead : ℕ) :
    Invariant pageSize messages done rest (s.step pageSize (.receive numRead)) := by
  have hreceived := h.receivedSize_le
  unfold step
  dsimp only
  obtain ⟨hlength, hstream⟩ := Mirror.taken_spec s.stream numRead (pageSize - s.client.receivedSize)
  generalize s.stream.take (min numRead (pageSize - s.client.receivedSize)) =
    data at hlength hstream ⊢
  unfold receive
  split
  next hempty =>
    rw [List.length_eq_zero_iff.mp (Nat.le_zero.mp hempty), List.length_nil, List.drop_zero]
    exact ⟨h.bufferPos_lt, h.four_dvd_bufferPos, hreceived, h.messages_eq, h.delivered_eq,
      h.rest_eq, h.returned⟩
  next hpositive =>
    refine ⟨h.bufferPos_lt, h.four_dvd_bufferPos, ?_, h.messages_eq, h.delivered_eq, ?_, ?_⟩
    · dsimp only
      omega
    · dsimp only [buffered, bytesAt]
      rw [Mirror.read_write_append _ _ (by omega), List.append_assoc, hstream]
      exact h.rest_eq
    · intro bytes hbytes
      obtain ⟨hle, hnext⟩ := h.returned bytes hbytes
      exact ⟨hle.trans (Nat.le_add_right _ _), hnext⟩

theorem invariant_nextMessage (hpage : pageSize ≤ 2 ^ 30)
    (h : Invariant pageSize messages done rest s) :
    Invariant pageSize messages done rest (s.step pageSize .nextMessage) := by
  refine ⟨h.bufferPos_lt, h.four_dvd_bufferPos, h.receivedSize_le, h.messages_eq, h.delivered_eq,
    h.rest_eq, ?_⟩
  intro bytes hbytes
  simp only [step, nextMessage_of_invariant hpage h] at hbytes
  cases rest with
  | nil => exact absurd hbytes (by simp [nextSize])
  | cons message more =>
      by_cases hcomplete : message.bytes.length ≤ s.client.receivedSize
      · have hsize := message.size_ge
        rw [nextSize, if_pos hcomplete, if_pos (by omega), Int.toNat_natCast,
          bytesAt_of_invariant h hcomplete] at hbytes
        obtain rfl := Option.some.inj hbytes
        exact ⟨hcomplete, message, rfl, rfl⟩
      · rw [nextSize, if_neg hcomplete, if_neg (by decide)] at hbytes
        exact absurd hbytes (Option.not_mem_none _)

theorem invariant_ackMessage (hpage : 32 ≤ pageSize → 4 ∣ pageSize)
    (h : Invariant pageSize messages done rest s) :
    ∃ done rest, Invariant pageSize messages done rest (s.step pageSize .ackMessage) := by
  cases hreturned : s.returned with
  | none =>
      refine ⟨done, rest, ?_⟩
      simp only [step, hreturned]
      exact h
  | some bytes =>
      obtain ⟨hcomplete, message, hhead, rfl⟩ := h.returned bytes hreturned
      obtain ⟨more, rfl⟩ := List.head?_eq_some_iff.mp hhead
      have hdvd : 4 ∣ pageSize := hpage (message.size_ge.trans message.fits)
      refine ⟨done ++ [message], more, ?_⟩
      simp only [step, hreturned]
      refine ⟨Nat.mod_lt _ (Nat.zero_lt_of_lt h.bufferPos_lt), ?_,
        (Nat.sub_le _ _).trans h.receivedSize_le, ?_, ?_, ?_, nofun⟩
      · exact (Nat.dvd_mod_iff hdvd).mpr (Nat.dvd_add h.four_dvd_bufferPos message.four_dvd_size)
      · rw [h.messages_eq, List.append_assoc, List.singleton_append]
      · rw [h.delivered_eq, List.map_append, List.map_singleton]
      · have hdrop := congrArg (List.drop message.bytes.length) h.rest_eq
        rw [List.drop_append_of_le_length (by rw [length_buffered]; exact hcomplete),
          List.flatMap_cons, List.drop_left, buffered, bytesAt,
          Mirror.drop_read _ hcomplete] at hdrop
        rw [← hdrop]
        simp only [buffered, bytesAt, ackMessage, Mirror.read_mod]

/-- Every call keeps the invariant. -/
theorem invariant_step {k : ℕ} {messages done rest : List (Message (2 ^ k))} (hk : k ≤ 30)
    {s : Session}
    (h : Invariant (2 ^ k) messages done rest s) (event : Event) :
    ∃ done rest, Invariant (2 ^ k) messages done rest (s.step (2 ^ k) event) := by
  cases event with
  | receive numRead => exact ⟨done, rest, invariant_receive h numRead⟩
  | nextMessage =>
      exact ⟨done, rest, invariant_nextMessage (Nat.pow_le_pow_right (by decide) hk) h⟩
  | ackMessage =>
      refine invariant_ackMessage (fun hpage => ?_) h
      have htwo : 2 ≤ k := by
        by_contra hsmall
        have hlt : 2 ^ k ≤ 2 ^ 1 := Nat.pow_le_pow_right (by decide) (by omega)
        omega
      exact Nat.pow_dvd_pow 2 htwo

/-- Before the first call. -/
def start {pageSize : ℕ} (messages : List (Message pageSize)) : Session where
  client := init
  stream := messages.flatMap Message.bytes

/-- In every run, whatever `recvfrom` delivers at a time, the acknowledged messages are the first
ones that the server has sent; `nextMessage` returns the size of the one that follows, with its
bytes at `bufferPos`, exactly if the buffer has all of it; and the position and the size stay in
their bounds. -/
theorem delivers_throughout {k : ℕ} (hk : k ≤ 30) (messages : List (Message (2 ^ k)))
    (events : List Event) :
    Runs.Throughout (step (2 ^ k)) (Delivers (2 ^ k) messages) (start messages) events := by
  have hinvariant : Runs.Throughout (step (2 ^ k))
      (fun s => ∃ done rest, Invariant (2 ^ k) messages done rest s) (start messages) events := by
    refine Runs.Throughout.of_everyStep (C := fun _ _ => True) ?_ ?_ fun _ _ _ _ => trivial
    · exact ⟨[], messages, ⟨Nat.two_pow_pos k, dvd_zero 4, Nat.zero_le _, rfl, rfl, rfl, nofun⟩⟩
    · rintro s event ⟨done, rest, h⟩ -
      exact invariant_step hk h event
  intro before after hevents
  obtain ⟨done, rest, h⟩ := hinvariant before after hevents
  exact ⟨done, rest, h, nextMessage_of_invariant (Nat.pow_le_pow_right (by decide) hk) h⟩

/-- An error and a reply with four more bytes. -/
def sampleMessages : List (Message (2 ^ 12)) :=
  [⟨.replicate 32 0, by decide, by decide⟩,
    ⟨[1, 0, 0, 0, 1, 0, 0, 0] ++ .replicate 28 0, by decide, by decide⟩]

/-- The reply arrives in two parts. -/
theorem delivers_throughout_sample :
    12 ≤ 30 ∧
      Runs.Throughout (step (2 ^ 12)) (Delivers (2 ^ 12) sampleMessages) (start sampleMessages)
        [.receive 40, .nextMessage, .ackMessage, .nextMessage, .receive 100, .nextMessage,
          .ackMessage] :=
  ⟨by decide, delivers_throughout (by decide) _ _⟩

end Session

end X11Client

end Hc
