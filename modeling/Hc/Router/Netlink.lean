import Hc.Foundation.Bytes
import Hc.Core.Util

/-!
# Responses of netlink sockets

`router/router/netlink/netlink.c`. The kernel answers a dump with messages that have the flag
`NLM_F_MULTI`, in as many datagrams as it likes, and ends it with `NLMSG_DONE`. `netlink_receive`
returns at the end of the first datagram; what follows it is there for the next request.
-/

namespace Hc.Netlink

/-- `sizeof(buffer)`. -/
abbrev bufferSize : ℕ := 66000

/-- `sizeof(struct nlmsghdr)`. -/
abbrev headerSize : ℕ := 16

/-- `NLMSG_ERROR` and `NLMSG_DONE`. -/
abbrev errorType : BitVec 16 := 2
abbrev doneType : BitVec 16 := 3

/-- `NLM_F_MULTI`. -/
abbrev multiFlag : BitVec 16 := 2

/-- How `netlink_receive` ends: it returns, or a `CHECK` fails and ends the program. -/
inductive Exit where
  | returned
  | failed
deriving DecidableEq

/-- The loop over the messages from the offset `respHdr` on, up to `last`; `none` if it does not end
in `fuel` iterations. Every way out of it is a `return`. -/
def messageLoop (buffer : List UInt8) (last : ℕ) : ℕ → ℕ → Option Exit
  | 0, _ => none
  | fuel + 1, respHdr =>
    let type := loadLE 16 buffer (respHdr + 4)
    if type = errorType ∨ type = doneType then
      let error := loadLE 32 buffer (respHdr + headerSize)
      some (if error = 0 then .returned else .failed)
    else
      let next := respHdr + alignForward (loadLE 32 buffer respHdr).toNat 4 % 2 ^ 32
      if next = last then some .returned
      else messageLoop buffer last fuel next

/-- How a call of `netlink_receive` ends, and the datagrams that are still in the socket. -/
structure Outcome where
  exit : Option Exit
  queue : List (List UInt8)
deriving DecidableEq

/-- `netlink_receive` with `queue` in the socket. As the loop over the messages returns, the loop
around it is never run a second time, and `recvOffset` stays 0. -/
def receive (buffer : List UInt8) : List (List UInt8) → Outcome
  -- `MSG_DONTWAIT`: there is nothing to wait for.
  | [] => ⟨some .failed, []⟩
  | datagram :: queue =>
    let received := min datagram.length bufferSize
    if received ≤ headerSize then ⟨some .failed, queue⟩
    else
      let buffer := datagram.take received ++ buffer.drop received
      ⟨messageLoop buffer received received 0, queue⟩

/-! ## Responses -/

/-- A message of the kernel. -/
structure Message where
  type : BitVec 16
  flags : BitVec 16
  seq : BitVec 32
  pid : BitVec 32
  payload : List UInt8

namespace Message

variable (message : Message)

/-- `nlmsg_len`. -/
def len : ℕ := headerSize + message.payload.length

/-- `struct nlmsghdr`. -/
def header : List UInt8 :=
  storeLE (BitVec.ofNat 32 message.len) ++ (storeLE message.type ++ (storeLE message.flags ++
    (storeLE message.seq ++ storeLE message.pid)))

/-- The header, the payload and the padding. -/
def bytes : List UInt8 :=
  message.header ++ (message.payload ++ .replicate (alignForward message.len 4 - message.len) 0)

/-- The error code of `NLMSG_ERROR` and `NLMSG_DONE`. -/
def error : BitVec 32 := loadLE 32 message.payload 0

/-- The message ends a response. -/
abbrev IsLast : Prop := message.type = errorType ∨ message.type = doneType

theorem len_le_alignForward : message.len ≤ alignForward message.len 4 := by
  unfold alignForward
  omega

theorem length_header : message.header.length = headerSize := by
  simp only [header, List.length_append, length_storeLE]

theorem length_bytes : message.bytes.length = alignForward message.len 4 := by
  have hle := message.len_le_alignForward
  have hlen : message.len = 16 + message.payload.length := rfl
  rw [bytes, List.length_append, length_header, List.length_append, List.length_replicate,
    ← add_assoc, ← hlen]
  omega

theorem headerSize_le_length_bytes : headerSize + message.payload.length ≤
    message.bytes.length := by
  rw [length_bytes]
  exact message.len_le_alignForward

variable {message}

theorem loadLE_len (before after : List UInt8) (hlen : message.len < 2 ^ 32) :
    (loadLE 32 (before ++ (message.bytes ++ after)) before.length).toNat = message.len := by
  rw [bytes, header, List.append_assoc, List.append_assoc, loadLE_append (by decide),
    BitVec.toNat_ofNat, Nat.mod_eq_of_lt hlen]

theorem loadLE_type (before after : List UInt8) :
    loadLE 16 (before ++ (message.bytes ++ after)) (before.length + 4) = message.type := by
  have hbefore : (before ++ storeLE (BitVec.ofNat 32 message.len)).length = before.length + 4 := by
    rw [List.length_append, length_storeLE]
  rw [bytes, header, List.append_assoc, List.append_assoc, List.append_assoc,
    ← List.append_assoc before, ← hbefore, loadLE_append (by decide)]

theorem loadLE_error (before after : List UInt8) (hpayload : 4 ≤ message.payload.length) :
    loadLE 32 (before ++ (message.bytes ++ after))
      (before.length + headerSize) = message.error := by
  have hdrop : (before ++ (message.bytes ++ after)).drop (before.length + headerSize) =
      message.payload ++ (.replicate (alignForward message.len 4 - message.len) 0 ++ after) := by
    rw [← List.drop_drop, List.drop_left, bytes, List.append_assoc, List.append_assoc,
      List.drop_left' message.length_header]
  rw [loadLE, hdrop, List.take_append_of_le_length hpayload]
  rfl

end Message

/-- The answer to a request: messages with `NLM_F_MULTI` and one that ends them, in datagrams of
whole messages that fit in the buffer. -/
structure Response where
  datagrams : List (List Message)
  parts : List Message
  last : Message
  flatten_eq : datagrams.flatten = parts ++ [last]
  nonempty : ∀ datagram ∈ datagrams, datagram ≠ []
  multi : ∀ message ∈ parts, ¬message.IsLast ∧ message.flags &&& multiFlag = multiFlag
  isLast : last.IsLast
  hasError : 4 ≤ last.payload.length
  fits : ∀ datagram ∈ datagrams, (datagram.flatMap Message.bytes).length ≤ bufferSize

namespace Response

variable (response : Response)

/-- The response in the socket. -/
def queue : List (List UInt8) := response.datagrams.map fun datagram =>
    datagram.flatMap Message.bytes

/-- `netlink_receive` goes on to the message that ends the response, and leaves nothing of the
response in the socket. -/
def ReceivedFull (buffer : List UInt8) : Prop :=
  receive buffer response.queue = ⟨some (if response.last.error = 0 then .returned else .failed),
    []⟩

end Response

/-- The loop goes over the messages of a response up to the last one. -/
theorem messageLoop_last {parts : List Message} {last : Message} (before after : List UInt8)
    {fuel length : ℕ} (hparts : ∀ message ∈ parts, ¬message.IsLast) (hlast : last.IsLast)
    (hpayload : 4 ≤ last.payload.length) (hfuel : parts.length < fuel)
    (hlength : (before ++ (parts.flatMap Message.bytes ++ last.bytes)).length ≤ length)
    (hsmall : length < 2 ^ 32) :
    messageLoop (before ++ (parts.flatMap Message.bytes ++ (last.bytes ++ after))) length fuel
        before.length = some (if last.error = 0 then .returned else .failed) := by
  induction parts generalizing before fuel with
  | nil =>
      obtain ⟨fuel, rfl⟩ : ∃ k, fuel = k + 1 := ⟨fuel - 1, by omega⟩
      rw [List.flatMap_nil, List.nil_append, messageLoop, Message.loadLE_type]
      dsimp only
      rw [if_pos hlast, Message.loadLE_error _ _ hpayload]
  | cons message parts ih =>
      obtain ⟨fuel, rfl⟩ : ∃ k, fuel = k + 1 := ⟨fuel - 1, by omega⟩
      have hlen := message.len_le_alignForward
      have hpos := last.headerSize_le_length_bytes
      simp only [List.flatMap_cons, List.length_append, message.length_bytes] at hlength
      rw [List.flatMap_cons, List.append_assoc, messageLoop, Message.loadLE_type,
        Message.loadLE_len _ _ (by omega)]
      dsimp only
      rw [if_neg (hparts message List.mem_cons_self), Nat.mod_eq_of_lt (by omega),
        if_neg (by omega)]
      have hnext := ih (before ++ message.bytes) (fun m hm => hparts m (List.mem_cons_of_mem _ hm))
        (by simpa using hfuel) (by
          simp only [List.length_append, message.length_bytes]
          omega)
      rw [List.length_append, message.length_bytes, List.append_assoc] at hnext
      exact hnext

theorem length_le_length_flatMap_bytes (messages : List Message) :
    messages.length ≤ (messages.flatMap Message.bytes).length := by
  induction messages with
  | nil => exact le_rfl
  | cons message messages ih =>
      have hpos := message.headerSize_le_length_bytes
      have hheader : headerSize = 16 := rfl
      rw [List.flatMap_cons, List.length_append, List.length_cons]
      omega

/-- Whatever is received, it is one datagram. -/
theorem receive_cons (buffer datagram : List UInt8) (queue : List (List UInt8)) :
    receive buffer (datagram :: queue) = ⟨(receive buffer [datagram]).exit, queue⟩ := by
  unfold receive
  dsimp only
  split <;> rfl

/-- A response is received in full exactly if it comes in one datagram. -/
theorem receivedFull_iff (response : Response) (buffer : List UInt8) :
    response.ReceivedFull buffer ↔ response.datagrams.length = 1 := by
  constructor
  · intro h
    cases hdatagrams : response.datagrams with
    | nil =>
        have hflatten := response.flatten_eq
        rw [hdatagrams] at hflatten
        simp at hflatten
    | cons datagram datagrams =>
        rw [Response.ReceivedFull, Response.queue, hdatagrams, List.map_cons, receive_cons] at h
        have hrest := congrArg Outcome.queue h
        rw [List.map_eq_nil_iff.mp hrest, List.length_singleton]
  · intro h
    obtain ⟨datagram, hdatagram⟩ := List.length_eq_one_iff.mp h
    have hbytes : datagram.flatMap Message.bytes =
        response.parts.flatMap Message.bytes ++ response.last.bytes := by
      have hparts : datagram = response.parts ++ [response.last] := by
        rw [← response.flatten_eq, hdatagram, List.flatten_singleton]
      rw [hparts, List.flatMap_append, List.flatMap_singleton]
    have hfits := response.fits datagram (by simp [hdatagram])
    have hpos := response.last.headerSize_le_length_bytes
    have hpayload := response.hasError
    have hfuel := length_le_length_flatMap_bytes response.parts
    have hlength := congrArg List.length hbytes
    rw [List.length_append] at hlength
    rw [Response.ReceivedFull, Response.queue, hdatagram, List.map_singleton, receive]
    dsimp only
    rw [min_eq_left hfits, if_neg (by omega), List.take_length]
    have hloop := messageLoop_last [] (buffer.drop (datagram.flatMap Message.bytes).length)
      (fun message hmessage => (response.multi message hmessage).1) response.isLast hpayload
      (show response.parts.length < (datagram.flatMap Message.bytes).length by omega)
      (by rw [List.nil_append, hbytes]) (lt_of_le_of_lt hfits (by decide))
    rw [List.nil_append, ← List.append_assoc, ← hbytes] at hloop
    rw [← hloop]
    rfl

/-- A part of a dump. -/
def samplePart : Message := ⟨16, multiFlag, 1, 0, [1, 0, 0, 0]⟩

def sampleDone : Message := ⟨doneType, multiFlag, 1, 0, [0, 0, 0, 0]⟩

/-- A dump of one part, with `NLMSG_DONE` in a second datagram. -/
def sampleResponse : Response where
  datagrams := [[samplePart], [sampleDone]]
  parts := [samplePart]
  last := sampleDone
  flatten_eq := rfl
  nonempty := by decide
  multi := by decide
  isLast := by decide
  hasError := by decide
  fits := by decide +kernel

/-- `netlink_receive` returns in front of `NLMSG_DONE`, which the next call takes for its response.
-/
theorem not_receivedFull_sampleResponse :
    ¬sampleResponse.ReceivedFull [] ∧
      receive [] sampleResponse.queue = ⟨some .returned, [sampleDone.bytes]⟩ ∧
      ∀ response : Response,
        receive [] ([sampleDone.bytes] ++ response.queue) = ⟨some .returned, response.queue⟩ := by
  have hcalls : receive [] sampleResponse.queue = ⟨some .returned, [sampleDone.bytes]⟩ ∧
      receive [] [sampleDone.bytes] = ⟨some .returned, []⟩ := by
    decide +kernel
  refine ⟨fun h => ?_, hcalls.1, fun response => ?_⟩
  · rw [Response.ReceivedFull, hcalls.1] at h
    exact absurd (congrArg Outcome.queue h) (List.cons_ne_nil _ _)
  · rw [List.singleton_append, receive_cons, hcalls.2]

end Hc.Netlink
