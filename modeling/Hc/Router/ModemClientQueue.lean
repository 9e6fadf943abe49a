import Hc.Router.ModemClientRun

/-!
# The command queue in memory

`commandQueue` is an array of bytes that holds packed records one after the other. They are
appended at `commandQueueSize`, read through a cast of the address of the first byte, and
moved down when the first one is acknowledged. The queue of `ModemClient` is what these
records say, and the operations on the array do what the operations on the list do.
-/

namespace Hc.ModemClient

/-- Text with a length that fits in an unsigned integer of `w` bits. -/
abbrev Text (w : ℕ) := { text : List UInt8 // text.length < 2 ^ w }

/-- The fields of `struct modemClient` that the queue operations use, and the writes to the
modem so far. -/
structure PackedQueue where
  commandQueue : Bytes 4103
  commandQueueSize : ℕ
  pendingCommand : Bool
  log : List (List UInt8)

/-- The bytes at an address. -/
def bytesAt (memory : ℕ → UInt8) (address : BitVec 64) (length : ℕ) : List UInt8 :=
  (List.range length).map fun i => memory (address.toNat + i)

namespace PackedQueue

section Code

variable (memory : ℕ → UInt8) (env : Env)

/-- What `modemClient_processQueue` writes for the record at the front of the array, and the
result that it expects; `none` for the default of its switch. -/
def frontWrite (queue : List UInt8) : Option (List UInt8 × ℕ) :=
  match (byteAt queue 0).toNat with
  | 1 =>
    let constantLength := (loadLE 16 queue 1).toNat
    some (bytesAt memory (loadLE 64 queue 3) constantLength, constantLength)
  | 2 =>
    let numberSize := (byteAt queue 1).toNat
    some (ascii "AT+CMGS=\"" ++ (queue.drop 2).take numberSize ++ ascii "\"\x0d",
      9 + numberSize + 2)
  | 3 =>
    let smsSize := (loadLE 16 queue 1).toNat
    some ((queue.drop 3).take smsSize ++ [0x1a], smsSize + 1)
  | _ => none

/-- `modemClient_processQueue` with its result. -/
def processQueue (self : PackedQueue) : Option (PackedQueue × ℤ) :=
  if self.pendingCommand ∨ self.commandQueueSize = 0 then some (self, 0)
  else
    match frontWrite memory self.commandQueue.toList with
    | none => none
    | some (bytes, expected) =>
      let written := env.write self.log.length bytes.length
      if written ≠ expected then some ({ self with log := self.log ++ [bytes] }, -1)
      else some ({ self with log := self.log ++ [bytes], pendingCommand := true }, 0)

/-- The end of the two enqueue operations: the bytes of the records go behind the others. -/
def append (self : PackedQueue) (cmd : List UInt8) : PackedQueue :=
  { self with
    commandQueue := self.commandQueue.write self.commandQueueSize cmd
    commandQueueSize := self.commandQueueSize + cmd.length }

/-- `struct modemClient_constant`. -/
def constantCmd (constantLength : BitVec 16) (constant : BitVec 64) : List UInt8 :=
  1 :: (storeLE constantLength ++ storeLE constant)

/-- `struct modemClient_startSms` and the number after it. -/
def startSmsCmd (number : List UInt8) : List UInt8 := 2 :: UInt8.ofNat number.length :: number

/-- `struct modemClient_sendSms` and the text after it. -/
def sendSmsCmd (sms : List UInt8) : List UInt8 := 3 :: (storeLE (BitVec.ofNat 16 sms.length) ++ sms)

/-- `modemClient_queueConstant`. -/
def queueConstant (self : PackedQueue) (constant : BitVec 64) (constantLength : BitVec 16) :
    Option (PackedQueue × ℤ) :=
  if self.commandQueueSize > 4103 - 11 then some (self, -1)
  else processQueue memory env (self.append (constantCmd constantLength constant))

/-- `modemClient_queueSms`. -/
def queueSms (self : PackedQueue) (number : Text 8) (sms : Text 16) : Option (PackedQueue × ℤ) :=
  let startCmdSize : ℤ := 2 + number.1.length
  let sendCmdSize : ℤ := 3 + sms.1.length
  if (self.commandQueueSize : ℤ) > 4103 - startCmdSize - sendCmdSize then some (self, -1)
  else processQueue memory env ((self.append (startSmsCmd number.1)).append (sendSmsCmd sms.1))

/-- The switch of `modemClient_ackPending`. -/
def ackSize (queue : List UInt8) : Option ℕ :=
  match (byteAt queue 0).toNat with
  | 1 => some 11
  | 2 => some (2 + (byteAt queue 1).toNat)
  | 3 => some (3 + (loadLE 16 queue 1).toNat)
  | _ => none

/-- `modemClient_ackPending`, `none` when one of its assumptions fails. -/
def ackPending (self : PackedQueue) : Option (PackedQueue × ℤ) :=
  if self.pendingCommand then
    match ackSize self.commandQueue.toList with
    | none => none
    | some ackSize =>
      if self.commandQueueSize < ackSize then none
      else
        let size := self.commandQueueSize - ackSize
        processQueue memory env
          { self with
            commandQueue := self.commandQueue.write 0
              ((self.commandQueue.toList.drop ackSize).take size)
            commandQueueSize := size
            pendingCommand := false }
  else none

end Code

/-! ## Records -/

/-- A record of the queue. -/
inductive Record where
  | constant (constantLength : BitVec 16) (address : BitVec 64)
  | startSms (number : Text 8)
  | sendSms (sms : Text 16)

namespace Record

def encode : Record → List UInt8
  | constant constantLength address => constantCmd constantLength address
  | startSms number => startSmsCmd number.1
  | sendSms sms => sendSmsCmd sms.1

/-- The command that a record stands for. -/
def command (memory : ℕ → UInt8) : Record → Command
  | constant constantLength address => .constant (bytesAt memory address constantLength.toNat)
  | startSms number => .startSms number.1
  | sendSms sms => .sendSms sms.1

end Record

/-! ## Requests -/

/-- What the rest of the program asks the queue for. -/
inductive Request where
  | constant (address : BitVec 64) (constantLength : BitVec 16)
  | sms (number : Text 8) (sms : Text 16)

namespace Request

def records : Request → List Record
  | constant address constantLength => [.constant constantLength address]
  | sms number text => [.startSms number, .sendSms text]

/-- The operation of the code. -/
def enqueue (memory : ℕ → UInt8) (env : Env) (q : PackedQueue) : Request → Option (PackedQueue × ℤ)
  | constant address constantLength => q.queueConstant memory env address constantLength
  | sms number text => q.queueSms memory env number text

/-- The operation of the list model. -/
def enqueueList (memory : ℕ → UInt8) (env : Env) (s : State) : Request → State × Bool
  | constant address constantLength =>
      ModemClient.queueConstant env s (bytesAt memory address constantLength.toNat)
  | sms number text => ModemClient.queueSms env s number.1 text.1

def size (request : Request) : ℕ := (request.records.flatMap Record.encode).length

end Request

variable {memory : ℕ → UInt8}

theorem length_encode (memory : ℕ → UInt8) (record : Record) :
    record.encode.length = (record.command memory).size := by
  cases record with
  | constant constantLength address =>
      simp [Record.encode, constantCmd, Record.command, Command.size, storeLE]
  | startSms number =>
      simp only [Record.encode, startSmsCmd, Record.command, Command.size, List.length_cons]
      omega
  | sendSms sms =>
      simp only [Record.encode, sendSmsCmd, Record.command, Command.size, List.length_cons,
        List.length_append, storeLE, length_leBytes]
      omega

/-! The fields of each kind of record are found at their offsets. -/

theorem constantLength_eq (constantLength : BitVec 16) (address : BitVec 64) (rest : List UInt8) :
    loadLE 16 (constantCmd constantLength address ++ rest) 1 = constantLength := by
  have h := loadLE_append (by decide) constantLength [1] (storeLE address ++ rest)
  rwa [← List.append_assoc] at h

theorem constantAddress_eq (constantLength : BitVec 16) (address : BitVec 64) (rest : List UInt8) :
    loadLE 64 (constantCmd constantLength address ++ rest) 3 = address := by
  have h := loadLE_append (by decide) address (1 :: storeLE constantLength) rest
  simp only [List.length_cons, storeLE, length_leBytes] at h
  simpa [constantCmd, storeLE] using h

theorem numberSize_eq (number : Text 8) (rest : List UInt8) :
    (byteAt (startSmsCmd number.1 ++ rest) 1).toNat = number.1.length := by
  change (UInt8.ofNat number.1.length).toNat = _
  rw [UInt8.toNat_ofNat']
  exact Nat.mod_eq_of_lt number.2

theorem smsSize_eq (sms : Text 16) (rest : List UInt8) :
    (loadLE 16 (sendSmsCmd sms.1 ++ rest) 1).toNat = sms.1.length := by
  have h := loadLE_append (by decide) (BitVec.ofNat 16 sms.1.length) [3] (sms.1 ++ rest)
  rw [← List.append_assoc] at h
  change (loadLE 16 (sendSmsCmd sms.1 ++ rest) 1) = _ at h
  rw [h, BitVec.toNat_ofNat]
  exact Nat.mod_eq_of_lt sms.2

/-- The switch of `modemClient_processQueue` reads a record back. -/
theorem frontWrite_encode (record : Record) (rest : List UInt8) :
    frontWrite memory (record.encode ++ rest) =
      some ((record.command memory).render, (record.command memory).render.length) := by
  unfold frontWrite
  cases record with
  | constant constantLength address =>
      have htag : (byteAt (constantCmd constantLength address ++ rest) 0).toNat = 1 := rfl
      simp only [Record.encode, htag, constantLength_eq, constantAddress_eq, Record.command,
        Command.render, bytesAt, List.length_map, List.length_range]
  | startSms number =>
      have htag : (byteAt (startSmsCmd number.1 ++ rest) 0).toNat = 2 := rfl
      have hnumber : ((startSmsCmd number.1 ++ rest).drop 2).take number.1.length = number.1 :=
        List.take_left
      have hlength : (ascii "AT+CMGS=\"" ++ number.1 ++ ascii "\"\x0d").length =
          9 + number.1.length + 2 := by
        rw [List.length_append, List.length_append]
        rfl
      simp only [Record.encode, htag, numberSize_eq, hnumber, Record.command, Command.render,
        hlength]
  | sendSms sms =>
      have htag : (byteAt (sendSmsCmd sms.1 ++ rest) 0).toNat = 3 := rfl
      have hsms : ((sendSmsCmd sms.1 ++ rest).drop 3).take sms.1.length = sms.1 := List.take_left
      simp only [Record.encode, htag, smsSize_eq, hsms, Record.command, Command.render,
        List.length_append, List.length_singleton]

/-- The switch of `modemClient_ackPending` computes the size that was appended. -/
theorem ackSize_encode (record : Record) (rest : List UInt8) :
    ackSize (record.encode ++ rest) = some record.encode.length := by
  unfold ackSize
  cases record with
  | constant constantLength address => simp [Record.encode, constantCmd, byteAt, storeLE]
  | startSms number =>
      have htag : (byteAt (startSmsCmd number.1 ++ rest) 0).toNat = 2 := rfl
      have hlength : (startSmsCmd number.1).length = 2 + number.1.length := by
        rw [startSmsCmd, List.length_cons, List.length_cons]
        omega
      simp only [Record.encode, htag, numberSize_eq, hlength]
  | sendSms sms =>
      have htag : (byteAt (sendSmsCmd sms.1 ++ rest) 0).toNat = 3 := rfl
      have hlength : (sendSmsCmd sms.1).length = 3 + sms.1.length := by
        rw [sendSmsCmd, List.length_cons, List.length_append, storeLE, length_leBytes]
        omega
      simp only [Record.encode, htag, smsSize_eq, hlength]

/-! ## The array and the list -/

/-- The used part of the array is the given records. -/
structure Packs (q : PackedQueue) (records : List Record) : Prop where
  le : q.commandQueueSize ≤ 4103
  bytes : q.commandQueue.toList.take q.commandQueueSize = records.flatMap Record.encode

variable {q : PackedQueue} {s : State} {record : Record} {records : List Record}

theorem Packs.size_eq (h : Packs q records) :
    q.commandQueueSize = (records.flatMap Record.encode).length := by
  rw [← h.bytes, List.length_take, q.commandQueue.toList_length, Nat.min_eq_left h.le]

theorem Packs.toList_eq (h : Packs q records) : q.commandQueue.toList =
    records.flatMap Record.encode ++ q.commandQueue.toList.drop q.commandQueueSize := by
  rw [← h.bytes, List.take_append_drop]

theorem encode_ne_nil (record : Record) : record.encode ≠ [] := by
  cases record with
  | constant => exact List.cons_ne_nil _ _
  | startSms => exact List.cons_ne_nil _ _
  | sendSms => exact List.cons_ne_nil _ _

theorem Packs.size_eq_zero_iff (h : Packs q records) : q.commandQueueSize = 0 ↔ records = [] := by
  rw [h.size_eq, List.length_eq_zero_iff, List.flatMap_eq_nil_iff]
  constructor
  · intro hall
    cases records with
    | nil => rfl
    | cons record records => exact absurd (hall record List.mem_cons_self) (encode_ne_nil record)
  · rintro rfl
    exact nofun

theorem Packs.append (h : Packs q records) (record : Record)
    (hfits : q.commandQueueSize + record.encode.length ≤ 4103) :
    Packs (q.append record.encode) (records ++ [record]) := by
  refine ⟨hfits, ?_⟩
  have htake := q.commandQueue.take_write q.commandQueueSize record.encode hfits
  rw [h.bytes] at htake
  rw [List.flatMap_append, List.flatMap_singleton]
  exact htake

/-- Moving the rest down drops the first record. -/
theorem Packs.tail (h : Packs q (record :: records)) (pendingCommand : Bool) :
    Packs { q with
      commandQueue := q.commandQueue.write 0 ((q.commandQueue.toList.drop record.encode.length).take
        (q.commandQueueSize - record.encode.length))
      commandQueueSize := q.commandQueueSize - record.encode.length
      pendingCommand := pendingCommand } records := by
  have hsize := h.size_eq
  have hle := h.le
  rw [List.flatMap_cons, List.length_append] at hsize
  have hmoved : (q.commandQueue.toList.drop record.encode.length).take
      (q.commandQueueSize - record.encode.length) = records.flatMap Record.encode := by
    rw [← List.drop_take, h.bytes, List.flatMap_cons, List.drop_left]
  have htake := q.commandQueue.take_write 0 (records.flatMap Record.encode) (by omega)
  refine ⟨by simp only; omega, ?_⟩
  simp only [hmoved]
  rw [hsize, Nat.add_sub_cancel_left, ← Nat.zero_add (records.flatMap Record.encode).length, htake]
  rfl

/-- The array holds the queue of the list model, and both have written the same. -/
structure Refines (memory : ℕ → UInt8) (q : PackedQueue) (s : State) (records : List Record) :
    Prop where
  packs : Packs q records
  queue : s.queue = records.map (Record.command memory)
  pendingCommand : s.pendingCommand = q.pendingCommand
  log : s.log = q.log
  connected : s.connected = true

/-- The result of an operation as the code returns it. -/
def code (ok : Bool) : ℤ := if ok then 0 else -1

theorem Refines.queueSize (h : Refines memory q s records) : s.queueSize = q.commandQueueSize := by
  rw [h.packs.size_eq, State.queueSize, h.queue, List.map_map, List.length_flatMap]
  congr 1
  apply List.map_congr_left
  intro record _
  exact (length_encode memory record).symm

/-- `modemClient_processQueue` on the array does what it does on the list. -/
theorem processQueue_refines (env : Env) (h : Refines memory q s records) :
    ∃ q', processQueue memory env q = some (q', code (ModemClient.processQueue env s).2) ∧
      Refines memory q' (ModemClient.processQueue env s).1 records := by
  have hqueue := h.queue
  unfold processQueue ModemClient.processQueue
  rw [h.pendingCommand]
  by_cases hpending : q.pendingCommand = true
  · rw [if_pos (.inl hpending), if_pos hpending]
    exact ⟨q, rfl, h⟩
  · cases records with
    | nil =>
        rw [if_pos (.inr (h.packs.size_eq_zero_iff.mpr rfl)), if_neg hpending]
        rw [List.map_nil] at hqueue
        rw [hqueue]
        exact ⟨q, rfl, h⟩
    | cons record records =>
        have hsize : q.commandQueueSize ≠ 0 := fun hzero =>
          List.cons_ne_nil _ _ (h.packs.size_eq_zero_iff.mp hzero)
        rw [List.map_cons] at hqueue
        have hfront : frontWrite memory q.commandQueue.toList =
            some ((record.command memory).render, (record.command memory).render.length) := by
          rw [h.packs.toList_eq, List.flatMap_cons, List.append_assoc]
          exact frontWrite_encode record _
        rw [if_neg (not_or.mpr ⟨hpending, hsize⟩), if_neg hpending, hfront, hqueue]
        simp only [sysWrite, h.connected, if_true, h.log]
        split
        next => exact ⟨_, rfl, ⟨h.packs.le, h.packs.bytes⟩, h.queue, h.pendingCommand, rfl, rfl⟩
        next => exact ⟨_, rfl, ⟨h.packs.le, h.packs.bytes⟩, h.queue, rfl, rfl, rfl⟩

/-- Appending a record appends its command. -/
theorem Refines.append (h : Refines memory q s records) (record : Record)
    (hfits : q.commandQueueSize + record.encode.length ≤ 4103) :
    Refines memory (q.append record.encode)
      { s with queue := s.queue ++ [record.command memory] } (records ++ [record]) := by
  refine ⟨h.packs.append record hfits, ?_, h.pendingCommand, h.log, h.connected⟩
  rw [List.map_append, List.map_singleton, h.queue]

/-- Both enqueue operations, on the array and on the list: refused for lack of space with the
queue unchanged, or appended. -/
theorem enqueue_refines (env : Env) (h : Refines memory q s records) (request : Request) :
    (4103 < q.commandQueueSize + request.size ∧
      request.enqueue memory env q = some (q, -1) ∧ request.enqueueList memory env s = (s, false)) ∨
    (q.commandQueueSize + request.size ≤ 4103 ∧ ∃ s' q',
      s' = { s with queue := s.queue ++ request.records.map (Record.command memory) } ∧
      request.enqueueList memory env s = ModemClient.processQueue env s' ∧
      request.enqueue memory env q = some (q', code (ModemClient.processQueue env s').2) ∧
      Refines memory q' (ModemClient.processQueue env s').1 (records ++ request.records)) := by
  cases request with
  | constant address constantLength =>
      have hsize : Request.size (.constant address constantLength) = 11 := by
        simp [Request.size, Request.records, length_encode memory, Record.command, Command.size]
      simp only [Request.enqueue, Request.enqueueList, queueConstant, ModemClient.queueConstant,
        hsize, h.queueSize, Command.size]
      rcases Nat.lt_or_ge 4103 (q.commandQueueSize + 11) with hfull | hfits
      · left
        rw [if_pos (by omega), if_pos (by omega)]
        exact ⟨hfull, rfl, rfl⟩
      · right
        rw [if_neg (by omega), if_neg (by omega)]
        have hlength := length_encode memory (.constant constantLength address)
        have happend := h.append (.constant constantLength address) (by rw [hlength]; exact hfits)
        obtain ⟨q', hcall, hrefines⟩ := processQueue_refines env happend
        exact ⟨hfits, _, q', rfl, rfl, hcall, hrefines⟩
  | sms number text =>
      have hstart := length_encode memory (.startSms number)
      have hsend := length_encode memory (.sendSms text)
      simp only [Record.command, Command.size] at hstart hsend
      have hsize : Request.size (.sms number text) = 2 + number.1.length + (3 + text.1.length) := by
        simp only [Request.size, Request.records, List.flatMap_cons, List.flatMap_nil,
          List.length_append, hstart, hsend, List.length_nil]
        rfl
      simp only [Request.enqueue, Request.enqueueList, queueSms, ModemClient.queueSms, hsize,
        h.queueSize, Command.size]
      rcases Nat.lt_or_ge 4103 (q.commandQueueSize + (2 + number.1.length + (3 + text.1.length)))
        with hfull | hfits
      · left
        rw [if_pos (by omega), if_pos (by push_cast; omega)]
        exact ⟨hfull, rfl, rfl⟩
      · right
        rw [if_neg (by omega), if_neg (by push_cast; omega)]
        have hfirst := h.append (.startSms number) (by omega)
        have happend := hfirst.append (.sendSms text) (by
          change q.commandQueueSize + (Record.startSms number).encode.length + _ ≤ _
          omega)
        obtain ⟨q', hcall, hrefines⟩ := processQueue_refines env happend
        simp only [List.append_assoc] at hcall hrefines
        exact ⟨hfits, _, q', rfl, rfl, hcall, hrefines⟩

/-- `modemClient_ackPending` on the array does what it does on the list. -/
theorem ackPending_refines (env : Env) (h : Refines memory q s (record :: records))
    (hpending : q.pendingCommand = true) : ∃ q' s',
      s' = { s with queue := records.map (Record.command memory), pendingCommand := false } ∧
      ModemClient.ackPending env s = some (ModemClient.processQueue env s') ∧
      ackPending memory env q = some (q', code (ModemClient.processQueue env s').2) ∧
      Refines memory q' (ModemClient.processQueue env s').1 records := by
  have hqueue := h.queue
  rw [List.map_cons] at hqueue
  have hack : ackSize q.commandQueue.toList = some record.encode.length := by
    rw [h.packs.toList_eq, List.flatMap_cons, List.append_assoc]
    exact ackSize_encode record _
  have hsize := h.packs.size_eq
  rw [List.flatMap_cons, List.length_append] at hsize
  have htail : Refines memory _ { s with
      queue := records.map (Record.command memory), pendingCommand := false } records :=
    ⟨h.packs.tail false, rfl, rfl, h.log, h.connected⟩
  obtain ⟨q', hcall, hrefines⟩ := processQueue_refines env htail
  refine ⟨q', _, rfl, ?_, ?_, hrefines⟩
  · unfold ModemClient.ackPending
    rw [h.pendingCommand, if_pos hpending, hqueue]
  · unfold ackPending
    rw [if_pos hpending, hack]
    simp only
    rw [if_neg (by omega)]
    exact hcall

end PackedQueue

end Hc.ModemClient
