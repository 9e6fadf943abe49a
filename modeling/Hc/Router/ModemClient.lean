import Hc.Core.Util
import Hc.Foundation.Bytes

/-!
# The modem client of the router

`router/router/modemClient.c`: AT commands go to the modem from a queue, one at a
time, and the modem's answers, notifications and text messages are taken from a
receive buffer line by line.

The command queue is the list of its commands; their sizes in the byte array are
kept where the code checks them. System calls take their results from an `Env`. The
handler `modemClient_onFd` is a machine of small steps, because the jumps between
its exit paths form a loop.
-/

namespace Hc.ModemClient

/-- A command in the queue. -/
inductive Command where
  | constant (text : List UInt8)
  | startSms (number : List UInt8)
  | sendSms (sms : List UInt8)
deriving DecidableEq

/-- The tag of a command, or `modemClient_NO_CMD`. -/
inductive Tag where
  | noCmd
  | constant
  | startSms
  | sendSms
deriving DecidableEq

namespace Command

def tag : Command → Tag
  | constant _ => .constant
  | startSms _ => .startSms
  | sendSms _ => .sendSms

/-- The size in the queue: the packed struct and the bytes after it. -/
def size : Command → ℕ
  | constant _ => 11
  | startSms number => 2 + number.length
  | sendSms sms => 3 + sms.length

/-- The bytes written to the modem. -/
def render : Command → List UInt8
  | constant text => text
  | startSms number => ascii "AT+CMGS=\"" ++ number ++ ascii "\"\x0d"
  | sendSms sms => sms ++ [0x1a]

end Command

/-- `modemClient_INIT_CMD`. -/
def initCmd : List UInt8 :=
  ascii "ATE0;+CMGF=1;+CSDH=1;+CSCS=\"UCS2\";+CPMS=\"SM\",\"SM\",\"SM\"\x0d"

/-- `modemClient_SMS_POLL_CMD`. -/
def smsPollCmd : List UInt8 := ascii "AT+CMGD=,3;+CMGL=\"REC UNREAD\"\x0d"

/-- `struct modemClient`; it is connected when `fd` is not negative. `log` holds the
bytes of every write attempted so far. -/
structure State where
  connected : Bool
  receivedSize : ℤ
  buffer : Bytes 4096
  queue : List Command
  pendingCommand : Bool
  log : List (List UInt8)

/-- The results of the system calls of one event. -/
structure Env where
  /-- The bytes that `sys_read` delivers; none when it fails. -/
  read : List UInt8
  /-- The result of a write to an open file, from the number of writes before it
  and the number of bytes asked for. -/
  write : ℕ → ℕ → ℤ
  /-- Whether the device opens, and whether the two terminal ioctls succeed. -/
  openOk : Bool
  getAttributesOk : Bool
  setAttributesOk : Bool
  /-- The lease of the WAN side. -/
  leasedIp : List UInt8
  leasedIpNetmask : UInt8

namespace State

/-- `commandQueueSize`. -/
def queueSize (s : State) : ℕ := (s.queue.map Command.size).sum

/-- The received bytes that are not consumed. -/
def received (s : State) : List UInt8 := s.buffer.toList.take s.receivedSize.toNat

/-- `modemClient_pendingCmdTag`. -/
def pendingCmdTag (s : State) : Tag :=
  if s.pendingCommand then
    match s.queue with
    | [] => .noCmd
    | command :: _ => command.tag
  else
    .noCmd

end State

/-- `sys_write` and `sys_writev`; a write to a negative descriptor fails. -/
def sysWrite (env : Env) (s : State) (bytes : List UInt8) : State × ℤ :=
  ({ s with log := s.log ++ [bytes] },
    if s.connected then env.write s.log.length bytes.length else -9)

/-- `modemClient_disconnect`; the result of writing the escape character is ignored. -/
def disconnect (s : State) : State :=
  if s.connected then
    { s with log := s.log ++ [[0x1b]], connected := false }
  else
    s

/-- `modemClient_processQueue`, with `false` for the result -1. -/
def processQueue (env : Env) (s : State) : State × Bool :=
  if s.pendingCommand then
    (s, true)
  else
    match s.queue with
    | [] => (s, true)
    | command :: _ =>
      let (s, written) := sysWrite env s command.render
      if written ≠ command.render.length then
        (s, false)
      else
        ({ s with pendingCommand := true }, true)

/-- `modemClient_queueConstant`. -/
def queueConstant (env : Env) (s : State) (text : List UInt8) : State × Bool :=
  if s.queueSize > 4103 - (Command.constant text).size then
    (s, false)
  else
    processQueue env { s with queue := s.queue ++ [.constant text] }

/-- `modemClient_queueSms`. -/
def queueSms (env : Env) (s : State) (number sms : List UInt8) : State × Bool :=
  if (s.queueSize : ℤ) > 4103 - (Command.startSms number).size - (Command.sendSms sms).size then
    (s, false)
  else
    processQueue env { s with queue := s.queue ++ [.startSms number, .sendSms sms] }

/-- `modemClient_ackPending`, `none` when its assumption that a command is pending
fails. -/
def ackPending (env : Env) (s : State) : Option (State × Bool) :=
  if s.pendingCommand then
    match s.queue with
    | [] => none
    | _ :: queue => some (processQueue env { s with queue := queue, pendingCommand := false })
  else
    none

/-- Go on after a success, and to `out_fail` of `modemClient_onTimerFd` otherwise. -/
def orOutFail (result : State × Bool) (next : State → State) : State :=
  if result.2 then next result.1 else disconnect result.1

/-- `modemClient_onTimerFd`. -/
def onTimerFd (env : Env) (s : State) : State :=
  if s.connected then
    if s.pendingCommand then
      disconnect s
    else
      orOutFail (queueConstant env s smsPollCmd) id
  else if env.openOk then
    let s := { s with connected := true }
    if env.getAttributesOk ∧ env.setAttributesOk then
      let s := { s with receivedSize := 0, queue := [], pendingCommand := false }
      orOutFail (queueConstant env s initCmd) fun s =>
        orOutFail (queueConstant env s smsPollCmd) id
    else
      disconnect s
  else
    s

/-! ## Text messages -/

/-- The index of a character in a line, searched from `start` on. -/
def findFrom (line : List UInt8) (start : ℕ) (c : UInt8) : Option ℕ :=
  ((line.drop start).findIdx? (· == c)).map (start + ·)

/-- The index after the last comma, searched from the end of the line. -/
def afterLastComma (line : List UInt8) : ℕ :=
  line.length - (line.reverse.takeWhile (· != 44)).length

/-- What a line that starts with `+CMGL: ` turns out to be. -/
inductive SmsParse where
  | malformed
  | incomplete
  | sms (lineLength : ℕ) (number : List UInt8) (isIpCommand : Bool)

/-- The part of `modemClient_onFd` that reads a text message; `rest` is the
unconsumed data from the start of the line. -/
def parseSms (rest : List UInt8) (lineLength : ℕ) : SmsParse :=
  let line := rest.take lineLength
  match findFrom line 7 44 with
  | none => .malformed
  | some slotNumberEnd =>
    let senderNumberIndex := slotNumberEnd + 15
    match findFrom line senderNumberIndex 34 with
    | none => .malformed
    | some senderNumberEnd =>
      match strToUint (line.drop (afterLastComma line)) with
      | none => .malformed
      | some (0, _) => .malformed
      | some (_ + 1, smsLength) =>
        let smsContentIndex := lineLength + 1
        -- A conversion of the quotient to `uint64_t`; the division rounds towards zero.
        let available := ((rest.length : ℤ) - smsContentIndex - 1).tdiv 4 % 2 ^ 64
        if smsLength > available.toNat then
          .incomplete
        else
          .sms (lineLength + (smsLength * 4 + 1))
            ((rest.drop senderNumberIndex).take ((senderNumberEnd - senderNumberIndex) % 256))
            (smsLength == 2 && (rest.drop smsContentIndex).take 8 == ascii "00690070")

/-- The text of the lease. -/
def printIp (env : Env) : List UInt8 :=
  uintToStr (byteAt env.leasedIp 0).toNat ++ ascii "." ++ uintToStr (byteAt env.leasedIp 1).toNat ++
    ascii "." ++ uintToStr (byteAt env.leasedIp 2).toNat ++ ascii "." ++
    uintToStr (byteAt env.leasedIp 3).toNat ++ ascii "/" ++ uintToStr env.leasedIpNetmask.toNat

/-- The conversion to UCS2 in hexadecimal. -/
def ucs2Hex (text : List UInt8) : List UInt8 :=
  text.flatMap fun (c : UInt8) =>
    [48, 48, byteAt hexTable ((c >>> 4) &&& 0xF).toNat, byteAt hexTable (c &&& 0xF).toNat]

/-! ## The handler -/

/-- Where `modemClient_onFd` is: at the start of a line, at one of its two exit
labels, or at its end. `undefined` is reached when `modemClient_ackPending` is called
without a pending command. -/
inductive Control where
  | line (pendingCmdTag : Tag) (lineStart : ℕ)
  | fail (lineStart : ℕ)
  | out (lineStart : ℕ)
  | done (lineStart : ℕ)
  | undefined
deriving DecidableEq

/-- Go on after the line, or to the failure exit. -/
def continueOrFail (result : State × Bool) (tag : Tag) (lineStart lineLength : ℕ) :
    State × Control :=
  if result.2 then (result.1, .line tag (lineStart + (lineLength + 1)))
  else (result.1, .fail lineStart)

/-- One iteration of the loop of `modemClient_onFd`. -/
def handleLine (env : Env) (s : State) (tag : Tag) (lineStart : ℕ) : State × Control :=
  let rest := s.received.drop lineStart
  let lineLength := (rest.takeWhile (· != 10)).length
  if lineLength = rest.length ∧ rest ≠ ascii "> " then
    (s, .out lineStart)
  else if rest.take lineLength = ascii "OK" ∨ rest.take lineLength = ascii "> " then
    if tag = .noCmd then
      (s, .fail lineStart)
    else if rest.take lineLength = ascii "> " then
      if tag ≠ .startSms then
        (s, .fail lineStart)
      else
        match ackPending env s with
        | none => (s, .undefined)
        -- The prompt has no newline.
        | some result => continueOrFail result tag lineStart (lineLength - 1)
    else if tag = .startSms then
      (s, .fail lineStart)
    else
      match ackPending env s with
      | none => (s, .undefined)
      | some result => continueOrFail result tag lineStart lineLength
  else if rest.take lineLength = ascii "ERROR" then
    (s, .fail lineStart)
  else if (rest.take lineLength).take 7 = ascii "+CMGL: " then
    match parseSms rest lineLength with
    | .malformed => (s, .fail lineStart)
    | .incomplete => (s, .out lineStart)
    | .sms lineLength number isIpCommand =>
      if isIpCommand then
        continueOrFail (queueSms env s number (ucs2Hex (printIp env))) tag lineStart lineLength
      else
        (s, .line tag (lineStart + (lineLength + 1)))
  else if (rest.take lineLength).take 11 = ascii "+CMTI: \"SM\"" then
    continueOrFail (queueConstant env s smsPollCmd) tag lineStart lineLength
  else
    (s, .line tag (lineStart + (lineLength + 1)))

/-- The end of `modemClient_onFd`: what is not consumed moves to the front. -/
def moveTail (s : State) (lineStart : ℕ) : State :=
  let receivedSize := s.receivedSize - lineStart
  { s with
    receivedSize := receivedSize
    buffer := s.buffer.write 0 ((s.buffer.toList.drop lineStart).take receivedSize.toNat) }

/-- One step of `modemClient_onFd`. -/
def step (env : Env) : State × Control → State × Control
  | (s, .line tag lineStart) => handleLine env s tag lineStart
  | (s, .fail lineStart) => (disconnect s, .out lineStart)
  | (s, .out lineStart) =>
    match processQueue env s with
    | (s, false) => (s, .fail lineStart)
    | (s, true) => (moveTail s lineStart, .done lineStart)
  | (s, .done lineStart) => (s, .done lineStart)
  | (s, .undefined) => (s, .undefined)

/-- The bytes that `sys_read` stores: at most as many as fit. -/
def readBytes (env : Env) (s : State) : List UInt8 := env.read.take (4096 - s.receivedSize).toNat

/-- The entry of `modemClient_onFd`, up to the first line. -/
def enter (env : Env) (s : State) : State × Control :=
  if readBytes env s = [] then
    (s, .fail 0)
  else
    ({ s with
        receivedSize := s.receivedSize + (readBytes env s).length
        buffer := s.buffer.write s.receivedSize.toNat (readBytes env s) },
      .line s.pendingCmdTag 0)

/-- `modemClient_onFd` returns in the state `s'`, having consumed `lineStart` bytes. -/
def Returns (env : Env) (s s' : State) (lineStart : ℕ) : Prop :=
  ∃ n, (step env)^[n] (enter env s) = (s', .done lineStart)

end Hc.ModemClient
