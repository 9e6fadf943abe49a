import Hc.Foundation.Bytes

/-!
# The telnet server of the router

`router/router/telnetServer.c`: the bytes of the telnet client go to the
pseudo-terminal of the shell, with the telnet commands taken out. A command that is
cut by the end of a read is kept in `saved` and parsed again with the next read.

Writes to the pseudo-terminal and the ioctl are taken to succeed. `char` is
unsigned in this build.
-/

namespace Hc.TelnetServer

/-! ## `telnet.h` -/

def telnetSE : UInt8 := 240
def telnetNOP : UInt8 := 241
def telnetGoAhead : UInt8 := 249
def telnetSB : UInt8 := 250
def telnetWILL : UInt8 := 251
def telnetDONT : UInt8 := 254
def telnetIAC : UInt8 := 255
def telnetOptNAWS : UInt8 := 31
def carriageReturn : UInt8 := 13
def lineFeed : UInt8 := 10

/-- The system calls that `telnetServer_onClientFd` makes. -/
inductive Effect where
  | write (bytes : List UInt8)
  | setWinsize (col row : UInt16)
deriving DecidableEq, Repr

/-- The parts of `struct telnetServer` that the client handler uses; the client is
connected when `clientFd` is not negative. -/
structure State where
  connected : Bool
  saved : Bytes 12

/-- Why the handler stops: it is done with the buffer, or it kicks the client
after the buffer position `position`. The last two never happen: more bytes to save
than fit, and iterations without progress. -/
inductive Stop where
  | done (saved : Bytes 12)
  | kick (position : ℕ)
  | overflow
  | stuck

/-- `_telnetServer_getByteOrSave`. -/
def getByteOrSave (buffer : List UInt8) (saved : Bytes 12) (startI currI : ℕ) :
    Except Stop (UInt8 × ℕ) :=
  if currI ≥ buffer.length then
    let toSave := buffer.length - startI
    if toSave ≤ 12 then
      .error (.done (saved.write (12 - toSave) (buffer.drop startI)))
    else
      .error .overflow
  else
    .ok (byteAt buffer currI, currI + 1)

/-- One byte of a window size, where IAC is doubled. -/
def getNawsByteOrSave (buffer : List UInt8) (saved : Bytes 12) (startI currI : ℕ) :
    Except Stop (UInt8 × ℕ) := do
  let (b, currI) ← getByteOrSave buffer saved startI currI
  if b = telnetIAC then
    let (b, currI) ← getByteOrSave buffer saved startI currI
    if b ≠ telnetIAC then
      throw (.kick currI)
    return (b, currI)
  return (b, currI)

/-- `_telnetServer_getNawsU16OrSave`; the source has the body of `getNawsByteOrSave`
once for `msb` and once for `lsb`. -/
def getNawsU16OrSave (buffer : List UInt8) (saved : Bytes 12) (startI currI : ℕ) :
    Except Stop (UInt16 × ℕ) := do
  let (msb, currI) ← getNawsByteOrSave buffer saved startI currI
  let (lsb, currI) ← getNawsByteOrSave buffer saved startI currI
  return ((msb.toUInt16 <<< 8) ||| lsb.toUInt16, currI)

/-- The part of an iteration of `telnetServer_onClientFd` that handles the CR or IAC
at `i`: the calls made, and the index after the command. -/
def handleCommand (buffer : List UInt8) (saved : Bytes 12) (i : ℕ) :
    Except Stop (List Effect × ℕ) := do
  let (followup, currI) ← getByteOrSave buffer saved i (i + 1)
  if byteAt buffer i = telnetIAC then
    if telnetNOP ≤ followup ∧ followup ≤ telnetGoAhead then
      return ([], currI)
    else if telnetWILL ≤ followup ∧ followup ≤ telnetDONT then
      let (_, currI) ← getByteOrSave buffer saved i currI
      return ([], currI)
    else if followup = telnetIAC then
      return ([.write [byteAt buffer i]], currI)
    else if followup = telnetSB then
      let (opt, currI) ← getByteOrSave buffer saved i currI
      if opt = telnetOptNAWS then
        let (col, currI) ← getNawsU16OrSave buffer saved i currI
        let (row, currI) ← getNawsU16OrSave buffer saved i currI
        let (iac, currI) ← getByteOrSave buffer saved i currI
        let (se, currI) ← getByteOrSave buffer saved i currI
        if iac ≠ telnetIAC ∨ se ≠ telnetSE then
          throw (.kick currI)
        return ([.setWinsize col row], currI)
      else
        throw (.kick currI)
    else
      throw (.kick currI)
  else
    if followup = 0 ∨ followup = lineFeed then
      return ([.write [byteAt buffer i]], currI)
    else
      throw (.kick currI)

/-- Neither CR nor IAC. -/
def isPlain (b : UInt8) : Bool := b != carriageReturn && b != telnetIAC

/-- The loop of `telnetServer_onClientFd` from `baseI` on, with a bound on the number
of iterations. -/
def clientLoop (buffer : List UInt8) (saved : Bytes 12) :
    ℕ → ℕ → List Effect → List Effect × Stop
  | 0, _, log => (log, .stuck)
  | fuel + 1, baseI, log =>
    let plain := (buffer.drop baseI).takeWhile isPlain
    let i := baseI + plain.length
    let log := if plain.length > 0 then log ++ [.write plain] else log
    if i ≥ buffer.length then
      (log, .done saved)
    else
      match handleCommand buffer saved i with
      | .error stop => (log, stop)
      | .ok (effects, currI) => clientLoop buffer saved fuel currI (log ++ effects)

/-- The saved bytes: those from the first one that is not zero. -/
def savedBytes (saved : Bytes 12) : List UInt8 := saved.toList.dropWhile (· == 0)

/-- `telnetServer_onClientFd` when `recvfrom` returns the bytes `received`. -/
def onClientFd (s : State) (received : List UInt8) : List Effect × Stop :=
  let bytes := savedBytes s.saved
  let saved := s.saved.write (12 - bytes.length) (List.replicate bytes.length 0)
  if received.length = 0 then
    ([], .kick 0)
  else
    let buffer := bytes ++ received
    clientLoop buffer saved (buffer.length + 1) 0 []

/-! ## Successive reads -/

/-- What the calls for one client have done so far. -/
structure Run where
  state : State
  log : List Effect
  /-- The number of bytes received. -/
  received : ℕ
  /-- The number of bytes of the stream after which the client was kicked. -/
  kickedAfter : Option ℕ
  /-- More bytes were to be saved than fit, or a call did not end. -/
  faulted : Bool

/-- The state that `telnetServer_onListenFd` leaves for a new client. -/
def Run.start : Run := ⟨⟨true, List.Vector.replicate 12 0⟩, [], 0, none, false⟩

/-- One read; a client that was kicked is not read from. -/
def Run.read (r : Run) (received : List UInt8) : Run :=
  if r.state.connected then
    -- The first byte of the buffer has this position in the stream.
    let base := r.received - (savedBytes r.state.saved).length
    let (log, stop) := onClientFd r.state received
    let r := { r with log := r.log ++ log, received := r.received + received.length }
    match stop with
    | .done saved => { r with state := { r.state with saved := saved } }
    | .kick position =>
      { r with state := { r.state with connected := false }, kickedAfter := some (base + position) }
    | .overflow => { r with faulted := true }
    | .stuck => { r with faulted := true }
  else
    r

/-- The reads in order. -/
def Run.reads (r : Run) (chunks : List (List UInt8)) : Run := chunks.foldl Run.read r

/-- The bytes written to the pseudo-terminal. -/
def ptyBytes (log : List Effect) : List UInt8 :=
  log.flatMap fun
    | .write bytes => bytes
    | .setWinsize _ _ => []

/-- The window sizes set. -/
def winsizes (log : List Effect) : List (UInt16 × UInt16) :=
  log.filterMap fun
    | .write _ => none
    | .setWinsize col row => some (col, row)

end Hc.TelnetServer
