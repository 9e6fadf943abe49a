import Hc.Foundation.Bytes

/-!
# DHCP messages

`router/router/dhcp.h`, and the loop over the options that the server and the client share.
A message is read from the beginning of the buffer that all handlers use; the options start
behind the header.
-/

namespace Hc.Dhcp

/-- The buffer after `sys_read`, and the number of bytes read. What follows them in the buffer
was left there before. -/
structure Datagram where
  buffer : List UInt8
  numRead : ℕ

/-- `sizeof(struct dhcp_header)`. -/
abbrev headerSize : ℕ := 240

/-- `dhcp_MESSAGE_TYPE` and the other option codes that are looked for. -/
abbrev subnetMaskCode : ℕ := 1
abbrev routerCode : ℕ := 3
abbrev dnsCode : ℕ := 6
abbrev leaseTimeCode : ℕ := 51
abbrev messageTypeCode : ℕ := 53

/-- `dhcp_DISCOVER` and the other message types. -/
abbrev discover : ℕ := 1
abbrev offer : ℕ := 2
abbrev request : ℕ := 3
abbrev ack : ℕ := 5
abbrev nak : ℕ := 6

/-- The bytes at an offset in the buffer. -/
def bytesAt (buffer : List UInt8) (offset length : ℕ) : Bytes length :=
  List.Vector.ofFn fun i => byteAt buffer (offset + i)

namespace Datagram

variable (datagram : Datagram)

def identifier : Bytes 4 := bytesAt datagram.buffer 4 4

def clientIp : Bytes 4 := bytesAt datagram.buffer 12 4

def yourIp : Bytes 4 := bytesAt datagram.buffer 16 4

def serverIp : Bytes 4 := bytesAt datagram.buffer 20 4

/-- The part of `clientHwAddr` that is compared and copied. -/
def clientHwAddr : Bytes 6 := bytesAt datagram.buffer 28 6

/-- The length field of the option at an offset. -/
def optionLength (current : ℕ) : ℕ := (byteAt datagram.buffer (current + 1)).toNat

def optionCode (current : ℕ) : ℕ := (byteAt datagram.buffer current).toNat

/-- The loop over the options from the offset `current` on, with `visit` for the switch. -/
def optionLoop {σ : Type} (visit : σ → ℕ → σ) : ℕ → ℕ → σ → σ
  | 0, _, found => found
  | fuel + 1, current, found =>
      let next := current + 2 + datagram.optionLength current
      if next > datagram.numRead then found
      else optionLoop visit fuel next (visit found current)

/-- The options of a message. Every iteration takes two bytes at least. -/
def findOptions {σ : Type} (visit : σ → ℕ → σ) (none : σ) : σ :=
  datagram.optionLoop visit datagram.numRead headerSize none

/-- What every option between the header and the end keeps holds of the result. -/
theorem findOptions_induction {σ : Type} {visit : σ → ℕ → σ} {none : σ} {P : σ → Prop}
    (hnone : P none)
    (hvisit : ∀ found current, headerSize ≤ current →
      current + 2 + datagram.optionLength current ≤ datagram.numRead →
      P found → P (visit found current)) :
    P (datagram.findOptions visit none) := by
  suffices hloop : ∀ fuel current found, headerSize ≤ current → P found →
      P (datagram.optionLoop visit fuel current found) from hloop _ _ _ le_rfl hnone
  intro fuel
  induction fuel with
  | zero => exact fun _ _ _ hfound => hfound
  | succ fuel ih =>
      intro current found hcurrent hfound
      unfold optionLoop
      dsimp only
      split
      next => exact hfound
      next hend => exact ih _ _ (by omega) (hvisit found current hcurrent (not_lt.mp hend) hfound)

/-- The bytes of the two messages are the same from an offset on. -/
def SameFrom (first : ℕ) (datagram datagram' : Datagram) : Prop :=
  datagram.numRead = datagram'.numRead ∧
    ∀ i, first ≤ i → byteAt datagram.buffer i = byteAt datagram'.buffer i

namespace SameFrom

variable {first : ℕ} {datagram datagram' : Datagram} (h : SameFrom first datagram datagram')
include h

theorem bytesAt_eq {offset : ℕ} (length : ℕ) (hoffset : first ≤ offset) :
    bytesAt datagram.buffer offset length = bytesAt datagram'.buffer offset length := by
  unfold bytesAt
  congr 1
  funext i
  exact h.2 _ (by omega)

theorem optionCode_eq {current : ℕ} (hcurrent : first ≤ current) :
    datagram.optionCode current = datagram'.optionCode current := by
  rw [optionCode, optionCode, h.2 current hcurrent]

theorem optionLength_eq {current : ℕ} (hcurrent : first ≤ current) :
    datagram.optionLength current = datagram'.optionLength current := by
  rw [optionLength, optionLength, h.2 (current + 1) (by omega)]

/-- The options behind the header are the same. -/
theorem findOptions_eq {σ : Type} {visit visit' : σ → ℕ → σ} (none : σ)
    (hfirst : first ≤ headerSize)
    (hvisit : ∀ found current, first ≤ current → visit found current = visit' found current) :
    datagram.findOptions visit none = datagram'.findOptions visit' none := by
  suffices hloop : ∀ fuel current found, first ≤ current →
      datagram.optionLoop visit fuel current found =
        datagram'.optionLoop visit' fuel current found by
    rw [findOptions, findOptions, h.1]
    exact hloop _ _ _ hfirst
  intro fuel
  induction fuel with
  | zero => exact fun _ _ _ => rfl
  | succ fuel ih =>
      intro current found hcurrent
      unfold optionLoop
      dsimp only
      rw [h.optionLength_eq hcurrent, h.1, hvisit found current hcurrent, ih _ _ (by omega)]

end SameFrom

end Datagram

end Hc.Dhcp
