import Hc.Foundation.ClassicBpf

/-!
# The packet dumper's filter

`packetDumper_onListenFd` of `router/router/packetDumper.c` attaches a classic BPF program to its
packet socket, to leave out the traffic of the dump itself. The comment above the program gives the
expression it is based on.
-/

namespace Hc

open ClassicBpf

/-- The fields of `struct packetDumper` that the program is built from. -/
structure PacketDumper where
  /-- `ifreq.ifr_addr`: the MAC address stands behind the address family. -/
  ifrAddr : Bytes 16
  port : UInt16

namespace PacketDumper

/-- `sizeof(buffer)` of `router.c`. -/
abbrev bufferSize : ℕ := 66000

/-- The MAC address of the interface. -/
def mac (self : PacketDumper) : List UInt8 := self.ifrAddr.slice 2 6

/-- `code` of `packetDumper_onListenFd`. -/
def code (self : PacketDumper) : List SockFilter :=
  let macHigh := (loadBE 16 self.ifrAddr.toList 2).toNat
  let macLow := (loadBE 32 self.ifrAddr.toList 4).toNat
  let port := self.port.toNat
  [⟨0x20, 0, 0, 0x00000008⟩,
    ⟨0x15, 0, 2, macLow⟩,
    ⟨0x28, 0, 0, 0x00000006⟩,
    ⟨0x15, 4, 0, macHigh⟩,
    ⟨0x20, 0, 0, 0x00000002⟩,
    ⟨0x15, 0, 22, macLow⟩,
    ⟨0x28, 0, 0, 0x00000000⟩,
    ⟨0x15, 0, 20, macHigh⟩,
    ⟨0x28, 0, 0, 0x0000000c⟩,
    ⟨0x15, 0, 18, 0x00000800⟩,
    ⟨0x30, 0, 0, 0x00000017⟩,
    ⟨0x15, 0, 7, 0x00000006⟩,
    ⟨0x28, 0, 0, 0x00000014⟩,
    ⟨0x45, 14, 0, 0x00001fff⟩,
    ⟨0xb1, 0, 0, 0x0000000e⟩,
    ⟨0x48, 0, 0, 0x0000000e⟩,
    ⟨0x15, 10, 0, port⟩,
    ⟨0x48, 0, 0, 0x00000010⟩,
    ⟨0x15, 8, 9, port⟩,
    ⟨0x15, 0, 8, 0x00000011⟩,
    ⟨0x28, 0, 0, 0x00000014⟩,
    ⟨0x45, 6, 0, 0x00001fff⟩,
    ⟨0xb1, 0, 0, 0x0000000e⟩,
    ⟨0x48, 0, 0, 0x0000000e⟩,
    ⟨0x15, 2, 0, 0x0000007b⟩,
    ⟨0x48, 0, 0, 0x00000010⟩,
    ⟨0x15, 0, 1, 0x0000007b⟩,
    ⟨0x06, 0, 0, 0x00000000⟩,
    ⟨0x06, 0, 0, bufferSize⟩]

/-! ## Frames -/

section Frames

variable (frame : List UInt8)

def etherDst : List UInt8 := frame.take 6
def etherSrc : List UInt8 := (frame.drop 6).take 6

/-- The frame holds an IPv4 packet. -/
def IsIp : Prop := countAt 2 frame 12 = 0x0800

def ipProtocol : ℕ := countAt 1 frame 23

/-- The packet is not fragmented or is the first fragment: its fragment offset is zero. -/
def IsFirstFragment : Prop := countAt 2 frame 20 % 2 ^ 13 = 0

/-- The size of the IP header in bytes. -/
def ipHeaderSize : ℕ := 4 * (countAt 1 frame 14 % 16)

def srcPort : ℕ := countAt 2 frame (14 + ipHeaderSize frame)
def dstPort : ℕ := countAt 2 frame (14 + ipHeaderSize frame + 2)

/-- The frame is long enough for all loads of the program. -/
def LongEnough : Prop := 24 ≤ frame.length ∧ 14 + ipHeaderSize frame + 4 ≤ frame.length

instance : Decidable (IsIp frame) := inferInstanceAs (Decidable (_ = _))
instance : Decidable (IsFirstFragment frame) := inferInstanceAs (Decidable (_ = _))
instance : Decidable (LongEnough frame) := inferInstanceAs (Decidable (_ ∧ _))

end Frames

abbrev tcp : ℕ := 6
abbrev udp : ℕ := 17

/-- `tcp src port` and `udp src port`. -/
def HasSrcPort (frame : List UInt8) (protocol port : ℕ) : Prop :=
  ipProtocol frame = protocol ∧ IsFirstFragment frame ∧ srcPort frame = port

/-- `tcp dst port` and `udp dst port`. -/
def HasDstPort (frame : List UInt8) (protocol port : ℕ) : Prop :=
  ipProtocol frame = protocol ∧ IsFirstFragment frame ∧ dstPort frame = port

/-- The expression in the comment, inside of its `not`. -/
def Documented (self : PacketDumper) (frame : List UInt8) : Prop :=
  (etherSrc frame = self.mac ∧ IsIp frame ∧
    (HasSrcPort frame tcp self.port.toNat ∨ HasSrcPort frame udp 123)) ∨
  (etherDst frame = self.mac ∧ IsIp frame ∧
    (HasDstPort frame tcp self.port.toNat ∨ HasDstPort frame udp 123))

/-- The frame goes one way only, and has the port on the other side only. -/
def CrossedPort (self : PacketDumper) (frame : List UInt8) (port : ℕ) : Prop :=
  (etherSrc frame = self.mac ∧ etherDst frame ≠ self.mac ∧
    srcPort frame ≠ port ∧ dstPort frame = port) ∨
  (etherDst frame = self.mac ∧ etherSrc frame ≠ self.mac ∧
    dstPort frame ≠ port ∧ srcPort frame = port)

/-- A frame from the interface to one of the ports, or to the interface from one of them. -/
def Crossed (self : PacketDumper) (frame : List UInt8) : Prop :=
  IsIp frame ∧ IsFirstFragment frame ∧
    ((ipProtocol frame = tcp ∧ CrossedPort self frame self.port.toNat) ∨
      (ipProtocol frame = udp ∧ CrossedPort self frame 123))

variable {self : PacketDumper} {frame : List UInt8} {registers : Registers}

instance (protocol port : ℕ) : Decidable (HasSrcPort frame protocol port) :=
  inferInstanceAs (Decidable (_ ∧ _))
instance (protocol port : ℕ) : Decidable (HasDstPort frame protocol port) :=
  inferInstanceAs (Decidable (_ ∧ _))
instance (port : ℕ) : Decidable (CrossedPort self frame port) := inferInstanceAs (Decidable (_ ∨ _))
instance : Decidable (Documented self frame) := inferInstanceAs (Decidable (_ ∨ _))
instance : Decidable (Crossed self frame) := inferInstanceAs (Decidable (_ ∧ _))

/-! ## The program -/

/-- The MAC address is compared in two parts. -/
theorem eq_mac_iff (offset : ℕ) (h : offset + 6 ≤ frame.length) :
    (frame.drop offset).take 6 = self.mac ↔
      countAt 2 frame offset = (loadBE 16 self.ifrAddr.toList 2).toNat ∧
      countAt 4 frame (offset + 2) = (loadBE 32 self.ifrAddr.toList 4).toNat := by
  have hlength := self.ifrAddr.toList_length
  rw [toNat_loadBE rfl, toNat_loadBE rfl, mac, Bytes.slice]
  exact take_add_eq_iff (j := 2) (k := 4) h (by omega)

theorem run_reject : run frame self.code 27 registers = some 0 := run_ret rfl

theorem run_accept : run frame self.code 28 registers = some bufferSize := run_ret rfl

/-- The program has found the protocol: both ports are compared with the same one. -/
def HasPort (frame : List UInt8) (port : ℕ) : Prop :=
  IsFirstFragment frame ∧ (srcPort frame = port ∨ dstPort frame = port)

instance (port : ℕ) : Decidable (HasPort frame port) := inferInstanceAs (Decidable (_ ∧ _))

theorem jset_holds_iff {a : ℕ} : Condition.holds a 0x1fff .jset ↔ a % 2 ^ 13 ≠ 0 := by
  rw [Condition.holds, show 0x1fff = 2 ^ 13 - 1 from rfl, Nat.and_two_pow_sub_one_eq_mod]

/-- The instructions for TCP and the ones for UDP. -/
theorem run_ports {i port : ℕ} (h : LongEnough frame) (hi : i ≤ 20)
    (hfragment : fetch self.code i = some (.ld 2 20))
    (hlater : fetch self.code (i + 1) = some (.jump .jset 0x1fff (26 - i) 0))
    (hheader : fetch self.code (i + 2) = some (.ldxHeaderLength 14))
    (hsrc : fetch self.code (i + 3) = some (.ldIndexed 2 14))
    (hsrcPort : fetch self.code (i + 4) = some (.jump .jeq port (22 - i) 0))
    (hdst : fetch self.code (i + 5) = some (.ldIndexed 2 16))
    (hdstPort : fetch self.code (i + 6) = some (.jump .jeq port (20 - i) (21 - i))) :
    run frame self.code i registers = some (if HasPort frame port then 0 else bufferSize) := by
  obtain ⟨hlength, hports⟩ := h
  have hsize : 4 * (countAt 1 frame 14 &&& 0xf) = ipHeaderSize frame := by
    rw [ipHeaderSize, show 0xf = 2 ^ 4 - 1 from rfl, Nat.and_two_pow_sub_one_eq_mod]
  have hsrcEq : countAt 2 frame (ipHeaderSize frame + 14) = srcPort frame := by
    rw [srcPort, Nat.add_comm]
  have hdstEq : countAt 2 frame (ipHeaderSize frame + 16) = dstPort frame := by
    rw [dstPort, Nat.add_right_comm, Nat.add_comm]
  rw [run_ld hfragment (by omega), run_jump hlater]
  split
  next hset =>
    rw [jset_holds_iff] at hset
    rw [show i + 1 + 1 + (26 - i) = 28 by omega, run_accept, if_neg fun hport => hset hport.1]
  next hclear =>
    rw [jset_holds_iff, not_not] at hclear
    rw [run_ldxHeaderLength hheader (by omega), hsize, run_ldIndexed hsrc (by dsimp only; omega),
      run_jump hsrcPort, hsrcEq]
    split
    next heq =>
      rw [show i + 4 + 1 + (22 - i) = 27 by omega, run_reject, if_pos ⟨hclear, .inl heq⟩]
    next hne =>
      rw [run_ldIndexed hdst (by dsimp only; omega), run_jump hdstPort, hdstEq]
      split
      next heq =>
        rw [show i + 6 + 1 + (20 - i) = 27 by omega, run_reject, if_pos ⟨hclear, .inr heq⟩]
      next hne' =>
        rw [show i + 6 + 1 + (21 - i) = 28 by omega, run_accept,
          if_neg fun hport => hport.2.elim hne hne']

/-- The protocols whose ports are compared. -/
def HasWatchedPort (self : PacketDumper) (frame : List UInt8) : Prop :=
  (ipProtocol frame = tcp ∧ HasPort frame self.port.toNat) ∨
    (ipProtocol frame = udp ∧ HasPort frame 123)

instance : Decidable (HasWatchedPort self frame) := inferInstanceAs (Decidable (_ ∨ _))

theorem hasWatchedPort_tcp (h : ipProtocol frame = tcp) :
    HasWatchedPort self frame ↔ HasPort frame self.port.toNat := by
  simp [HasWatchedPort, h]

theorem hasWatchedPort_udp (h : ipProtocol frame = udp) :
    HasWatchedPort self frame ↔ HasPort frame 123 := by
  simp [HasWatchedPort, h]

theorem run_protocol (h : LongEnough frame) : run frame self.code 10 registers =
    some (if HasWatchedPort self frame then 0 else bufferSize) := by
  have hload : fetch self.code 10 = some (.ld 1 23) := rfl
  have htcp : fetch self.code 11 = some (.jump .jeq tcp 0 7) := rfl
  have hudp : fetch self.code 19 = some (.jump .jeq udp 0 8) := rfl
  rw [run_ld hload h.1, run_jump htcp]
  split
  next heq =>
    rw [run_ports h (by decide) rfl rfl rfl rfl rfl rfl rfl]
    simp only [hasWatchedPort_tcp heq]
  next hne =>
    rw [run_jump hudp]
    split
    next heq =>
      rw [run_ports h (by decide) rfl rfl rfl rfl rfl rfl rfl]
      simp only [hasWatchedPort_udp heq]
    next hne' =>
      rw [run_accept, if_neg]
      rintro (⟨heq, -⟩ | ⟨heq, -⟩)
      · exact hne heq
      · exact hne' heq

theorem run_network (h : LongEnough frame) : run frame self.code 8 registers =
    some (if IsIp frame ∧ HasWatchedPort self frame then 0 else bufferSize) := by
  have hload : fetch self.code 8 = some (.ld 2 12) := rfl
  have hip : fetch self.code 9 = some (.jump .jeq 0x800 0 18) := rfl
  have hlength := h.1
  rw [run_ld hload (by omega), run_jump hip]
  split
  next heq =>
    have hisIp : IsIp frame := heq
    rw [run_protocol h]
    simp only [hisIp, true_and]
  next hne => rw [run_accept, if_neg fun hboth => hne hboth.1]

/-- The second comparison of addresses. -/
theorem run_dst (h : LongEnough frame) : run frame self.code 4 registers =
    some (if etherDst frame = self.mac ∧ IsIp frame ∧ HasWatchedPort self frame then 0
      else bufferSize) := by
  have hloadLow : fetch self.code 4 = some (.ld 4 2) := rfl
  have hlow : fetch self.code 5 =
      some (.jump .jeq (loadBE 32 self.ifrAddr.toList 4).toNat 0 22) := rfl
  have hloadHigh : fetch self.code 6 = some (.ld 2 0) := rfl
  have hhigh : fetch self.code 7 =
      some (.jump .jeq (loadBE 16 self.ifrAddr.toList 2).toNat 0 20) := rfl
  have hlength := h.1
  have hmac : etherDst frame = self.mac ↔ _ := eq_mac_iff 0 (by omega)
  rw [run_ld hloadLow (by omega), run_jump hlow]
  split
  next hlowEq =>
    rw [run_ld hloadHigh (by omega), run_jump hhigh]
    split
    next hhighEq =>
      have hdst : etherDst frame = self.mac := hmac.mpr ⟨hhighEq, hlowEq⟩
      rw [run_network h]
      simp only [hdst, true_and]
    next hne => rw [run_accept, if_neg fun hall => hne (hmac.mp hall.1).1]
  next hne => rw [run_accept, if_neg fun hall => hne (hmac.mp hall.1).2]

/-- What the program compares: the ways are merged, and so are the ports. -/
def Merged (self : PacketDumper) (frame : List UInt8) : Prop :=
  (etherSrc frame = self.mac ∨ etherDst frame = self.mac) ∧ IsIp frame ∧
    HasWatchedPort self frame

instance : Decidable (Merged self frame) := inferInstanceAs (Decidable (_ ∧ _))

theorem merged_of_src_ne (h : etherSrc frame ≠ self.mac) : Merged self frame ↔
    etherDst frame = self.mac ∧ IsIp frame ∧ HasWatchedPort self frame := by
  simp [Merged, h]

theorem filterFrame_code (h : LongEnough frame) :
    filterFrame self.code frame = some (if Merged self frame then 0 else bufferSize) := by
  have hloadLow : fetch self.code 0 = some (.ld 4 8) := rfl
  have hlow : fetch self.code 1 =
      some (.jump .jeq (loadBE 32 self.ifrAddr.toList 4).toNat 0 2) := rfl
  have hloadHigh : fetch self.code 2 = some (.ld 2 6) := rfl
  have hhigh : fetch self.code 3 =
      some (.jump .jeq (loadBE 16 self.ifrAddr.toList 2).toNat 4 0) := rfl
  have hlength := h.1
  have hmac : etherSrc frame = self.mac ↔ _ := eq_mac_iff 6 (by omega)
  rw [filterFrame, run_ld hloadLow (by omega), run_jump hlow]
  split
  next hlowEq =>
    rw [run_ld hloadHigh (by omega), run_jump hhigh]
    split
    next hhighEq =>
      have hsrc : etherSrc frame = self.mac := hmac.mpr ⟨hhighEq, hlowEq⟩
      rw [run_network h]
      simp only [Merged, hsrc, true_or, true_and]
    next hne =>
      rw [run_dst h]
      simp only [merged_of_src_ne fun hsrc => hne (hmac.mp hsrc).1]
  next hne =>
    rw [run_dst h]
    simp only [merged_of_src_ne fun hsrc => hne (hmac.mp hsrc).2]

/-! ## The program and the expression -/

/-- The frame has the port on the side of the interface. -/
def StraightPort (self : PacketDumper) (frame : List UInt8) (port : ℕ) : Prop :=
  (etherSrc frame = self.mac ∧ srcPort frame = port) ∨
    (etherDst frame = self.mac ∧ dstPort frame = port)

theorem documented_iff : Documented self frame ↔ IsIp frame ∧ IsFirstFragment frame ∧
    ((ipProtocol frame = tcp ∧ StraightPort self frame self.port.toNat) ∨
      (ipProtocol frame = udp ∧ StraightPort self frame 123)) := by
  unfold Documented HasSrcPort HasDstPort StraightPort
  grind

/-- A port on either side is on the side of the interface or crossed. -/
theorem straightPort_or_crossedPort {port : ℕ} :
    (etherSrc frame = self.mac ∨ etherDst frame = self.mac) ∧
      (srcPort frame = port ∨ dstPort frame = port) ↔
      StraightPort self frame port ∨ CrossedPort self frame port := by
  unfold StraightPort CrossedPort
  grind

theorem CrossedPort.not_straightPort {port : ℕ} (h : CrossedPort self frame port) :
    ¬ StraightPort self frame port := by
  unfold StraightPort
  rcases h with ⟨-, hdst, hsrcPort, -⟩ | ⟨-, hsrc, hdstPort, -⟩
  · tauto
  · tauto

/-- The program leaves out what the expression says, and the crossed frames. -/
theorem merged_iff : Merged self frame ↔ Documented self frame ∨ Crossed self frame := by
  have hports := fun port => @straightPort_or_crossedPort self frame port
  rw [documented_iff, Merged, Crossed, HasWatchedPort, HasPort, HasPort]
  grind

theorem Crossed.not_documented (h : Crossed self frame) : ¬ Documented self frame := by
  rw [documented_iff]
  rintro ⟨-, -, ⟨hdocumented, hstraight⟩ | ⟨hdocumented, hstraight⟩⟩
  · obtain ⟨-, -, ⟨-, hport⟩ | ⟨hprotocol, -⟩⟩ := h
    · exact hport.not_straightPort hstraight
    · exact absurd (hdocumented.symm.trans hprotocol) (by decide)
  · obtain ⟨-, -, ⟨hprotocol, -⟩ | ⟨-, hport⟩⟩ := h
    · exact absurd (hdocumented.symm.trans hprotocol) (by decide)
    · exact hport.not_straightPort hstraight

/-- The program returns zero exactly for the frames of the expression and takes all others whole,
exactly if the frame is not a crossed one. -/
theorem filterFrame_documented_iff (self : PacketDumper) {frame : List UInt8}
    (h : LongEnough frame) :
    ((filterFrame self.code frame = some 0 ↔ Documented self frame) ∧
      (¬ Documented self frame → filterFrame self.code frame = some bufferSize)) ↔
      ¬ Crossed self frame := by
  rw [filterFrame_code h]
  constructor
  · rintro ⟨hiff, -⟩ hcrossed
    have hmerged : Merged self frame := merged_iff.mpr (.inr hcrossed)
    rw [if_pos hmerged] at hiff
    exact hcrossed.not_documented (hiff.mp rfl)
  · intro hcrossed
    have hmerged : Merged self frame ↔ Documented self frame := by
      rw [merged_iff, or_iff_left hcrossed]
    by_cases hdocumented : Documented self frame
    · rw [if_pos (hmerged.mpr hdocumented)]
      exact ⟨iff_of_true rfl hdocumented, fun hnot => absurd hdocumented hnot⟩
    · rw [if_neg fun hm => hdocumented (hmerged.mp hm)]
      exact ⟨iff_of_false (by decide) hdocumented, fun _ => rfl⟩

/-- A dumper on port 19000. -/
def dumper19000 : PacketDumper where
  ifrAddr := ⟨[1, 0, 2, 0, 0, 0, 0, 1, 0, 0, 0, 0, 0, 0, 0, 0], rfl⟩
  port := 19000

/-- A TCP segment of the interface of `dumper19000`. -/
def sentSegment (srcPort dstPort : ℕ) : List UInt8 :=
  [2, 0, 0, 0, 0, 9] ++ [2, 0, 0, 0, 0, 1] ++ [8, 0] ++
    [0x45, 0, 0, 40, 0, 0, 0, 0, 64, 6, 0, 0, 10, 123, 0, 1, 10, 123, 0, 9] ++
    beBytes 2 srcPort ++ beBytes 2 dstPort

/-- A segment of the dump itself. -/
theorem filterFrame_documented_dump :
    (filterFrame dumper19000.code (sentSegment 19000 4000) = some 0 ↔
      Documented dumper19000 (sentSegment 19000 4000)) ∧
    (¬ Documented dumper19000 (sentSegment 19000 4000) →
      filterFrame dumper19000.code (sentSegment 19000 4000) = some bufferSize) :=
  (filterFrame_documented_iff dumper19000 (by decide)).mpr (by decide)

/-- A segment to the same port of another host is left out too. -/
theorem filterFrame_crossed :
    LongEnough (sentSegment 4000 19000) ∧
      filterFrame dumper19000.code (sentSegment 4000 19000) = some 0 ∧
      ¬ Documented dumper19000 (sentSegment 4000 19000) := by
  decide

end PacketDumper

end Hc
