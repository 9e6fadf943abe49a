import Hc.Ssh.Connection

/-!
# What the functions of the connection leave as it is
-/

namespace Hc.Ssh

/-- The mode and the keys are the same. -/
structure Client.SameKeys (client other : Client) : Prop where
  encryption : other.encryption = client.encryption
  encAead : other.encAead.key = client.encAead.key
  encLen : other.encLen.key = client.encLen.key
  decAead : other.decAead.key = client.decAead.key
  decLen : other.decLen.key = client.decLen.key

namespace Client.SameKeys

variable (bufferSize : ℕ) {self other third : Client}

theorem refl (self : Client) : self.SameKeys self := ⟨rfl, rfl, rfl, rfl, rfl⟩

theorem trans (h : self.SameKeys other) (h' : other.SameKeys third) : self.SameKeys third :=
  ⟨h'.encryption.trans h.encryption, h'.encAead.trans h.encAead, h'.encLen.trans h.encLen,
    h'.decAead.trans h.decAead, h'.decLen.trans h.decLen⟩

theorem readSize (self : Client) : self.SameKeys (self.readSize bufferSize).1 := by
  rw [Client.readSize]
  split
  next => exact .refl self
  next =>
    obtain ⟨decLen, hclient, hkey, -⟩ :=
      decryptSize_fst self (self.bytesAt bufferSize self.bufferPos 4)
    dsimp only
    rw [hclient]
    split
    next => exact ⟨rfl, rfl, rfl, rfl, hkey⟩
    next =>
      split
      next => exact ⟨rfl, rfl, rfl, rfl, hkey⟩
      next => exact ⟨rfl, rfl, rfl, rfl, hkey⟩

theorem decryptLoop_key (cipher : ChaCha20) (buffer : ℕ → UInt8) (address remaining : ℕ) :
    (Client.decryptLoop bufferSize cipher buffer address remaining).1.key = cipher.key := by
  induction hn : remaining using Nat.strong_induction_on generalizing cipher buffer address
    remaining with
  | h n ih =>
      subst hn
      rw [Client.decryptLoop]
      split
      next => rfl
      next hmore =>
        have hlt : remaining - min remaining 64 < remaining := by omega
        exact (ih _ hlt cipher.next _ _ (remaining - min remaining 64) rfl).trans rfl

theorem decrypt (self : Client) (poly1305 : Poly1305) (packetSize : ℕ) :
    self.SameKeys (self.decrypt bufferSize poly1305 packetSize).1 := by
  rw [Client.decrypt]
  split
  next => exact .refl self
  next =>
    dsimp only
    split
    next => exact ⟨rfl, rfl, rfl, rfl, rfl⟩
    next => exact ⟨rfl, rfl, rfl, (decryptLoop_key bufferSize _ _ _ _).trans rfl, rfl⟩

theorem peekPacket (self : Client) (poly1305 : Poly1305) :
    self.SameKeys (self.peekPacket bufferSize poly1305).1 := by
  rw [Client.peekPacket]
  split
  next => exact .refl self
  next =>
    have hdecrypt := decrypt bufferSize self poly1305 (4 + self.nextSize.toNat)
    split
    next client status heq =>
      rw [heq] at hdecrypt
      exact hdecrypt
    next client heq =>
      rw [heq] at hdecrypt
      dsimp only
      split
      next => exact hdecrypt
      next => exact hdecrypt.trans ⟨rfl, rfl, rfl, rfl, rfl⟩

theorem peekMessage (self : Client) (poly1305 : Poly1305) :
    self.SameKeys (self.peekMessage bufferSize poly1305).1 := by
  rw [Client.peekMessage]
  split
  next => exact .refl self
  next =>
    split
    next =>
      have hread := readSize bufferSize self
      split
      next client status heq =>
        rw [heq] at hread
        exact hread
      next client heq =>
        rw [heq] at hread
        exact hread.trans (peekPacket bufferSize client poly1305)
    next => exact peekPacket bufferSize self poly1305

theorem nextMessage (self : Client) (poly1305 : Poly1305) :
    self.SameKeys (self.nextMessage bufferSize poly1305).1 := by
  have hpeek := peekMessage bufferSize self poly1305
  rw [Client.nextMessage]
  dsimp only
  split
  next => exact hpeek.trans ⟨rfl, rfl, rfl, rfl, rfl⟩
  next => exact hpeek

theorem receive (self : Client) (data : List UInt8) :
    self.SameKeys (self.receive bufferSize data) :=
  ⟨rfl, rfl, rfl, rfl, rfl⟩

theorem sendMessage (self : Client) (out : Outgoing) (sendto : List UInt8 → ℤ) :
    self.SameKeys (self.sendMessage out sendto).1 := by
  obtain ⟨encAead, encLen, hclient, haead, hlen, -⟩ := sealMessage_fst self out
  rw [Client.sendMessage]
  dsimp only
  rw [hclient]
  split
  next => exact ⟨rfl, haead, hlen, rfl, rfl⟩
  next => exact ⟨rfl, haead, hlen, rfl, rfl⟩

end Client.SameKeys

/-! ## Sizes -/

section Sizes

variable (bufferSize : ℕ) {client : Client}

/-- The size of the next packet is in its bounds. -/
def Client.Bounded (client : Client) : Prop := client.nextSize.natAbs ≤ maxPacketSize

theorem bounded_readSize (h : client.Bounded) :
    (client.readSize bufferSize).1.Bounded ∧
      ∀ status ∈ (client.readSize bufferSize).2, status ≤ 0 := by
  rw [Client.readSize]
  split
  next =>
    refine ⟨h, fun status hstatus => ?_⟩
    rw [← Option.some.inj hstatus]
  next =>
    obtain ⟨decLen, hclient, -⟩ :=
      decryptSize_fst client (client.bytesAt bufferSize client.bufferPos 4)
    dsimp only
    rw [hclient]
    split
    next =>
      refine ⟨h, fun status hstatus => ?_⟩
      rw [← Option.some.inj hstatus]
      decide
    next hsize =>
      split
      next =>
        refine ⟨h, fun status hstatus => ?_⟩
        rw [← Option.some.inj hstatus]
        decide
      next =>
        refine ⟨?_, by simp⟩
        change (client.decryptSize _).2 ≤ maxPacketSize
        omega

theorem decrypt_nextSize (client : Client) (poly1305 : Poly1305) (packetSize : ℕ) :
    (client.decrypt bufferSize poly1305 packetSize).1.nextSize = client.nextSize ∧
      ∀ status ∈ (client.decrypt bufferSize poly1305 packetSize).2, status < 0 := by
  rw [Client.decrypt]
  split
  next => exact ⟨rfl, by simp⟩
  next =>
    dsimp only
    split
    next =>
      refine ⟨rfl, fun status hstatus => ?_⟩
      rw [← Option.some.inj hstatus]
      decide
    next => exact ⟨rfl, by simp⟩

/-- What a function returns that peeks a message. -/
def PeekBounded (result : Client × ℤ) : Prop := result.1.Bounded ∧ result.2 ≤ maxPacketSize

theorem bounded_peekPacket (h : client.Bounded) (poly1305 : Poly1305) :
    PeekBounded (client.peekPacket bufferSize poly1305) := by
  obtain ⟨hnext, hstatus⟩ := decrypt_nextSize bufferSize client poly1305
    (4 + client.nextSize.toNat)
  unfold PeekBounded
  unfold Client.Bounded at h ⊢
  rw [Client.peekPacket]
  split
  next => exact ⟨h, Int.natCast_nonneg _⟩
  next =>
    split
    next client' status heq =>
      rw [heq] at hnext hstatus
      have hnegative := hstatus status rfl
      dsimp only at hnext ⊢
      exact ⟨by rwa [hnext], by omega⟩
    next client' heq =>
      rw [heq] at hnext
      dsimp only at hnext ⊢
      split
      next => exact ⟨by rwa [hnext], by omega⟩
      next => exact ⟨by rwa [Int.natAbs_neg, hnext], by omega⟩

theorem bounded_peekMessage (h : client.Bounded) (poly1305 : Poly1305) :
    PeekBounded (client.peekMessage bufferSize poly1305) := by
  rw [Client.peekMessage]
  split
  next =>
    refine ⟨h, ?_⟩
    unfold Client.Bounded at h
    dsimp only
    omega
  next =>
    split
    next =>
      obtain ⟨hread, hstatus⟩ := bounded_readSize bufferSize h
      split
      next client' status heq =>
        rw [heq] at hread hstatus
        have hnonpos := hstatus status rfl
        refine ⟨hread, ?_⟩
        dsimp only
        omega
      next client' heq =>
        rw [heq] at hread
        exact bounded_peekPacket bufferSize hread poly1305
    next => exact bounded_peekPacket bufferSize h poly1305

theorem bounded_nextMessage (h : client.Bounded) (poly1305 : Poly1305) :
    (client.nextMessage bufferSize poly1305).1.Bounded ∧
      (client.nextMessage bufferSize poly1305).2.1 ≤ maxPacketSize := by
  obtain ⟨hpeek, hsize⟩ := bounded_peekMessage bufferSize h poly1305
  rw [Client.nextMessage]
  dsimp only
  split
  next => exact ⟨Nat.zero_le _, hsize⟩
  next => exact ⟨hpeek, hsize⟩

end Sizes

/-! ## Waiting -/

section Wait

variable (bufferSize : ℕ) {poly1305 : ℕ → Poly1305}

theorem nextMessage_size (client : Client) (stack : Poly1305) :
    0 < (client.nextMessage bufferSize stack).2.1 → (client.nextMessage bufferSize stack).2.1 =
      (client.nextMessage bufferSize stack).2.2.length := by
  rw [Client.nextMessage]
  dsimp only
  split
  next hsize =>
    intro _
    rw [Client.messageAt, Client.bytesAt, Mirror.length_read]
    exact (Int.toNat_of_nonneg hsize.le).symm
  next hsize => exact fun hpos => absurd hpos hsize

/-- The keys stay as they are, and the size is that of the message. -/
structure WaitedFor (client : Client) (waited : Waited) : Prop where
  sameKeys : client.SameKeys waited.client
  bounded : waited.client.Bounded
  size_le : waited.size ≤ maxPacketSize
  size_eq : 0 < waited.size → waited.size = waited.message.length

theorem WaitedFor.nothing {client client' : Client} (hkeys : client.SameKeys client')
    (hbounded : client'.Bounded) (stream : List UInt8) (limits : List ℕ) {size : ℤ}
    (hsize : size ≤ 0) : WaitedFor client ⟨client', stream, limits, size, []⟩ :=
  ⟨hkeys, hbounded, hsize.trans (by decide), fun hpos => absurd hpos (Int.not_lt.mpr hsize)⟩

theorem waitLoop_waitedFor (limits : List ℕ) {client : Client} (h : client.Bounded)
    (stream : List UInt8) :
    WaitedFor client (waitLoop bufferSize poly1305 client stream limits) := by
  induction limits generalizing client stream with
  | nil =>
      have hkeys := Client.SameKeys.nextMessage bufferSize client (poly1305 0)
      have hsize := nextMessage_size bufferSize client (poly1305 0)
      obtain ⟨hnext, hle⟩ := bounded_nextMessage bufferSize h (poly1305 0)
      unfold waitLoop
      rw [List.length_nil]
      dsimp only
      split
      next => exact ⟨hkeys, hnext, hle, hsize⟩
      next =>
        split
        next => exact .nothing hkeys hnext _ _ (by decide)
        next => exact .nothing hkeys hnext _ _ (by decide)
  | cons limit limits ih =>
      generalize hstack : poly1305 (limit :: limits).length = stack
      have hkeys := Client.SameKeys.nextMessage bufferSize client stack
      have hsize := nextMessage_size bufferSize client stack
      obtain ⟨hnext, hle⟩ := bounded_nextMessage bufferSize h stack
      unfold waitLoop
      rw [hstack]
      dsimp only
      split
      next => exact ⟨hkeys, hnext, hle, hsize⟩
      next =>
        split
        next => exact .nothing hkeys hnext _ _ (by decide)
        next =>
          split
          next => exact .nothing hkeys hnext _ _ (by decide)
          next =>
            have hrest (data : List UInt8) := @ih
              ((client.nextMessage bufferSize stack).1.receive bufferSize data) hnext
              (stream.drop data.length)
            exact ⟨hkeys.trans (.trans (.receive bufferSize _ _) (hrest _).sameKeys),
              (hrest _).bounded, (hrest _).size_le, (hrest _).size_eq⟩

end Wait

/-! ## The identification of the server -/

/-- What the client takes for the identification of a server. -/
structure IsServerId (serverId : List UInt8) : Prop where
  starts : ascii "SSH-2.0-" <+: serverId
  length_lt : serverId.length < 255

/-- What is hashed is an identification behind its length. -/
def Hello.Identified (hello : Hello) : Prop :=
  ∀ accepted, hello = .ok accepted → ∃ serverId, IsServerId serverId ∧
    accepted.hashed = counted 4 serverId

theorem scanLoop_lt (bufferSize : ℕ) (buffer : ℕ → UInt8) (last fuel pos : ℕ) :
    (scanLoop bufferSize buffer last fuel pos).1 = true →
      (scanLoop bufferSize buffer last fuel pos).2 + 1 < last := by
  induction fuel generalizing pos with
  | zero => exact nofun
  | succ fuel ih =>
      rw [scanLoop]
      split
      next hlt =>
        split
        next => exact fun _ => hlt
        next => exact ih (pos + 1)
      next => exact nofun

theorem onCr_identified (bufferSize : ℕ) (buffer : ℕ → UInt8) {pos : ℕ} (received : ℕ)
    (rest : List (List UInt8)) (hpos : pos < 255) :
    (onCr bufferSize buffer pos received rest).Identified := by
  have hid : ¬(pos < 8 ∨ memCompare (Mirror.read bufferSize buffer 0 8) (ascii "SSH-2.0-") ≠ 0) →
      IsServerId (Mirror.read bufferSize buffer 0 pos) ∧
        beBytes 4 pos ++ Mirror.read bufferSize buffer 0 pos =
          counted 4 (Mirror.read bufferSize buffer 0 pos) := by
    intro h
    obtain ⟨hlong, hcompare⟩ := not_or.mp h
    rw [not_not, memCompare_eq_zero_iff (Mirror.length_read 0 8)] at hcompare
    refine ⟨⟨?_, ?_⟩, ?_⟩
    · rw [← hcompare, ← Mirror.take_read 0 (Nat.not_lt.mp hlong)]
      exact List.take_prefix _ _
    · rwa [Mirror.length_read]
    · rw [counted, Mirror.length_read]
  intro accepted haccepted
  unfold onCr at haccepted
  split at haccepted
  next => contradiction
  next =>
    split at haccepted
    next => contradiction
    next hvalid =>
      refine ⟨_, (hid hvalid).1, ?_⟩
      dsimp only at haccepted
      split at haccepted
      next => exact (congrArg Accepted.hashed (Hello.ok.inj haccepted)).symm.trans (hid hvalid).2
      next => exact (congrArg Accepted.hashed (Hello.ok.inj haccepted)).symm.trans (hid hvalid).2

/-- Every way out of the loop is a failed call or a CR in the part that is scanned. -/
theorem helloLoop_forall (bufferSize : ℕ) {P : Hello → Prop} (hfailed : P (.failed (-2)))
    (honCr : ∀ buffer pos received rest, pos < 255 → P (onCr bufferSize buffer pos received rest))
    (reads : List (List UInt8)) (buffer : ℕ → UInt8) (pos received : ℕ) :
    P (helloLoop bufferSize reads buffer pos received) := by
  induction reads generalizing buffer pos received with
  | nil => exact hfailed
  | cons data reads ih =>
      rw [helloLoop]
      split
      next => exact hfailed
      next =>
        dsimp only
        generalize hlast : (if received + data.length > 255 then 255
          else received + data.length) = last
        have hle : last ≤ 255 := by
          split at hlast <;> omega
        have hscan := scanLoop_lt bufferSize (Mirror.write bufferSize buffer pos data) last last pos
        split
        next pos' heq =>
          rw [heq] at hscan
          have hpos := hscan rfl
          exact honCr _ _ _ _ (by omega)
        next => exact ih _ _ _

theorem helloLoop_identified (bufferSize : ℕ) (reads : List (List UInt8)) (buffer : ℕ → UInt8)
    (pos received : ℕ) : (helloLoop bufferSize reads buffer pos received).Identified :=
  helloLoop_forall bufferSize (fun _ h => nomatch h)
    (fun buffer _ received rest hpos => onCr_identified bufferSize buffer received rest hpos)
    reads buffer pos received

/-- The identification that the client takes for the one of the server. It is hashed, and it is the
line that the server has sent if the first call of `recvfrom` delivers the end of that line. -/
structure Identifies (bufferSize : ℕ) (segments : List (List UInt8)) (serverId : List UInt8) :
    Prop extends IsServerId serverId where
  accepted : ∃ accepted calls, doHello bufferSize segments = .ok accepted ∧
    accepted.hashed = counted 4 serverId ∧ segments = calls ++ accepted.rest ∧
    -- A call of `recvfrom` delivers no more than there is room for.
    (calls.flatten.length ≤ bufferSize →
      ∃ i, IsLine (scanned calls) i ∧ serverId = (scanned calls).take i)
  received : (segments.headD []).length ≤ bufferSize →
    ∀ i, Decides (segments.headD []) i → serverId = (segments.headD []).take i

/-- A line that the first call delivers is hashed as it is. -/
theorem hashed_of_decides {bufferSize i : ℕ} {segments : List (List UInt8)} {accepted : Accepted}
    (h : doHello bufferSize segments = .ok accepted)
    (hfits : (segments.headD []).length ≤ bufferSize) (hi : Decides (segments.headD []) i) :
    accepted.hashed = beBytes 4 i ++ (segments.headD []).take i := by
  cases segments with
  | nil => exact nomatch h
  | cons data reads =>
      rw [List.headD_cons] at hfits hi ⊢
      have hend := hi.1
      have hdata : data ≠ [] := by
        rintro rfl
        rw [List.length_nil] at hend
        omega
      rcases @doHello_cons bufferSize data reads hdata hfits with ⟨j, hj, hanswers⟩ | ⟨hnone, -⟩
      · obtain rfl := hi.unique hj
        by_cases hline : IsLine data i
        · obtain ⟨accepted', hok, hhashed, -⟩ := hanswers.1 hline
          rwa [Hello.ok.inj (h.symm.trans hok)]
        · obtain ⟨status, hfailed⟩ := hanswers.2 hline
          exact nomatch h.symm.trans hfailed
      · exact absurd hi (hnone i)

theorem exists_identifies {bufferSize : ℕ} {segments : List (List UInt8)} {accepted : Accepted}
    (h : doHello bufferSize segments = .ok accepted) :
    ∃ serverId, Identifies bufferSize segments serverId ∧ accepted.hashed = counted 4 serverId := by
  obtain ⟨serverId, hid, hhashed⟩ := helloLoop_identified bufferSize segments _ 0 0 accepted h
  obtain ⟨calls, hcalls, hline⟩ := doHello_line h
  have heq {i : ℕ} {bytes : List UInt8} (hbytes : accepted.hashed = beBytes 4 i ++ bytes) :
      serverId = bytes := by
    rw [hhashed, counted] at hbytes
    exact (List.append_inj hbytes (by rw [length_beBytes, length_beBytes])).2
  refine ⟨serverId, ⟨hid, ⟨accepted, calls, h, hhashed, hcalls, fun hfits => ?_⟩,
    fun hfits i hi => heq (hashed_of_decides h hfits hi)⟩, hhashed⟩
  obtain ⟨i, hi, hbytes⟩ := hline hfits
  exact ⟨i, hi, heq hbytes⟩

/-- The packets begin behind the line, at a multiple of four. -/
def Hello.Aligned (hello : Hello) : Prop :=
  ∀ accepted, hello = .ok accepted → 4 ∣ accepted.bufferPos ∧ accepted.bufferPos ≤ 256

theorem onCr_aligned (bufferSize : ℕ) (buffer : ℕ → UInt8) {pos : ℕ} (received : ℕ)
    (rest : List (List UInt8)) (hpos : pos < 255) :
    (onCr bufferSize buffer pos received rest).Aligned := by
  have halign : 4 ∣ alignForward (pos + 2) 4 ∧ alignForward (pos + 2) 4 ≤ 256 := by
    refine ⟨dvd_alignForward _ _, ?_⟩
    unfold alignForward
    omega
  intro accepted haccepted
  unfold onCr at haccepted
  split at haccepted
  next => exact nomatch haccepted
  next =>
    split at haccepted
    next => exact nomatch haccepted
    next =>
      dsimp only at haccepted
      split at haccepted
      next =>
        obtain rfl := Hello.ok.inj haccepted
        exact halign
      next =>
        obtain rfl := Hello.ok.inj haccepted
        exact halign

theorem helloLoop_aligned (bufferSize : ℕ) (reads : List (List UInt8)) (buffer : ℕ → UInt8)
    (pos received : ℕ) : (helloLoop bufferSize reads buffer pos received).Aligned :=
  helloLoop_forall bufferSize (fun _ h => nomatch h)
    (fun buffer _ received rest hpos => onCr_aligned bufferSize buffer received rest hpos)
    reads buffer pos received

end Hc.Ssh
