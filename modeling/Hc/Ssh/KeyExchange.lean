import Hc.Foundation.Attempt
import Hc.Foundation.Counted
import Hc.Ssh.NameList

/-!
# The KEXINIT message of the server

The start of `_client_doKeyExchange` in `hc/examples/ssh/client.c`, which parses the message with
the algorithms of the server. Pointers are offsets in the message. The sizes of the lists that are
only skipped are added in 32 bits; what a size that wraps around leads to is refused later on.
-/

namespace Hc.Ssh

/-- How the parser of the KEXINIT message ends early: at a load outside of the message, or with a
status. No other load of the client is counted as one outside. -/
inductive Exit where
  | outside
  | returned (status : ℤ)
  deriving DecidableEq

/-- `_client_KEX_CURVE25519`. -/
def kexCurve25519 : List UInt8 := ascii "curve25519-sha256"

/-- `_client_KEX_CURVE25519_LIBSSH`. -/
def kexCurve25519Libssh : List UInt8 := ascii "curve25519-sha256@libssh.org"

/-- `_client_HOST_KEY_ED25519`. -/
def hostKeyEd25519 : List UInt8 := ascii "ssh-ed25519"

/-- `_client_CIPHER_CHACHA20POLY1305`. -/
def cipherChacha20Poly1305 : List UInt8 := ascii "chacha20-poly1305@openssh.com"

/-- `proto_MSG_KEXINIT`. -/
abbrev msgKexInit : UInt8 := 20

/-- `if (condition) return status;`. -/
def returnIf (condition : Prop) [Decidable condition] (status : ℤ) : Except Exit Unit :=
  if condition then .error (.returned status) else .ok ()

/-- A value that is there unless a load was outside. -/
def orOutside {α : Type} : Option α → Except Exit α
  | some a => .ok a
  | none => .error .outside

section Parser

variable (serverInit : List UInt8)

def loadByte (offset : ℕ) : Except Exit UInt8 := orOutside serverInit[offset]?

/-- `mem_loadU32BE`. -/
def loadU32BE (offset : ℕ) : Except Exit ℕ :=
  if offset + 4 ≤ serverInit.length then .ok (countAt 4 serverInit offset) else .error .outside

/-- Calls of `_client_nameListContains`, up to the first algorithm that the list contains. -/
def containsAny (nameList : List UInt8) : List (List UInt8) → Except Exit Bool
  | [] => .ok false
  | algorithm :: algorithms => do
    let found ← orOutside (nameListContains nameList algorithm)
    if found then return true else containsAny nameList algorithms

/-- One of the lists that an algorithm is needed of: the offset behind it. `short` and `missing` are
the statuses for a message that ends too early, and for a list without the algorithms. -/
def checkList (algorithms : List (List UInt8)) (short missing : ℤ) (curr : ℕ) : Except Exit ℕ := do
  let listSize ← loadU32BE serverInit curr
  let curr := curr + 4
  returnIf (curr + listSize + 4 > serverInit.length) short
  let contained ← containsAny ((serverInit.drop curr).take listSize) algorithms
  returnIf (contained = false) missing
  return curr + listSize

/-- The loop that skips lists. -/
def skipLists : ℕ → ℕ → Except Exit ℕ
  | 0, curr => .ok curr
  | lists + 1, curr => do
    returnIf (curr + 4 > serverInit.length) (-9)
    let listSize ← loadU32BE serverInit curr
    -- `4 + listSize` is an `uint32_t`.
    skipLists lists (curr + (4 + listSize) % 2 ^ 32)

/-- The checks of `_client_doKeyExchange` on the message. -/
def parseServerInit : Except Exit Unit := do
  returnIf (serverInit.length < 1 + 16 + 4) (-1)
  let opcode ← loadByte serverInit 0
  returnIf (opcode ≠ msgKexInit) (-2)
  let curr ← checkList serverInit [kexCurve25519, kexCurve25519Libssh] (-3) (-4) (1 + 16)
  let curr ← checkList serverInit [hostKeyEd25519] (-5) (-6) curr
  let curr ← checkList serverInit [cipherChacha20Poly1305] (-7) (-8) curr
  let curr ← checkList serverInit [cipherChacha20Poly1305] (-7) (-8) curr
  let curr ← skipLists serverInit 6 curr
  returnIf (curr + 1 + 4 ≠ serverInit.length) (-10)
  let firstKexPacketFollows ← loadByte serverInit curr
  returnIf (firstKexPacketFollows ≠ 0) (-11)

end Parser

/-! ## The format -/

/-- What a KEXINIT message holds. -/
structure KexInit where
  cookie : List UInt8
  kexList : List UInt8
  hostKeyList : List UInt8
  clientCipherList : List UInt8
  serverCipherList : List UInt8
  otherLists : List (List UInt8)
  reserved : List UInt8
  cookie_length : cookie.length = 16
  otherLists_length : otherLists.length = 6
  reserved_length : reserved.length = 4
  list_length : ∀ list ∈ kexList :: hostKeyList :: clientCipherList :: serverCipherList ::
    otherLists, list.length < 256 ^ 4

namespace KexInit

/-- The bytes of the message; no key exchange packet follows it. -/
def bytes (init : KexInit) : List UInt8 :=
  msgKexInit :: init.cookie ++ (counted 4 init.kexList ++ (counted 4 init.hostKeyList ++
    (counted 4 init.clientCipherList ++ (counted 4 init.serverCipherList ++
      ((init.otherLists.map (counted 4)).flatten ++ 0 :: init.reserved)))))

/-- The lists contain the algorithms that the client knows. -/
structure Accepted (init : KexInit) : Prop where
  kex : nameListContains init.kexList kexCurve25519 = some true ∨
    nameListContains init.kexList kexCurve25519Libssh = some true
  hostKey : nameListContains init.hostKeyList hostKeyEd25519 = some true
  clientCipher : nameListContains init.clientCipherList cipherChacha20Poly1305 = some true
  serverCipher : nameListContains init.serverCipherList cipherChacha20Poly1305 = some true

end KexInit

/-! ## Loads and checks -/

/-- The ways to end early that are to be expected. -/
def Exit.Regular (exit : Exit) : Prop := exit ≠ .outside

section Rules

variable {serverInit rest list : List UInt8} {offset : ℕ} {b : UInt8}

theorem attempts_returnIf (condition : Prop) [Decidable condition] (status : ℤ) :
    Attempts Exit.Regular (returnIf condition status) fun _ => ¬ condition := by
  unfold returnIf
  split
  next => exact .error nofun
  next h => exact .ok h

theorem returnIf_of_not {condition : Prop} [Decidable condition] {status : ℤ} (h : ¬ condition) :
    returnIf condition status = .ok () := if_neg h

theorem loadByte_of_drop (h : serverInit.drop offset = b :: rest) :
    loadByte serverInit offset = .ok b := by
  rw [loadByte, getElem?_of_drop h, orOutside]

theorem attempts_loadByte (h : offset < serverInit.length) :
    Attempts Exit.Regular (loadByte serverInit offset)
      fun b => serverInit.drop offset = b :: serverInit.drop (offset + 1) := by
  have hdrop := List.drop_eq_getElem_cons h
  rw [loadByte_of_drop hdrop]
  exact .ok hdrop

theorem attempts_loadU32BE (h : offset + 4 ≤ serverInit.length) :
    Attempts Exit.Regular (loadU32BE serverInit offset) (· = countAt 4 serverInit offset) := by
  rw [loadU32BE, if_pos h]
  exact .ok rfl

/-- The list contains one of the algorithms. -/
def Contains (list : List UInt8) (algorithms : List (List UInt8)) : Prop :=
  ∃ algorithm ∈ algorithms, nameListContains list algorithm = some true

/-- An algorithm that can be searched: it has a name, without commas. -/
def Searchable (algorithm : List UInt8) : Prop := algorithm ≠ [] ∧ comma ∉ algorithm

instance (algorithm : List UInt8) : Decidable (Searchable algorithm) :=
  inferInstanceAs (Decidable (_ ∧ _))

theorem containsAny_eq (list : List UInt8) (algorithms : List (List UInt8))
    (hlist : list.length < 2 ^ 32)
    (hsearchable : ∀ algorithm ∈ algorithms, Searchable algorithm) :
    ∃ contained, containsAny list algorithms = .ok contained ∧
      (contained = true ↔ Contains list algorithms) := by
  induction algorithms with
  | nil => exact ⟨false, rfl, by simp [Contains]⟩
  | cons algorithm algorithms ih =>
      obtain ⟨⟨hne, hcomma⟩, hrest⟩ := List.forall_mem_cons.mp hsearchable
      have hcons : Contains list (algorithm :: algorithms) ↔
          nameListContains list algorithm = some true ∨ Contains list algorithms :=
        List.exists_mem_cons_iff _ _ _
      rw [hcons, containsAny]
      have hsome := nameListContains_eq hlist hne hcomma
      generalize decide (∃ name ∈ names list, algorithm <+: name) = found at hsome
      rw [hsome]
      cases found with
      | true => exact ⟨true, rfl, by simp⟩
      | false =>
          obtain ⟨contained, hcontained, hiff⟩ := ih hrest
          exact ⟨contained, hcontained, by simpa using hiff⟩

/-- What stands behind a list that was checked: at least the size of the next one. -/
theorem attempts_checkList {algorithms : List (List UInt8)} (short missing : ℤ)
    (hsearchable : ∀ algorithm ∈ algorithms, Searchable algorithm)
    (hle : offset + 4 ≤ serverInit.length) :
    Attempts Exit.Regular (checkList serverInit algorithms short missing offset) fun next =>
      next + 4 ≤ serverInit.length ∧ ∃ list, list.length < 256 ^ 4 ∧ Contains list algorithms ∧
        serverInit.drop offset = counted 4 list ++ serverInit.drop next := by
  refine (attempts_loadU32BE hle).bind ?_
  rintro listSize rfl
  refine (attempts_returnIf _ _).bind ?_
  intro _ hinside
  obtain ⟨list, hlength, hdrop⟩ := drop_eq_counted 4 serverInit offset (by omega)
  have hshort : list.length < 256 ^ 4 := hlength ▸ countAt_lt 4 serverInit offset
  have hlist : (serverInit.drop (offset + 4)).take (countAt 4 serverInit offset) = list := by
    rw [(countAt_of_counted hshort hdrop).2.1, ← hlength, List.take_left]
  obtain ⟨contained, hcontained, hiff⟩ := containsAny_eq list algorithms
    (Nat.lt_of_lt_of_le hshort (by decide)) hsearchable
  rw [hlist, hcontained]
  refine (attempts_returnIf _ _).bind ?_
  intro _ hfound
  refine .ok ⟨by omega, list, hshort, hiff.mp (Bool.eq_true_of_not_eq_false hfound), hdrop⟩

/-- A list that stands there with one of the algorithms passes. -/
theorem checkList_of_counted {algorithms : List (List UInt8)} (short missing : ℤ)
    (hsearchable : ∀ algorithm ∈ algorithms, Searchable algorithm)
    (hdrop : serverInit.drop offset = counted 4 list ++ rest) (hshort : list.length < 256 ^ 4)
    (hnext : offset + 4 + list.length + 4 ≤ serverInit.length)
    (hcontains : Contains list algorithms) :
    checkList serverInit algorithms short missing offset = .ok (offset + 4 + list.length) := by
  obtain ⟨hcount, hbytes, -⟩ := countAt_of_counted hshort hdrop
  obtain ⟨contained, hcontained, hiff⟩ := containsAny_eq list algorithms
    (Nat.lt_of_lt_of_le hshort (by decide)) hsearchable
  obtain rfl : contained = true := hiff.mpr hcontains
  rw [checkList, loadU32BE, if_pos (by omega), hcount, ok_bind]
  dsimp only
  rw [returnIf_of_not (by omega), ok_bind, hbytes, List.take_left, hcontained]
  rfl

end Rules

/-! ## Lists that are skipped -/

section Skip

variable {serverInit rest : List UInt8} {offset : ℕ}

theorem countAt_four {b0 b1 b2 b3 : UInt8}
    (h : serverInit.drop offset = b0 :: b1 :: b2 :: b3 :: rest) :
    countAt 4 serverInit offset =
      b0.toNat * 2 ^ 24 + b1.toNat * 2 ^ 16 + b2.toNat * 2 ^ 8 + b3.toNat := by
  rw [countAt, h]
  simp only [List.take_succ_cons, List.take_zero, beNat, List.reverse_cons, List.reverse_nil,
    List.nil_append, List.cons_append, leNat_cons, leNat_nil]
  omega

theorem exists_four_bytes (h : offset + 4 ≤ serverInit.length) :
    ∃ b0 b1 b2 b3 rest, serverInit.drop offset = b0 :: b1 :: b2 :: b3 :: rest := by
  rw [List.drop_eq_getElem_cons (show offset < serverInit.length by omega),
    List.drop_eq_getElem_cons (show offset + 1 < serverInit.length by omega),
    List.drop_eq_getElem_cons (show offset + 1 + 1 < serverInit.length by omega),
    List.drop_eq_getElem_cons (show offset + 1 + 1 + 1 < serverInit.length by omega)]
  exact ⟨_, _, _, _, _, rfl⟩

/-- An offset from which the parser does not succeed any more: behind the message, or at a byte of
ones. -/
def Refused (serverInit : List UInt8) (offset : ℕ) : Prop :=
  serverInit.length < offset ∨ serverInit[offset]? = some 255

/-- A size that wraps around leads to one of its own bytes of ones. -/
theorem refused_of_wraps (hle : offset + 4 ≤ serverInit.length)
    (hwraps : 2 ^ 32 ≤ 4 + countAt 4 serverInit offset) :
    Refused serverInit (offset + (4 + countAt 4 serverInit offset) % 2 ^ 32) := by
  obtain ⟨b0, b1, b2, b3, rest, hdrop⟩ := exists_four_bytes hle
  have h0 := b0.toNat_lt
  have h1 := b1.toNat_lt
  have h2 := b2.toNat_lt
  have h3 := b3.toNat_lt
  rw [countAt_four hdrop] at hwraps ⊢
  obtain rfl : b0 = 255 := UInt8.toNat_inj.mp (show b0.toNat = 255 by omega)
  obtain rfl : b1 = 255 := UInt8.toNat_inj.mp (show b1.toNat = 255 by omega)
  obtain rfl : b2 = 255 := UInt8.toNat_inj.mp (show b2.toNat = 255 by omega)
  rw [show (255 : UInt8).toNat = 255 from rfl] at hwraps ⊢
  right
  rw [← List.getElem?_drop, hdrop]
  rcases (show b3.toNat = 252 ∨ b3.toNat = 253 ∨ b3.toNat = 254 ∨ b3.toNat = 255 by omega) with
    hlast | hlast | hlast | hlast
  all_goals rw [hlast]
  · rfl
  · rfl
  · rfl
  · exact congrArg some (UInt8.toNat_inj.mp hlast)

/-- From a byte of ones on, a size is too large for the message or wraps around. -/
theorem Refused.next (hsize : serverInit.length < 2 ^ 31) (hle : offset + 4 ≤ serverInit.length)
    (h : Refused serverInit offset) :
    Refused serverInit (offset + (4 + countAt 4 serverInit offset) % 2 ^ 32) := by
  rcases Nat.lt_or_ge (4 + countAt 4 serverInit offset) (2 ^ 32) with hlt | hwraps
  · rcases h with hbehind | hones
    · omega
    · obtain ⟨b0, b1, b2, b3, rest, hdrop⟩ := exists_four_bytes hle
      rw [getElem?_of_drop hdrop, Option.some.injEq] at hones
      subst hones
      left
      rw [Nat.mod_eq_of_lt hlt, countAt_four hdrop, show (255 : UInt8).toNat = 255 from rfl]
      omega
  · exact refused_of_wraps hle hwraps

/-- A loop that starts at such an offset stays at such offsets. -/
theorem Refused.skipLists (hsize : serverInit.length < 2 ^ 31) (lists : ℕ)
    (h : Refused serverInit offset) :
    Attempts Exit.Regular (skipLists serverInit lists offset) (Refused serverInit) := by
  induction lists generalizing offset with
  | zero => exact .ok h
  | succ lists ih =>
      refine (attempts_returnIf _ _).bind ?_
      intro _ hinside
      refine (attempts_loadU32BE (by omega)).bind ?_
      rintro listSize rfl
      exact ih (h.next hsize (by omega))

/-- The loop passes over as many lists, or it gets to such an offset. -/
theorem attempts_skipLists (hsize : serverInit.length < 2 ^ 31) (lists : ℕ)
    (hle : offset ≤ serverInit.length) :
    Attempts Exit.Regular (skipLists serverInit lists offset) fun next =>
      Refused serverInit next ∨ ∃ skipped : List (List UInt8), skipped.length = lists ∧
        (∀ list ∈ skipped, list.length < 256 ^ 4) ∧
        serverInit.drop offset = (skipped.map (counted 4)).flatten ++ serverInit.drop next := by
  induction lists generalizing offset with
  | zero => exact .ok (.inr ⟨[], rfl, by simp, rfl⟩)
  | succ lists ih =>
      refine (attempts_returnIf _ _).bind ?_
      intro _ hinside
      refine (attempts_loadU32BE (by omega)).bind ?_
      rintro listSize rfl
      rcases Nat.lt_or_ge (4 + countAt 4 serverInit offset) (2 ^ 32) with hlt | hwraps
      · rw [Nat.mod_eq_of_lt hlt]
        rcases Nat.lt_or_ge serverInit.length (offset + (4 + countAt 4 serverInit offset)) with
          hbehind | hnext
        · exact (Refused.skipLists hsize lists (.inl hbehind)).mono fun _ => .inl
        · obtain ⟨list, hlength, hdrop⟩ := drop_eq_counted 4 serverInit offset (by omega)
          refine (ih hnext).mono ?_
          rintro next (hrefused | ⟨skipped, hcount, hshort, hskipped⟩)
          · exact .inl hrefused
          · refine .inr ⟨list :: skipped, by rw [List.length_cons, hcount],
              List.forall_mem_cons.mpr ⟨hlength ▸ countAt_lt 4 serverInit offset, hshort⟩, ?_⟩
            rw [hdrop, Nat.add_assoc, hskipped, List.map_cons, List.flatten_cons,
              List.append_assoc]
      · exact ((refused_of_wraps (by omega) hwraps).skipLists hsize lists).mono fun _ => .inl

/-- Lists that stand there are passed over. -/
theorem skipLists_of_counted (hsize : serverInit.length < 2 ^ 31) (skipped : List (List UInt8))
    (hdrop : serverInit.drop offset = (skipped.map (counted 4)).flatten ++ rest) :
    skipLists serverInit skipped.length offset =
      .ok (offset + (skipped.map (counted 4)).flatten.length) := by
  induction skipped generalizing offset with
  | nil => rfl
  | cons list skipped ih =>
      rw [List.map_cons, List.flatten_cons, List.append_assoc] at hdrop
      have hlength := congrArg List.length hdrop
      rw [List.length_drop, List.length_append, length_counted] at hlength
      obtain ⟨hcount, -, hnext⟩ := countAt_of_counted (by omega) hdrop
      have hwrap : (4 + list.length) % 2 ^ 32 = 4 + list.length := Nat.mod_eq_of_lt (by omega)
      rw [List.length_cons, skipLists, returnIf_of_not (by omega), loadU32BE,
        if_pos (by omega), hcount]
      change skipLists serverInit skipped.length (offset + (4 + list.length) % 2 ^ 32) = _
      rw [hwrap, ← Nat.add_assoc, ih hnext, List.map_cons, List.flatten_cons, List.length_append,
        length_counted]
      congr 1
      omega

end Skip

/-! ## The message -/

theorem searchable_algorithms : (∀ algorithm ∈ [kexCurve25519, kexCurve25519Libssh],
      Searchable algorithm) ∧ (∀ algorithm ∈ [hostKeyEd25519], Searchable algorithm) ∧
    ∀ algorithm ∈ [cipherChacha20Poly1305], Searchable algorithm := by
  decide

theorem contains_pair (list first second : List UInt8) : Contains list [first, second] ↔
    nameListContains list first = some true ∨ nameListContains list second = some true := by
  simp [Contains]

theorem contains_singleton (list algorithm : List UInt8) :
    Contains list [algorithm] ↔ nameListContains list algorithm = some true := by
  simp [Contains]

variable {serverInit : List UInt8}

/-- No load is outside of the message, and what passes the checks is a message with the algorithms
that are needed. -/
theorem attempts_parseServerInit (hsize : serverInit.length < 2 ^ 31) :
    Attempts Exit.Regular (parseServerInit serverInit) fun _ =>
      ∃ init : KexInit, serverInit = init.bytes ∧ init.Accepted := by
  obtain ⟨hkexSearchable, hhostKeySearchable, hcipherSearchable⟩ := searchable_algorithms
  refine (attempts_returnIf _ _).bind ?_
  intro _ hlong
  refine (attempts_loadByte (by omega)).bind ?_
  intro opcode hopcodeDrop
  refine (attempts_returnIf _ _).bind ?_
  intro _ hopcode
  refine (attempts_checkList _ _ hkexSearchable (by omega)).bind ?_
  rintro curr ⟨hcurr, kexList, hkexShort, hkex, hkexDrop⟩
  refine (attempts_checkList _ _ hhostKeySearchable hcurr).bind ?_
  rintro curr ⟨hcurr, hostKeyList, hhostKeyShort, hhostKey, hhostKeyDrop⟩
  refine (attempts_checkList _ _ hcipherSearchable hcurr).bind ?_
  rintro curr ⟨hcurr, clientCipherList, hclientShort, hclient, hclientDrop⟩
  refine (attempts_checkList _ _ hcipherSearchable hcurr).bind ?_
  rintro curr ⟨hcurr, serverCipherList, hserverShort, hserver, hserverDrop⟩
  refine (attempts_skipLists hsize 6 (by omega)).bind ?_
  intro curr hskipped
  refine (attempts_returnIf _ _).bind ?_
  intro _ hend
  refine (attempts_loadByte (by omega)).bind ?_
  intro follows hfollowsDrop
  refine (attempts_returnIf _ _).mono ?_
  intro _ hfollows
  rcases hskipped with (hbehind | hones) | ⟨otherLists, hcount, hshort, hskippedDrop⟩
  · omega
  · rw [getElem?_of_drop hfollowsDrop, Option.some.injEq] at hones
    subst hones
    exact absurd (by decide) hfollows
  · obtain rfl : opcode = msgKexInit := not_not.mp hopcode
    obtain rfl : follows = 0 := not_not.mp hfollows
    have hcookie : ((serverInit.drop 1).take 16).length = 16 :=
      List.length_take_of_le (by rw [List.length_drop]; omega)
    have hreserved : (serverInit.drop (curr + 1)).length = 4 := by
      rw [List.length_drop]
      omega
    refine ⟨⟨(serverInit.drop 1).take 16, kexList, hostKeyList, clientCipherList,
      serverCipherList, otherLists, serverInit.drop (curr + 1), hcookie, hcount, hreserved, ?_⟩,
      ?_, ?_⟩
    · exact List.forall_mem_cons.mpr ⟨hkexShort, List.forall_mem_cons.mpr ⟨hhostKeyShort,
        List.forall_mem_cons.mpr ⟨hclientShort, List.forall_mem_cons.mpr ⟨hserverShort, hshort⟩⟩⟩⟩
    · rw [hhostKeyDrop, hclientDrop, hserverDrop, hskippedDrop, hfollowsDrop] at hkexDrop
      have hsplit := List.take_append_drop 16 (serverInit.drop 1)
      rw [List.drop_drop, hkexDrop] at hsplit
      exact hopcodeDrop.trans (congrArg (msgKexInit :: ·) hsplit.symm)
    · exact ⟨(contains_pair _ _ _).mp hkex, (contains_singleton _ _).mp hhostKey,
        (contains_singleton _ _).mp hclient, (contains_singleton _ _).mp hserver⟩

/-- A message with the algorithms passes. -/
theorem parseServerInit_of_accepted (init : KexInit) (hsize : init.bytes.length < 2 ^ 31)
    (h : init.Accepted) : parseServerInit init.bytes = .ok () := by
  obtain ⟨hkexSearchable, hhostKeySearchable, hcipherSearchable⟩ := searchable_algorithms
  obtain ⟨hkexShort, hrest⟩ := List.forall_mem_cons.mp init.list_length
  obtain ⟨hhostKeyShort, hrest⟩ := List.forall_mem_cons.mp hrest
  obtain ⟨hclientShort, hrest⟩ := List.forall_mem_cons.mp hrest
  obtain ⟨hserverShort, -⟩ := List.forall_mem_cons.mp hrest
  have hkex : init.bytes.drop (1 + 16) = counted 4 init.kexList ++ (counted 4 init.hostKeyList ++
      (counted 4 init.clientCipherList ++ (counted 4 init.serverCipherList ++
        ((init.otherLists.map (counted 4)).flatten ++ 0 :: init.reserved)))) := by
    rw [KexInit.bytes, List.cons_append, Nat.add_comm, List.drop_succ_cons,
      List.drop_left' init.cookie_length]
  obtain ⟨-, -, hhostKey⟩ := countAt_of_counted hkexShort hkex
  obtain ⟨-, -, hclient⟩ := countAt_of_counted hhostKeyShort hhostKey
  obtain ⟨-, -, hserver⟩ := countAt_of_counted hclientShort hclient
  obtain ⟨-, -, hothers⟩ := countAt_of_counted hserverShort hserver
  have hfollows := drop_add_length hothers
  have hend := congrArg List.length hfollows
  rw [List.length_drop, List.length_cons, init.reserved_length] at hend
  have hopcode : loadByte init.bytes 0 = .ok msgKexInit := rfl
  have hkexStep := checkList_of_counted (-3) (-4) hkexSearchable hkex hkexShort (by omega)
    ((contains_pair _ _ _).mpr h.kex)
  have hhostKeyStep := checkList_of_counted (-5) (-6) hhostKeySearchable hhostKey hhostKeyShort
    (by omega) ((contains_singleton _ _).mpr h.hostKey)
  have hclientStep := checkList_of_counted (-7) (-8) hcipherSearchable hclient hclientShort
    (by omega) ((contains_singleton _ _).mpr h.clientCipher)
  have hserverStep := checkList_of_counted (-7) (-8) hcipherSearchable hserver hserverShort
    (by omega) ((contains_singleton _ _).mpr h.serverCipher)
  have hskipStep := skipLists_of_counted hsize init.otherLists hothers
  rw [init.otherLists_length] at hskipStep
  rw [parseServerInit, returnIf_of_not (by omega), ok_bind, hopcode, ok_bind,
    returnIf_of_not (not_not.mpr rfl), ok_bind, hkexStep, ok_bind, hhostKeyStep, ok_bind,
    hclientStep, ok_bind, hserverStep, ok_bind, hskipStep, ok_bind, returnIf_of_not (by omega),
    ok_bind, loadByte_of_drop hfollows, ok_bind, returnIf_of_not (not_not.mpr rfl)]

/-- The parser never loads outside of the message. It succeeds exactly on the KEXINIT messages whose
first four lists have the algorithms; no message with a size that wraps around is one of them. -/
theorem parseServerInit_iff (serverInit : List UInt8) (hsize : serverInit.length < 2 ^ 31) :
    parseServerInit serverInit ≠ .error .outside ∧
    (parseServerInit serverInit = .ok () ↔
      ∃ init : KexInit, serverInit = init.bytes ∧ init.Accepted) := by
  have hattempts := attempts_parseServerInit hsize
  refine ⟨?_, ?_, ?_⟩
  · rcases hattempts with ⟨exit, hregular, herror⟩ | ⟨_, hok, -⟩
    · rw [herror]
      exact fun heq => hregular (Except.error.inj heq)
    · rw [hok]
      exact nofun
  · intro hok
    rcases hattempts with ⟨exit, -, herror⟩ | ⟨_, -, hinit⟩
    · exact absurd (herror.symm.trans hok) nofun
    · exact hinit
  · rintro ⟨init, rfl, haccepted⟩
    exact parseServerInit_of_accepted init hsize haccepted

/-- A server that knows only what is needed. -/
def minimalInit : KexInit :=
  ⟨List.replicate 16 0, kexCurve25519, hostKeyEd25519, cipherChacha20Poly1305,
    cipherChacha20Poly1305, List.replicate 6 [], List.replicate 4 0, rfl, rfl, rfl, by decide⟩

theorem parseServerInit_minimalInit : parseServerInit minimalInit.bytes = .ok () :=
  (parseServerInit_iff minimalInit.bytes (by decide +kernel)).2.mpr
    ⟨minimalInit, rfl, .inl (by decide), by decide, by decide, by decide⟩

end Hc.Ssh
