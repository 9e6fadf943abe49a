import Mathlib.Data.List.TakeWhile
import Hc.Router.TelnetServerSockets

/-!
# What the telnet client reads

The sends of `telnetServer_onPtMasterFd`, read by the telnet rules. Whatever the shell writes and
however it is cut into reads, the client gets the same bytes as data, and no commands.
-/

namespace Hc.TelnetServer

/-! ## The client -/

/-- What a client reads: a byte of data, or a command. -/
inductive ClientItem where
  | data (b : UInt8)
  | command (b : UInt8)
  deriving DecidableEq, Repr

/-- The telnet rules: IAC IAC is the byte 255 and IAC before another byte is a command, CR NUL is
CR, CR LF is LF, and any other byte is itself. The byte that follows a last IAC is not there yet. -/
def clientDecode : List UInt8 → List ClientItem
  | [] => []
  | [b] => if b = telnetIAC then [] else [.data b]
  | b :: next :: rest =>
    if b = telnetIAC then
      if next = telnetIAC then .data telnetIAC :: clientDecode rest
      else .command next :: clientDecode rest
    else if b = carriageReturn ∧ next = 0 then .data carriageReturn :: clientDecode rest
    else if b = carriageReturn ∧ next = lineFeed then .data lineFeed :: clientDecode rest
    else .data b :: clientDecode (next :: rest)

theorem clientDecode_cons {b : UInt8} (rest : List UInt8) (hiac : b ≠ telnetIAC)
    (hcr : b ≠ carriageReturn) : clientDecode (b :: rest) = .data b :: clientDecode rest := by
  cases rest with
  | nil => simp [clientDecode, hiac]
  | cons next rest => rw [clientDecode, if_neg hiac, if_neg fun h => hcr h.1,
      if_neg fun h => hcr h.1]

/-- As long as the whole stream has no command, the part of it that has arrived has none. -/
theorem command_not_mem_of_append (received rest : List UInt8) (b : UInt8)
    (h : .command b ∉ clientDecode (received ++ rest)) : .command b ∉ clientDecode received := by
  fun_induction clientDecode received with
  | case1 => exact List.not_mem_nil
  | case2 => exact List.not_mem_nil
  | case3 => simp
  | case4 more ih =>
      rw [List.cons_append, List.cons_append, clientDecode, if_pos rfl, if_pos rfl] at h
      simpa using ih (List.not_mem_of_not_mem_cons h)
  | case5 next more hnext ih =>
      rw [List.cons_append, List.cons_append, clientDecode, if_pos rfl, if_neg hnext] at h
      obtain ⟨hne, hmore⟩ := List.ne_and_not_mem_of_not_mem_cons h
      exact List.not_mem_cons_of_ne_of_not_mem hne (ih hmore)
  | case6 c next more hiac hnul ih =>
      rw [List.cons_append, List.cons_append, clientDecode, if_neg hiac, if_pos hnul] at h
      simpa using ih (List.not_mem_of_not_mem_cons h)
  | case7 c next more hiac hnul hlf ih =>
      rw [List.cons_append, List.cons_append, clientDecode, if_neg hiac, if_neg hnul,
        if_pos hlf] at h
      simpa using ih (List.not_mem_of_not_mem_cons h)
  | case8 c next more hiac hnul hlf ih =>
      rw [List.cons_append, List.cons_append, clientDecode, if_neg hiac, if_neg hnul,
        if_neg hlf] at h
      simpa using ih (List.not_mem_of_not_mem_cons h)

/-! ## The server -/

/-- What is sent for a byte of the shell. -/
def outputByte (b : UInt8) : List UInt8 := if isPlainOutput b then [b] else escapeOutput b

theorem clientDecode_outputByte (b : UInt8) (rest : List UInt8) :
    clientDecode (outputByte b ++ rest) = .data b :: clientDecode rest := by
  unfold outputByte
  split
  next hplain =>
    simp only [isPlainOutput, Bool.and_eq_true, bne_iff_ne, ne_eq] at hplain
    exact clientDecode_cons rest hplain.2 hplain.1.1
  next hspecial =>
    simp only [isPlainOutput, Bool.and_eq_true, bne_iff_ne, ne_eq, not_and_or, not_not]
      at hspecial
    rcases hspecial with (rfl | rfl) | rfl
    · rfl
    · rfl
    · rfl

/-- The bytes that are sent are read as the bytes of the shell. -/
theorem clientDecode_flatMap (bytes : List UInt8) :
    clientDecode (bytes.flatMap outputByte) = bytes.map .data := by
  induction bytes with
  | nil => rfl
  | cons b bytes ih => rw [List.flatMap_cons, clientDecode_outputByte, ih, List.map_cons]

theorem length_escapeOutput (b : UInt8) : (escapeOutput b).length = 2 := by
  unfold escapeOutput
  split_ifs <;> rfl

theorem flatMap_outputByte_of_plain {bytes : List UInt8} (h : ∀ b ∈ bytes, isPlainOutput b) :
    bytes.flatMap outputByte = bytes := by
  induction bytes with
  | nil => rfl
  | cons b bytes ih =>
      obtain ⟨hb, hbytes⟩ := List.forall_mem_cons.mp h
      rw [List.flatMap_cons, ih hbytes, outputByte, if_pos hb, List.singleton_append]

/-- When no send fails, the sends are the bytes of the shell from `baseI` on. -/
theorem flatten_ptMasterLoop {buffer : List UInt8} {sendto : ℕ → ℤ} {fuel baseI : ℕ}
    {sends : List (List UInt8)} (hfuel : buffer.length < baseI + fuel)
    (h : (ptMasterLoop buffer sendto fuel baseI sends).2 = false) :
    (ptMasterLoop buffer sendto fuel baseI sends).1.flatten =
      sends.flatten ++ (buffer.drop baseI).flatMap outputByte := by
  induction fuel generalizing baseI sends with
  | zero =>
      rw [List.drop_of_length_le (by omega), List.flatMap_nil, List.append_nil]
      rfl
  | succ fuel ih =>
      have hplain : ∀ b ∈ (buffer.drop baseI).takeWhile isPlainOutput, isPlainOutput b :=
        fun b => List.mem_takeWhile_imp
      have hnext := drop_eq_takeWhile_or isPlainOutput buffer baseI
      unfold ptMasterLoop at h ⊢
      generalize (buffer.drop baseI).takeWhile isPlainOutput = plain at h hplain hnext ⊢
      have hsent : (if plain.length > 0 then sends ++ [plain] else sends).flatten =
          sends.flatten ++ plain.flatMap outputByte := by
        rw [flatMap_outputByte_of_plain hplain]
        split
        next => simp
        next hempty => simp [List.eq_nil_of_length_eq_zero (Nat.eq_zero_of_not_pos hempty)]
      dsimp only at h hnext ⊢
      generalize (if plain.length > 0 then sends ++ [plain] else sends) = sends' at h hsent ⊢
      split at h
      next => exact absurd h Bool.noConfusion
      next hcomplete =>
        rw [if_neg hcomplete]
        rcases hnext with ⟨hend, hdrop⟩ | ⟨hmore, hspecial, hdrop⟩
        · rw [if_pos hend, hdrop, hsent]
        · rw [if_neg (by omega)] at h ⊢
          split at h
          next => exact absurd h Bool.noConfusion
          next hcomplete =>
            have hbyte : outputByte (byteAt buffer (baseI + plain.length)) =
                escapeOutput (byteAt buffer (baseI + plain.length)) := by
              rw [outputByte, if_neg (by rw [hspecial]; exact Bool.false_ne_true)]
            rw [if_neg hcomplete, ih (by omega) h, hdrop, List.flatMap_append, List.flatMap_cons,
              hbyte, List.flatten_append, hsent, List.flatten_singleton, List.append_assoc,
              List.append_assoc]

/-- A send that fails was not complete. -/
theorem ptMasterLoop_failed {buffer : List UInt8} {sendto : ℕ → ℤ} {fuel baseI : ℕ}
    {sends : List (List UInt8)} (h : (ptMasterLoop buffer sendto fuel baseI sends).2 = true) :
    ∃ k data, (ptMasterLoop buffer sendto fuel baseI sends).1[k]? = some data ∧
      sendto k ≠ data.length := by
  induction fuel generalizing baseI sends with
  | zero => exact absurd h Bool.false_ne_true
  | succ fuel ih =>
      unfold ptMasterLoop at h ⊢
      generalize (buffer.drop baseI).takeWhile isPlainOutput = plain at h ⊢
      dsimp only at h ⊢
      generalize (if plain.length > 0 then sends ++ [plain] else sends) = sends' at h ⊢
      split at h
      next hplain =>
        rw [if_pos hplain]
        exact ⟨sends.length, plain, List.getElem?_concat_length, hplain.2⟩
      next hplain =>
        rw [if_neg hplain]
        split at h
        next => exact absurd h Bool.false_ne_true
        next hmore =>
          rw [if_neg hmore]
          split at h
          next hbytes =>
            rw [if_pos hbytes]
            refine ⟨sends'.length, _, List.getElem?_concat_length, ?_⟩
            rwa [length_escapeOutput]
          next hbytes =>
            rw [if_neg hbytes]
            exact ih h

/-! ## Reads from the pty -/

/-- The bytes of one read, and the results of the sends that it leads to in order. -/
structure PtMasterRead where
  buffer : List UInt8
  sendto : ℕ → ℤ

namespace System

/-- What `telnetServer_onPtMasterFd` hands to `sys_sendto`. -/
def ptMasterSends (system : System) (read : PtMasterRead) : List (List UInt8) :=
  if system.clientFd < 0 then []
  else (ptMasterLoop read.buffer read.sendto (read.buffer.length + 1) 0 []).1

/-- The bytes that reach the client over some reads. -/
def output (system : System) : List PtMasterRead → List UInt8
  | [] => []
  | read :: reads =>
    (system.ptMasterSends read).flatten ++
      (system.onPtMasterFd read.buffer read.sendto).output reads

/-- Every send of a read takes all its bytes. -/
def SendsComplete (system : System) (read : PtMasterRead) : Prop :=
  ∀ k data, (system.ptMasterSends read)[k]? = some data → read.sendto k = data.length

/-- When its sends are complete, a read keeps the client and sends the bytes for it. -/
theorem onPtMasterFd_of_complete {system : System} {read : PtMasterRead}
    (hclient : 0 ≤ system.clientFd) (hcomplete : system.SendsComplete read) :
    system.onPtMasterFd read.buffer read.sendto = system ∧
      (system.ptMasterSends read).flatten = read.buffer.flatMap outputByte := by
  have hclient : ¬ system.clientFd < 0 := by omega
  have hsent : (ptMasterLoop read.buffer read.sendto (read.buffer.length + 1) 0 []).2 = false := by
    by_contra hfailed
    obtain ⟨k, data, hdata, hne⟩ := ptMasterLoop_failed (Bool.eq_true_of_not_eq_false hfailed)
    exact hne (hcomplete k data (by rwa [ptMasterSends, if_neg hclient]))
  refine ⟨?_, ?_⟩
  · rw [onPtMasterFd, if_neg hclient, hsent, if_neg Bool.false_ne_true]
  · rw [ptMasterSends, if_neg hclient, flatten_ptMasterLoop (by omega) hsent, List.drop_zero,
      List.flatten_nil, List.nil_append]

theorem output_eq {system : System} {reads : List PtMasterRead} (hclient : 0 ≤ system.clientFd)
    (hcomplete : ∀ read ∈ reads, system.SendsComplete read) :
    system.output reads = (reads.flatMap PtMasterRead.buffer).flatMap outputByte := by
  induction reads with
  | nil => rfl
  | cons read reads ih =>
      obtain ⟨hread, hreads⟩ := List.forall_mem_cons.mp hcomplete
      obtain ⟨hsystem, hsends⟩ := onPtMasterFd_of_complete hclient hread
      rw [output, hsystem, hsends, ih hreads, List.flatMap_cons, List.flatMap_append]

/-- However the output of the shell is cut into reads, the client reads it as it is and as data. At
no time is a part of it a command. -/
theorem output_decodes (system : System) (reads : List PtMasterRead)
    (hclient : 0 ≤ system.clientFd) (hcomplete : ∀ read ∈ reads, system.SendsComplete read) :
    clientDecode (system.output reads) = (reads.flatMap PtMasterRead.buffer).map .data ∧
    ∀ received, received <+: system.output reads →
      ∀ b, ClientItem.command b ∉ clientDecode received := by
  have hdecoded : clientDecode (system.output reads) =
      (reads.flatMap PtMasterRead.buffer).map .data := by
    rw [output_eq hclient hcomplete, clientDecode_flatMap]
  refine ⟨hdecoded, ?_⟩
  rintro received ⟨rest, hrest⟩ b
  apply command_not_mem_of_append received rest b
  rw [hrest, hdecoded]
  simp

/-- A CR at the end of a read and an LF at the start of the next one. -/
theorem output_decodes_across_reads :
    clientDecode ((⟨4, List.Vector.replicate 12 0, {4}⟩ : System).output
      [⟨[65, 13], fun k => k + 1⟩, ⟨[10], fun _ => 2⟩]) = [.data 65, .data 13, .data 10] :=
  (output_decodes ⟨4, List.Vector.replicate 12 0, {4}⟩ _ (by decide) (by
    intro read hread k data hdata
    rcases List.mem_pair.mp hread with rfl | rfl
    · rcases k with _ | _ | k
      · exact congrArg (fun d : List UInt8 => (d.length : ℤ)) (Option.some.inj hdata)
      · exact congrArg (fun d : List UInt8 => (d.length : ℤ)) (Option.some.inj hdata)
      · exact nomatch hdata
    · rcases k with _ | k
      · exact congrArg (fun d : List UInt8 => (d.length : ℤ)) (Option.some.inj hdata)
      · exact nomatch hdata)).1

end System

end Hc.TelnetServer
