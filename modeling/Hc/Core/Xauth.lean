import Hc.Foundation.Counted

/-!
# Entries of the X authority file

`xauth_readUint16` and `xauth_nextEntry` of `hc/core/hc/ix/xauth.c`. The file is mapped into memory,
and `none` is a load outside of it. An entry is a family and four counted byte strings: address,
number, name and data.
-/

namespace Hc

/-- The fields of `struct xauth` that `xauth_nextEntry` uses. -/
structure Xauth where
  mappedFile : List UInt8
  fileOffset : ℕ

namespace Xauth

/-- `struct xauth_entry`; the pointers are offsets in the mapped file. -/
structure Entry where
  name : ℕ
  data : ℕ
  nameLength : UInt16
  dataLength : UInt16

/-- The size of the file that `xauth_init` has found. -/
def fileSize (self : Xauth) : ℕ := self.mappedFile.length

/-- `xauth_readUint16`: the value, -1 behind the end of the file, and `*offset`. -/
def readUint16 (self : Xauth) (offset : ℕ) : Option (ℤ × ℕ) := do
  let newOffset := offset + 2
  if newOffset > self.fileSize then return (-1, offset)
  let high ← self.mappedFile[offset]?
  let low ← self.mappedFile[offset + 1]?
  return (((high.toNat <<< 8 + low.toNat : ℕ) : ℤ), newOffset)

/-- `xauth_nextEntry`: the status, `*self` and `*entry`. -/
def nextEntry (self : Xauth) (entry : Entry) : Option (ℤ × Xauth × Entry) := do
  -- Skip family.
  let offset := self.fileOffset + 2
  let (len, offset) ← self.readUint16 offset
  if len < 0 then return (-1, self, entry)
  let offset := offset + len.toNat
  let (len, offset) ← self.readUint16 offset
  if len < 0 then return (-2, self, entry)
  let offset := offset + len.toNat
  let (nameLength, offset) ← self.readUint16 offset
  if nameLength < 0 then return (-3, self, entry)
  let name := offset
  let offset := offset + nameLength.toNat
  let (dataLength, offset) ← self.readUint16 offset
  if dataLength < 0 then return (-4, self, entry)
  let data := offset
  let offset := offset + dataLength.toNat
  if offset > self.fileSize then return (-5, self, entry)
  return (0, { self with fileOffset := offset },
    ⟨name, data, UInt16.ofNat nameLength.toNat, UInt16.ofNat dataLength.toNat⟩)

/-! ## The format -/

/-- What a complete entry of the file holds. -/
structure Record where
  family : List UInt8
  address : List UInt8
  number : List UInt8
  name : List UInt8
  data : List UInt8
  family_length : family.length = 2
  address_length : address.length < 256 ^ 2
  number_length : number.length < 256 ^ 2
  name_length : name.length < 256 ^ 2
  data_length : data.length < 256 ^ 2

/-- The bytes of a complete entry. -/
def Record.bytes (record : Record) : List UInt8 :=
  record.family ++ (counted 2 record.address ++ (counted 2 record.number ++
    (counted 2 record.name ++ counted 2 record.data)))

/-- The entry points to the name and the data, which lie inside the file. -/
structure Entry.PointsTo (entry : Entry) (file : List UInt8) (record : Record) : Prop where
  nameLength : entry.nameLength.toNat = record.name.length
  dataLength : entry.dataLength.toNat = record.data.length
  name_le : entry.name + record.name.length ≤ file.length
  data_le : entry.data + record.data.length ≤ file.length
  name : (file.drop entry.name).take record.name.length = record.name
  data : (file.drop entry.data).take record.data.length = record.data

theorem Record.length_bytes (record : Record) : record.bytes.length = 10 + record.address.length +
    record.number.length + record.name.length + record.data.length := by
  simp only [bytes, List.length_append, length_counted, record.family_length]
  omega

/-! ## One call -/

variable {self : Xauth} {offset : ℕ}

theorem readUint16_of_le (h : offset + 2 ≤ self.fileSize) :
    self.readUint16 offset = some ((countAt 2 self.mappedFile offset : ℤ), offset + 2) := by
  have hhigh : offset < self.mappedFile.length := Nat.lt_of_lt_of_le (by omega) h
  have hlow : offset + 1 < self.mappedFile.length := Nat.lt_of_lt_of_le (by omega) h
  have hcount : countAt 2 self.mappedFile offset =
      (self.mappedFile[offset].toNat <<< 8 + self.mappedFile[offset + 1].toNat : ℕ) := by
    rw [countAt, List.drop_eq_getElem_cons hhigh, List.drop_eq_getElem_cons hlow,
      Nat.shiftLeft_eq]
    simp only [List.take_succ_cons, List.take_zero, beNat, List.reverse_cons, List.reverse_nil,
      List.nil_append, List.cons_append, leNat_cons, leNat_nil]
    omega
  rw [readUint16, if_neg (by omega), List.getElem?_eq_getElem hhigh,
    List.getElem?_eq_getElem hlow, hcount]
  rfl

theorem readUint16_of_lt (h : self.fileSize < offset + 2) :
    self.readUint16 offset = some (-1, offset) := by
  rw [readUint16, if_pos h]
  rfl

/-- What a counted string that is there is read as. -/
theorem readUint16_of_counted {bytes rest : List UInt8} (hshort : bytes.length < 256 ^ 2)
    (h : self.mappedFile.drop offset = counted 2 bytes ++ rest) :
    self.readUint16 offset = some ((bytes.length : ℤ), offset + 2) := by
  have hle : offset + (counted 2 bytes).length ≤ self.mappedFile.length :=
    offset_add_length_le h (by simp [← List.length_pos_iff])
  rw [length_counted] at hle
  rw [readUint16_of_le (by unfold fileSize; omega), (countAt_of_counted hshort h).1]

/-- The rest of the file starts with a complete entry. -/
def StartsWith (self : Xauth) (record : Record) : Prop :=
  ∃ rest, self.mappedFile.drop self.fileOffset = record.bytes ++ rest

/-- Where the name and the data of an entry at an offset of the file are. -/
def Record.entryAt (record : Record) (offset : ℕ) : Entry where
  name := offset + 8 + record.address.length + record.number.length
  data := offset + 10 + record.address.length + record.number.length + record.name.length
  nameLength := UInt16.ofNat record.name.length
  dataLength := UInt16.ofNat record.data.length

section Complete

variable {record : Record} (h : self.StartsWith record)
include h

theorem StartsWith.le : self.fileOffset + record.bytes.length ≤ self.mappedFile.length := by
  obtain ⟨rest, hrest⟩ := h
  exact offset_add_length_le hrest (by simp [← List.length_pos_iff, record.length_bytes])

/-- The counted strings of a complete entry, each at its offset. -/
theorem StartsWith.drops :
    ∃ rest numberRest nameRest dataRest,
      self.mappedFile.drop (self.fileOffset + 2) = counted 2 record.address ++ numberRest ∧
      self.mappedFile.drop (self.fileOffset + 2 + 2 + record.address.length) =
        counted 2 record.number ++ nameRest ∧
      self.mappedFile.drop
          (self.fileOffset + 2 + 2 + record.address.length + 2 + record.number.length) =
        counted 2 record.name ++ dataRest ∧
      self.mappedFile.drop (self.fileOffset + 2 + 2 + record.address.length + 2 +
          record.number.length + 2 + record.name.length) = counted 2 record.data ++ rest := by
  obtain ⟨rest, hrest⟩ := h
  rw [Record.bytes, List.append_assoc, List.append_assoc, List.append_assoc,
    List.append_assoc] at hrest
  have haddress := drop_add_length hrest
  rw [record.family_length] at haddress
  obtain ⟨-, -, hnumber⟩ := countAt_of_counted record.address_length haddress
  obtain ⟨-, -, hname⟩ := countAt_of_counted record.number_length hnumber
  obtain ⟨-, -, hdata⟩ := countAt_of_counted record.name_length hname
  exact ⟨_, _, _, _, haddress, hnumber, hname, hdata⟩

theorem StartsWith.pointsTo : (record.entryAt self.fileOffset).PointsTo self.mappedFile record := by
  obtain ⟨rest, -, -, dataRest, -, -, hname, hdata⟩ := h.drops
  have hle := h.le
  have hnameBytes := (countAt_of_counted record.name_length hname).2.1
  have hdataBytes := (countAt_of_counted record.data_length hdata).2.1
  have hnameOffset : (record.entryAt self.fileOffset).name =
      self.fileOffset + 2 + 2 + record.address.length + 2 + record.number.length + 2 := by
    simp only [Record.entryAt]
    omega
  have hdataOffset : (record.entryAt self.fileOffset).data = self.fileOffset + 2 + 2 +
      record.address.length + 2 + record.number.length + 2 + record.name.length + 2 := by
    simp only [Record.entryAt]
    omega
  rw [record.length_bytes] at hle
  refine ⟨?_, ?_, by omega, by omega, ?_, ?_⟩
  · exact Nat.mod_eq_of_lt record.name_length
  · exact Nat.mod_eq_of_lt record.data_length
  · rw [hnameOffset, hnameBytes, List.take_left]
  · rw [hdataOffset, hdataBytes, List.take_left]

/-- A complete entry is returned, and the offset is behind it. -/
theorem nextEntry_of_startsWith (entry : Entry) : self.nextEntry entry =
    some (0, { self with fileOffset := self.fileOffset + record.bytes.length },
      record.entryAt self.fileOffset) := by
  obtain ⟨rest, numberRest, nameRest, dataRest, haddress, hnumber, hname, hdata⟩ := h.drops
  have hle := h.le
  rw [record.length_bytes] at hle ⊢
  simp only [nextEntry, readUint16_of_counted record.address_length haddress,
    readUint16_of_counted record.number_length hnumber,
    readUint16_of_counted record.name_length hname,
    readUint16_of_counted record.data_length hdata, Option.bind_eq_bind, Option.bind_some,
    Int.toNat_natCast, fileSize]
  rw [if_neg (by omega), if_neg (by omega), if_neg (by omega), if_neg (by omega)]
  refine (if_neg (by omega)).trans ?_
  simp only [Record.entryAt, Option.pure_def, Option.some.injEq, Prod.mk.injEq, mk.injEq,
    Entry.mk.injEq, true_and, and_true]
  omega

end Complete

/-- Four lengths that stay inside of the file make a complete entry. -/
theorem startsWith_of_le {address number name data : ℕ}
    (haddress : address = self.fileOffset + 2)
    (hnumber : number = address + 2 + countAt 2 self.mappedFile address)
    (hname : name = number + 2 + countAt 2 self.mappedFile number)
    (hdata : data = name + 2 + countAt 2 self.mappedFile name)
    (hle : data + 2 + countAt 2 self.mappedFile data ≤ self.mappedFile.length) :
    ∃ record, self.StartsWith record := by
  obtain ⟨addressBytes, haddressLength, haddressDrop⟩ :=
    drop_eq_counted 2 self.mappedFile address (by omega)
  obtain ⟨numberBytes, hnumberLength, hnumberDrop⟩ :=
    drop_eq_counted 2 self.mappedFile number (by omega)
  obtain ⟨nameBytes, hnameLength, hnameDrop⟩ :=
    drop_eq_counted 2 self.mappedFile name (by omega)
  obtain ⟨dataBytes, hdataLength, hdataDrop⟩ :=
    drop_eq_counted 2 self.mappedFile data hle
  rw [← hnumber, hnumberDrop, ← hname, hnameDrop, ← hdata, hdataDrop, haddress] at haddressDrop
  have hfamily : ((self.mappedFile.drop self.fileOffset).take 2).length = 2 :=
    List.length_take_of_le (by rw [List.length_drop]; omega)
  refine ⟨⟨(self.mappedFile.drop self.fileOffset).take 2, addressBytes, numberBytes, nameBytes,
    dataBytes, hfamily, haddressLength ▸ countAt_lt _ _ _, hnumberLength ▸ countAt_lt _ _ _,
    hnameLength ▸ countAt_lt _ _ _, hdataLength ▸ countAt_lt _ _ _⟩,
    self.mappedFile.drop (data + 2 + countAt 2 self.mappedFile data), ?_⟩
  simp only [Record.bytes, List.append_assoc]
  rw [← haddressDrop, ← List.drop_drop, List.take_append_drop]

/-- Without a complete entry a negative status is returned, and nothing is changed. -/
theorem nextEntry_of_not_startsWith (entry : Entry) (h : ∀ record, ¬ self.StartsWith record) :
    ∃ status < 0, self.nextEntry entry = some (status, self, entry) := by
  unfold nextEntry
  generalize haddress : self.fileOffset + 2 = address
  rcases Nat.lt_or_ge self.fileSize (address + 2) with hlt | hge
  · exact ⟨-1, by decide, by simp only [readUint16_of_lt hlt]; rfl⟩
  simp only [readUint16_of_le hge, Option.bind_eq_bind, Option.bind_some, Int.toNat_natCast]
  rw [if_neg (by omega)]
  generalize hnumber : address + 2 + countAt 2 self.mappedFile address = number
  rcases Nat.lt_or_ge self.fileSize (number + 2) with hlt | hge
  · exact ⟨-2, by decide, by simp only [readUint16_of_lt hlt]; rfl⟩
  simp only [readUint16_of_le hge, Option.bind_some, Int.toNat_natCast]
  rw [if_neg (by omega)]
  generalize hname : number + 2 + countAt 2 self.mappedFile number = name
  rcases Nat.lt_or_ge self.fileSize (name + 2) with hlt | hge
  · exact ⟨-3, by decide, by simp only [readUint16_of_lt hlt]; rfl⟩
  simp only [readUint16_of_le hge, Option.bind_some, Int.toNat_natCast]
  rw [if_neg (by omega)]
  generalize hdata : name + 2 + countAt 2 self.mappedFile name = data
  rcases Nat.lt_or_ge self.fileSize (data + 2) with hlt | hge
  · exact ⟨-4, by decide, by simp only [readUint16_of_lt hlt]; rfl⟩
  simp only [readUint16_of_le hge, Option.bind_some, Int.toNat_natCast]
  rw [if_neg (by omega)]
  rcases Nat.lt_or_ge self.fileSize (data + 2 + countAt 2 self.mappedFile data) with hlt | hge
  · exact ⟨-5, by decide, if_pos hlt⟩
  · obtain ⟨record, hrecord⟩ :=
      startsWith_of_le haddress.symm hnumber.symm hname.symm hdata.symm hge
    exact absurd hrecord (h record)

/-! ## Repeated calls -/

/-- `xauth_nextEntry` called again and again: the status of the last call, `*self` and `*entry`. -/
def calls (self : Xauth) (entry : Entry) : ℕ → Option (ℤ × Xauth × Entry)
  | 0 => some (0, self, entry)
  | n + 1 => do
    let (_, self, entry) ← calls self entry n
    self.nextEntry entry

/-- The bytes of entries behind one another. -/
def recordsBytes (records : List Record) : List UInt8 := (records.map Record.bytes).flatten

/-- The file is these entries, and a rest that does not start with a complete one. -/
structure Holds (file : List UInt8) (records : List Record) (rest : List UInt8) : Prop where
  file_eq : file = recordsBytes records ++ rest
  incomplete : ∀ (record : Record) (more : List UInt8), rest ≠ record.bytes ++ more

theorem recordsBytes_cons (record : Record) (records : List Record) :
    recordsBytes (record :: records) = record.bytes ++ recordsBytes records := rfl

/-- Every file is entries and such a rest. -/
theorem exists_holds (file : List UInt8) : ∃ records rest, Holds file records rest := by
  by_cases h : ∃ (record : Record) (more : List UInt8), file = record.bytes ++ more
  · obtain ⟨record, more, rfl⟩ := h
    have hshorter : more.length < (record.bytes ++ more).length := by
      rw [List.length_append, record.length_bytes]
      omega
    obtain ⟨records, rest, hholds⟩ := exists_holds more
    refine ⟨record :: records, rest, ?_, hholds.incomplete⟩
    rw [recordsBytes_cons, List.append_assoc, ← hholds.file_eq]
  · exact ⟨[], file, rfl, fun record more heq => h ⟨record, more, heq⟩⟩
termination_by file.length

section Run

variable {file rest : List UInt8} {records : List Record} (h : Holds file records rest)
include h

/-- The next entry stands behind the ones that were returned. -/
theorem Holds.startsWith {n : ℕ} {record : Record} (hrecord : records[n]? = some record) :
    (⟨file, (recordsBytes (records.take n)).length⟩ : Xauth).StartsWith record ∧
      (recordsBytes (records.take (n + 1))).length =
        (recordsBytes (records.take n)).length + record.bytes.length := by
  obtain ⟨hlt, rfl⟩ := List.getElem?_eq_some_iff.mp hrecord
  have hsplit : recordsBytes records = recordsBytes (records.take n) ++
      (records[n].bytes ++ recordsBytes (records.drop (n + 1))) := by
    rw [← recordsBytes_cons, ← List.drop_eq_getElem_cons hlt, recordsBytes, recordsBytes,
      recordsBytes, ← List.flatten_append, ← List.map_append, List.take_append_drop]
  constructor
  · refine ⟨recordsBytes (records.drop (n + 1)) ++ rest, ?_⟩
    change file.drop _ = _
    rw [h.file_eq, hsplit, List.append_assoc, List.drop_left, List.append_assoc]
  · rw [List.take_succ_eq_append_getElem hlt]
    simp only [recordsBytes, List.map_append, List.flatten_append, List.length_append,
      List.map_cons, List.map_nil, List.flatten_cons, List.flatten_nil, List.append_nil]

/-- Behind the last entry there is no complete one. -/
theorem Holds.not_startsWith (record : Record) :
    ¬ (⟨file, (recordsBytes records).length⟩ : Xauth).StartsWith record := by
  rintro ⟨more, hmore⟩
  change file.drop _ = _ at hmore
  rw [h.file_eq, List.drop_left] at hmore
  exact h.incomplete record more hmore

theorem Holds.calls_of_le (entry : Entry) {n : ℕ} (hn : n ≤ records.length) :
    ∃ entry', calls ⟨file, 0⟩ entry n =
      some (0, ⟨file, (recordsBytes (records.take n)).length⟩, entry') := by
  induction n with
  | zero => exact ⟨entry, rfl⟩
  | succ n ih =>
      obtain ⟨entry', hcalls⟩ := ih (by omega)
      obtain ⟨hstarts, hlength⟩ := h.startsWith (List.getElem?_eq_getElem hn)
      rw [calls, hcalls, hlength]
      exact ⟨_, nextEntry_of_startsWith hstarts entry'⟩

theorem Holds.calls_of_ge (entry : Entry) {n : ℕ} (hn : records.length ≤ n) :
    ∃ status entry', calls ⟨file, 0⟩ entry n =
      some (status, ⟨file, (recordsBytes records).length⟩, entry') := by
  induction n, hn using Nat.le_induction with
  | base =>
      obtain ⟨entry', hcalls⟩ := h.calls_of_le entry (Nat.le_refl _)
      rw [List.take_length] at hcalls
      exact ⟨0, entry', hcalls⟩
  | succ n hn ih =>
      obtain ⟨status, entry', hcalls⟩ := ih
      obtain ⟨status', -, hnext⟩ := nextEntry_of_not_startsWith entry' h.not_startsWith
      refine ⟨status', entry', ?_⟩
      rw [calls, hcalls]
      exact hnext

end Run

/-- A call returns the complete entry that the rest of the file starts with, and advances the offset
by its size; if there is none, it fails and changes nothing. No call loads outside of the file.
Repeated calls return the entries of the file one after the other. -/
theorem nextEntry_returns_entries (file : List UInt8) :
    (∀ (self : Xauth) (entry : Entry), self.mappedFile = file →
      (∀ record, self.StartsWith record →
        ∃ entry', self.nextEntry entry =
            some (0, ⟨file, self.fileOffset + record.bytes.length⟩, entry') ∧
          entry'.PointsTo file record) ∧
      ((∀ record, ¬ self.StartsWith record) →
        ∃ status < 0, self.nextEntry entry = some (status, self, entry))) ∧
    ∃ records rest, Holds file records rest ∧
      ∀ (entry : Entry) (n : ℕ),
        (∀ record, records[n]? = some record →
          ∃ entry', calls ⟨file, 0⟩ entry (n + 1) =
              some (0, ⟨file, (recordsBytes (records.take (n + 1))).length⟩, entry') ∧
            entry'.PointsTo file record) ∧
        (records.length ≤ n →
          ∃ status < 0, ∃ before self entry',
            calls ⟨file, 0⟩ entry n = some (before, self, entry') ∧
            calls ⟨file, 0⟩ entry (n + 1) = some (status, self, entry')) := by
  refine ⟨?_, ?_⟩
  · rintro self entry rfl
    refine ⟨fun record hstarts => ?_, nextEntry_of_not_startsWith entry⟩
    exact ⟨_, nextEntry_of_startsWith hstarts entry, hstarts.pointsTo⟩
  · obtain ⟨records, rest, h⟩ := exists_holds file
    refine ⟨records, rest, h, ?_⟩
    intro entry n
    refine ⟨?_, ?_⟩
    · intro record hrecord
      obtain ⟨hlt, -⟩ := List.getElem?_eq_some_iff.mp hrecord
      obtain ⟨before, hcalls⟩ := h.calls_of_le entry hlt.le
      obtain ⟨hstarts, hlength⟩ := h.startsWith hrecord
      refine ⟨_, ?_, hstarts.pointsTo⟩
      rw [calls, hcalls, hlength]
      exact nextEntry_of_startsWith hstarts before
    · intro hn
      obtain ⟨before, entry', hcalls⟩ := h.calls_of_ge entry hn
      obtain ⟨status, hneg, hnext⟩ := nextEntry_of_not_startsWith entry' h.not_startsWith
      refine ⟨status, hneg, before, _, entry', hcalls, ?_⟩
      rw [calls, hcalls]
      exact hnext

/-- An entry with the name `B` and two bytes of data. -/
def recordB : Record :=
  ⟨[1, 0], [65], [], [66], [67, 68], rfl, by decide, by decide, by decide, by decide⟩

/-- The entry is returned though the next one is cut off. -/
theorem nextEntry_returns_recordB :
    ∃ entry', (⟨recordB.bytes ++ [1], 0⟩ : Xauth).nextEntry ⟨0, 0, 0, 0⟩ =
        some (0, ⟨recordB.bytes ++ [1], 14⟩, entry') ∧
      entry'.PointsTo (recordB.bytes ++ [1]) recordB :=
  ((nextEntry_returns_entries (recordB.bytes ++ [1])).1 ⟨recordB.bytes ++ [1], 0⟩ ⟨0, 0, 0, 0⟩
    rfl).1 recordB ⟨[1], rfl⟩

end Xauth

end Hc
