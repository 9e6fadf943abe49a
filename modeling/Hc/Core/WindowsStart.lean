import Mathlib.Data.List.TakeWhile
import Hc.Core.Util
import Hc.Foundation.Bytes

/-!
# Command lines on Windows

`_start_parseCmdLine` of `hc/core/hc/windows/_start.c`, which rewrites the command line in its
buffer, and the loop of `_start` that finds the arguments in the result. `none` is an access outside
of the buffer, or a store to a character that was not read yet.
-/

namespace Hc.WindowsStart

abbrev space : UInt8 := 32
abbrev doubleQuote : UInt8 := 34
abbrev singleQuote : UInt8 := 39

/-- `*dst = c`, when the characters from `unread` on are still to be read. -/
def store (buffer : List UInt8) (unread dst : ℕ) (c : UInt8) : Option (List UInt8) :=
  if dst < unread ∧ dst < buffer.length then some (buffer.set dst c) else none

/-- `for (; cur[1] == ' '; ++cur);`, with a bound on the number of iterations. -/
def skipSpaces (buffer : List UInt8) : ℕ → ℕ → Option ℕ
  | 0, _ => none
  | fuel + 1, cur => do
    let next ← buffer[cur + 1]?
    if next = space then skipSpaces buffer fuel (cur + 1) else return cur

/-- The variables of `_start_parseCmdLine`. There is a NUL in the buffer for every argument, so that
`argc` fits into its type as the size of the buffer does. -/
structure Parser where
  buffer : List UInt8
  cur : ℕ
  dst : ℕ
  currentQuote : UInt8
  argc : ℕ

/-- The loop of `_start_parseCmdLine`, with a bound on the number of iterations. -/
def parseLoop : ℕ → Parser → Option Parser
  | 0, _ => none
  | fuel + 1, p => do
    let c ← p.buffer[p.cur]?
    if c = 0 then return p
    if c = p.currentQuote then
      parseLoop fuel { p with cur := p.cur + 1, currentQuote := 0 }
    else if p.currentQuote = 0 ∧ c = space then
      let buffer ← store p.buffer (p.cur + 1) p.dst 0
      let cur ← skipSpaces buffer buffer.length p.cur
      parseLoop fuel { p with buffer, cur := cur + 1, dst := p.dst + 1, argc := p.argc + 1 }
    else if p.currentQuote = 0 ∧ (c = doubleQuote ∨ c = singleQuote) then
      parseLoop fuel { p with cur := p.cur + 1, currentQuote := c }
    else
      let buffer ← store p.buffer (p.cur + 1) p.dst c
      parseLoop fuel { p with buffer, cur := p.cur + 1, dst := p.dst + 1 }

/-- `_start_parseCmdLine`: the result, and the buffer. Each iteration of the loop reads on, so that
there are no more of them than characters. -/
def parseCmdLine (cmdLine : List UInt8) : Option (ℕ × List UInt8) := do
  let p ← parseLoop cmdLine.length ⟨cmdLine, 0, 0, 0, 1⟩
  if p.currentQuote ≠ 0 then return (0, p.buffer)
  let buffer ← store p.buffer (p.cur + 1) p.dst 0
  return (p.argc, buffer)

/-- `while (*curr++ != '\0');`, with a bound on the number of iterations. -/
def skipString (buffer : List UInt8) : ℕ → ℕ → Option ℕ
  | 0, _ => none
  | fuel + 1, curr => do
    let c ← buffer[curr]?
    if c ≠ 0 then skipString buffer fuel (curr + 1) else return curr + 1

/-- The loop of `_start` over the arguments: the offsets that it stores in `argv`. -/
def argvLoop (buffer : List UInt8) : ℕ → ℕ → Option (List ℕ)
  | 0, _ => some []
  | argc + 1, curr => do
    let next ← skipString buffer buffer.length curr
    let argv ← argvLoop buffer argc next
    return curr :: argv

/-! ## Cutting a list at runs -/

section CutRuns

variable {α : Type} (p : α → Bool)

/-- Cut a list at every maximal run of elements that satisfy `p`. -/
def cutRuns (xs : List α) : List (List α) :=
  match _h : xs.dropWhile (!p ·) with
  | [] => [xs]
  | _ :: rest => xs.takeWhile (!p ·) :: cutRuns (rest.dropWhile p)
termination_by xs.length
decreasing_by
  have hlength := congrArg List.length ‹_ = _›
  have hle := (List.dropWhile_sublist (l := xs) (!p ·)).length_le
  have hle' := (List.dropWhile_sublist (l := rest) p).length_le
  simp only [List.length_cons] at hlength
  omega

theorem cutRuns_nil : cutRuns p [] = [[]] := by
  rw [cutRuns]
  rfl

theorem cutRuns_of_pos {x : α} (xs : List α) (h : p x = true) :
    cutRuns p (x :: xs) = [] :: cutRuns p (xs.dropWhile p) := by
  have htake : (x :: xs).takeWhile (!p ·) = [] := by simp [h]
  have hdrop : (x :: xs).dropWhile (!p ·) = x :: xs := by simp [h]
  rw [cutRuns, htake]
  split
  next hnone => exact absurd (hdrop.symm.trans hnone) (List.cons_ne_nil _ _)
  next hrest => rw [(List.cons.inj (hdrop.symm.trans hrest)).2]

theorem cutRuns_of_neg {x : α} (xs : List α) (h : p x = false) :
    cutRuns p (x :: xs) = (cutRuns p xs).modifyHead (x :: ·) := by
  have htake : (x :: xs).takeWhile (!p ·) = x :: xs.takeWhile (!p ·) := by simp [h]
  have hdrop : (x :: xs).dropWhile (!p ·) = xs.dropWhile (!p ·) := by simp [h]
  rw [cutRuns.eq_def p (x :: xs), cutRuns.eq_def p xs, htake]
  split
  next hnone =>
    split
    next => rfl
    next hrest => exact absurd (hrest.symm.trans (hdrop.symm.trans hnone)) (List.cons_ne_nil _ _)
  next hrest =>
    split
    next hnone => exact absurd (hrest.symm.trans (hdrop.trans hnone)) (List.cons_ne_nil _ _)
    next hrest' =>
      rw [(List.cons.inj (hrest.symm.trans (hdrop.trans hrest'))).2]
      rfl

theorem cutRuns_ne_nil (xs : List α) : cutRuns p xs ≠ [] := by
  rw [cutRuns]
  split <;> exact List.cons_ne_nil _ _

theorem mem_of_mem_cutRuns {xs field : List α} {x : α} (hfield : field ∈ cutRuns p xs)
    (hx : x ∈ field) : x ∈ xs := by
  fun_induction cutRuns p xs with
  | case1 xs hnone =>
      rw [List.mem_singleton.mp hfield] at hx
      exact hx
  | case2 xs separator rest hrest ih =>
      rcases List.mem_cons.mp hfield with rfl | hfield
      · exact (List.takeWhile_sublist _).subset hx
      · have hdropped : separator :: rest ⊆ xs := hrest ▸ (List.dropWhile_sublist _).subset
        have hmem := (List.dropWhile_sublist _).subset (ih hfield)
        exact hdropped (List.mem_cons_of_mem _ hmem)

end CutRuns

/-! ## The fields of a command line -/

/-- What a character of the line is: a space outside of quotes, a quote character that is removed,
or a character of a field. -/
inductive Part where
  | separator
  | quote
  | char (c : UInt8)
  deriving DecidableEq

/-- The open quote behind a character; 0 is none. -/
def nextQuote (quote c : UInt8) : UInt8 :=
  if c = quote then 0
  else if quote = 0 ∧ (c = doubleQuote ∨ c = singleQuote) then c
  else quote

/-- A character behind an open quote. Inside of quotes only the same quote character is special. -/
def part (quote c : UInt8) : Part :=
  if c = quote then .quote
  else if quote = 0 ∧ c = space then .separator
  else if quote = 0 ∧ (c = doubleQuote ∨ c = singleQuote) then .quote
  else .char c

def parts (quote : UInt8) : List UInt8 → List Part
  | [] => []
  | c :: line => part quote c :: parts (nextQuote quote c) line

def Part.isSeparator : Part → Bool
  | .separator => true
  | _ => false

/-- The characters of a field, without the quotes. -/
def fieldChars (field : List Part) : List UInt8 :=
  field.filterMap fun
    | .char c => some c
    | _ => none

/-- The fields of a line behind an open quote. -/
def fieldsFrom (quote : UInt8) (line : List UInt8) : List (List UInt8) :=
  (cutRuns Part.isSeparator (parts quote line)).map fieldChars

/-- The fields of a command line. -/
def fields (line : List UInt8) : List (List UInt8) := fieldsFrom 0 line

/-- The quote that is left open at the end of a line; 0 is none. -/
def quoteAfter (quote : UInt8) (line : List UInt8) : UInt8 := line.foldl nextQuote quote

/-! ## Its fields one character after the other -/

/-- What a character can be, with the conditions of the loop. -/
theorem part_cases (quote c : UInt8) :
    (c = quote ∧ part quote c = .quote ∧ nextQuote quote c = 0) ∨
    (c ≠ quote ∧ (quote = 0 ∧ c = space) ∧ part quote c = .separator ∧ nextQuote quote c = 0) ∨
    (c ≠ quote ∧ ¬ (quote = 0 ∧ c = space) ∧
      (quote = 0 ∧ (c = doubleQuote ∨ c = singleQuote)) ∧ part quote c = .quote ∧
      nextQuote quote c = c) ∨
    (c ≠ quote ∧ ¬ (quote = 0 ∧ c = space) ∧
      ¬ (quote = 0 ∧ (c = doubleQuote ∨ c = singleQuote)) ∧ part quote c = .char c ∧
      nextQuote quote c = quote) := by
  unfold part nextQuote
  by_cases hquote : c = quote
  · simp only [hquote, if_true, true_and, and_self, true_or]
  · by_cases hspace : quote = 0 ∧ c = space
    · obtain ⟨rfl, rfl⟩ := hspace
      exact .inr (.inl (by decide))
    · by_cases hopen : quote = 0 ∧ (c = doubleQuote ∨ c = singleQuote)
      · rw [if_neg hquote, if_neg hspace, if_pos hopen, if_neg hquote, if_pos hopen]
        exact .inr (.inr (.inl ⟨hquote, hspace, hopen, rfl, rfl⟩))
      · rw [if_neg hquote, if_neg hspace, if_neg hopen, if_neg hquote, if_neg hopen]
        exact .inr (.inr (.inr ⟨hquote, hspace, hopen, rfl, rfl⟩))

section Fields

variable {quote c : UInt8} (line : List UInt8)

theorem fieldsFrom_nil (quote : UInt8) : fieldsFrom quote [] = [[]] := by
  rw [fieldsFrom, parts, cutRuns_nil]
  rfl

theorem fieldsFrom_ne_nil (quote : UInt8) : fieldsFrom quote line ≠ [] := by
  rw [fieldsFrom, ne_eq, List.map_eq_nil_iff]
  exact cutRuns_ne_nil _ _

theorem map_fieldChars_modifyHead (x : Part) (cut : List (List Part)) :
    (cut.modifyHead (x :: ·)).map fieldChars =
      (cut.map fieldChars).modifyHead (fieldChars [x] ++ ·) := by
  cases cut with
  | nil => rfl
  | cons field cut =>
      simp only [List.modifyHead_cons, List.map_cons, fieldChars, ← List.filterMap_append,
        List.singleton_append]

/-- A quote character that is removed. -/
theorem fieldsFrom_quote (h : part quote c = .quote) :
    fieldsFrom quote (c :: line) = fieldsFrom (nextQuote quote c) line := by
  rw [fieldsFrom, parts, h, cutRuns_of_neg _ _ rfl, map_fieldChars_modifyHead]
  exact congrFun List.modifyHead_id _

theorem fieldsFrom_char (h : part quote c = .char c) :
    fieldsFrom quote (c :: line) = (fieldsFrom (nextQuote quote c) line).modifyHead (c :: ·) := by
  rw [fieldsFrom, parts, h, cutRuns_of_neg _ _ rfl, map_fieldChars_modifyHead]
  rfl

/-- A run of spaces outside of quotes. -/
theorem fieldsFrom_space :
    fieldsFrom 0 (space :: line) = [] :: fieldsFrom 0 (line.dropWhile (· == space)) := by
  have hrun : ∀ line, (parts 0 line).dropWhile Part.isSeparator =
      parts 0 (line.dropWhile (· == space)) := by
    intro line
    induction line with
    | nil => rfl
    | cons c line ih =>
        by_cases hc : c = space
        · subst hc
          exact ih
        · have hpart : (part 0 c).isSeparator = false := by
            unfold part
            split_ifs <;> simp_all [Part.isSeparator]
          rw [parts, List.dropWhile_cons_of_neg (by rw [hpart]; exact Bool.false_ne_true),
            List.dropWhile_cons_of_neg (by simpa using hc), parts]
  rw [fieldsFrom, parts, show part 0 space = .separator from rfl, cutRuns_of_pos _ _ rfl,
    show nextQuote 0 space = 0 from rfl, hrun]
  rfl

theorem quoteAfter_cons (quote c : UInt8) :
    quoteAfter quote (c :: line) = quoteAfter (nextQuote quote c) line := rfl

theorem quoteAfter_dropWhile : quoteAfter 0 line = quoteAfter 0 (line.dropWhile (· == space)) := by
  induction line with
  | nil => rfl
  | cons c line ih =>
      by_cases hc : c = space
      · subst hc
        exact ih
      · rw [List.dropWhile_cons_of_neg (by simpa using hc)]

theorem mem_of_mem_parts (h : .char c ∈ parts quote line) : c ∈ line := by
  induction line generalizing quote with
  | nil => exact absurd h List.not_mem_nil
  | cons d line ih =>
      rcases List.mem_cons.mp h with hhead | htail
      · rcases part_cases quote d with ⟨-, hpart, -⟩ | ⟨-, -, hpart, -⟩ | ⟨-, -, -, hpart, -⟩ |
          ⟨-, -, -, hpart, -⟩
        all_goals rw [hpart] at hhead
        all_goals injection hhead
        subst c
        exact List.mem_cons_self
      · exact List.mem_cons_of_mem _ (ih htail)

/-- A field has only characters of the line. -/
theorem mem_of_mem_fields {field : List UInt8} (hfield : field ∈ fields line) (hc : c ∈ field) :
    c ∈ line := by
  obtain ⟨cut, hcut, rfl⟩ := List.mem_map.mp hfield
  obtain ⟨x, hx, hchar⟩ := List.mem_filterMap.mp hc
  have hmem := mem_of_mem_cutRuns _ hcut hx
  cases x with
  | separator => exact nomatch hchar
  | quote => exact nomatch hchar
  | char d =>
      obtain rfl := Option.some.inj hchar
      exact mem_of_mem_parts line hmem

end Fields

/-! ## Rewriting in place -/

/-- Fields with a NUL between each and the next. -/
def joined (fields : List (List UInt8)) : List UInt8 := [0].intercalate fields

/-- Fields with a NUL behind each. -/
def strings (fields : List (List UInt8)) : List UInt8 := (fields.map (· ++ [0])).flatten

theorem joined_nil_cons {fields : List (List UInt8)} (h : fields ≠ []) :
    joined ([] :: fields) = 0 :: joined fields := by
  cases fields with
  | nil => exact absurd rfl h
  | cons field fields => rfl

theorem joined_modifyHead (c : UInt8) {fields : List (List UInt8)} (h : fields ≠ []) :
    joined (fields.modifyHead (c :: ·)) = c :: joined fields := by
  cases fields with
  | nil => exact absurd rfl h
  | cons field fields =>
      cases fields with
      | nil => rfl
      | cons next fields => rfl

theorem joined_append_nul {fields : List (List UInt8)} (h : fields ≠ []) :
    joined fields ++ [0] = strings fields := by
  induction fields with
  | nil => exact absurd rfl h
  | cons field fields ih =>
      cases fields with
      | nil => simp [joined, strings]
      | cons next fields =>
          rw [joined, List.intercalate_cons_cons, strings, List.map_cons, List.flatten_cons]
          exact (List.append_assoc _ _ _).trans (congrArg _ (ih (List.cons_ne_nil _ _)))

/-- The parser when `written` is rewritten, `gap` is read and free, and `rest` is not read yet. -/
def Parser.holding (written gap rest : List UInt8) (quote : UInt8) (argc : ℕ) : Parser where
  buffer := written ++ (gap ++ rest)
  cur := written.length + gap.length
  dst := written.length
  currentQuote := quote
  argc := argc

theorem Parser.holding_append (written gap more rest : List UInt8) (quote : UInt8) (argc : ℕ) :
    (⟨written ++ (gap ++ (more ++ rest)), written.length + gap.length + more.length,
      written.length, quote, argc⟩ : Parser) = holding written (gap ++ more) rest quote argc := by
  simp [holding, Nat.add_assoc]

theorem getElem?_holding (written gap rest : List UInt8) (c : UInt8) :
    (written ++ (gap ++ c :: rest))[written.length + gap.length]? = some c := by
  rw [← List.append_assoc, ← List.length_append, List.getElem?_append_right (Nat.le_refl _),
    Nat.sub_self]
  rfl

/-- A character that is stored takes the place of the first free one, or of the one just read. -/
theorem store_holding (written gap rest : List UInt8) (c x : UInt8) :
    ∃ gap', gap'.length = gap.length ∧
      store (written ++ (gap ++ c :: rest)) (written.length + gap.length + 1) written.length x =
        some (written ++ [x] ++ (gap' ++ rest)) := by
  obtain ⟨first, gap', hgap⟩ : ∃ first gap', gap ++ [c] = first :: gap' :=
    List.exists_cons_of_ne_nil (by simp)
  have hlength := congrArg List.length hgap
  rw [List.length_append, List.length_cons, List.length_cons, List.length_nil] at hlength
  refine ⟨gap', by omega, ?_⟩
  rw [store, if_pos (by simp only [List.length_append, List.length_cons]; omega),
    List.append_cons gap, hgap, List.set_append_right _ _ (Nat.le_refl _), Nat.sub_self]
  simp

/-- The loop over the spaces stops in front of the first other character. -/
theorem skipSpaces_eq {buffer after : List UInt8} (line : List UInt8) {fuel cur : ℕ}
    (hfuel : line.length < fuel) (h : buffer.drop (cur + 1) = line ++ 0 :: after) :
    skipSpaces buffer fuel cur = some (cur + (line.takeWhile (· == space)).length) := by
  obtain ⟨fuel, rfl⟩ : ∃ k, fuel = k + 1 := Nat.exists_eq_add_one.mpr (by omega)
  induction line generalizing fuel cur with
  | nil =>
      rw [skipSpaces, getElem?_of_drop h]
      rfl
  | cons c line ih =>
      rw [skipSpaces, getElem?_of_drop h]
      change (if c = space then _ else _) = _
      split
      next hc =>
        obtain ⟨fuel, rfl⟩ : ∃ k, fuel = k + 1 := by
          rw [List.length_cons] at hfuel
          exact Nat.exists_eq_add_one.mpr (by omega)
        have hdrop : buffer.drop (cur + 1 + 1) = line ++ 0 :: after := by
          rw [← List.drop_drop, h]
          rfl
        rw [ih hdrop fuel (by simpa using hfuel), List.takeWhile_cons_of_pos (by simpa using hc),
          List.length_cons, Nat.add_right_comm, Nat.add_assoc]
      next hc =>
        rw [List.takeWhile_cons_of_neg (by simpa using hc)]
        rfl

section Step

variable {fuel argc : ℕ} {written gap rest line after : List UInt8} {quote c : UInt8} (hc : c ≠ 0)
include hc

/-- The quote is closed. -/
theorem parseLoop_close :
    parseLoop (fuel + 1) (.holding written gap (c :: rest) c argc) =
      parseLoop fuel (.holding written (gap ++ [c]) rest 0 argc) := by
  rw [← Parser.holding_append written gap [c], Parser.holding, parseLoop]
  simp only [getElem?_holding, Option.bind_eq_bind, Option.bind_some, if_neg hc, if_true]
  rfl

/-- A quote is opened. -/
theorem parseLoop_open (hquote : c ≠ quote) (hspace : ¬ (quote = 0 ∧ c = space))
    (hopen : quote = 0 ∧ (c = doubleQuote ∨ c = singleQuote)) :
    parseLoop (fuel + 1) (.holding written gap (c :: rest) quote argc) =
      parseLoop fuel (.holding written (gap ++ [c]) rest c argc) := by
  rw [← Parser.holding_append written gap [c], Parser.holding, parseLoop]
  simp only [getElem?_holding, Option.bind_eq_bind, Option.bind_some, if_neg hc,
    if_neg hquote, if_neg hspace, if_pos hopen]
  rfl

/-- A character of a field is stored. -/
theorem parseLoop_char (hquote : c ≠ quote) (hspace : ¬ (quote = 0 ∧ c = space))
    (hopen : ¬ (quote = 0 ∧ (c = doubleQuote ∨ c = singleQuote))) :
    ∃ gap', gap'.length = gap.length ∧
      parseLoop (fuel + 1) (.holding written gap (c :: rest) quote argc) =
        parseLoop fuel (.holding (written ++ [c]) gap' rest quote argc) := by
  obtain ⟨gap', hlength, hstore⟩ := store_holding written gap rest c c
  refine ⟨gap', hlength, ?_⟩
  rw [Parser.holding, parseLoop, Parser.holding]
  simp only [getElem?_holding, Option.bind_eq_bind, Option.bind_some, if_neg hc,
    if_neg hquote, if_neg hspace, if_neg hopen, hstore, List.length_append,
    List.length_singleton, hlength]
  rw [Nat.add_right_comm]

omit hc in
/-- A run of spaces outside of quotes is a NUL. -/
theorem parseLoop_space :
    ∃ gap', gap'.length = gap.length + (line.takeWhile (· == space)).length ∧
      parseLoop (fuel + 1) (.holding written gap (space :: (line ++ 0 :: after)) 0 argc) =
        parseLoop fuel (.holding (written ++ [0]) gap' (line.dropWhile (· == space) ++ 0 :: after) 0
          (argc + 1)) := by
  obtain ⟨gap', hlength, hstore⟩ := store_holding written gap (line ++ 0 :: after) space 0
  have hline := List.takeWhile_append_dropWhile (p := (· == space)) (l := line)
  have hskip : skipSpaces (written ++ [0] ++ (gap' ++ (line ++ 0 :: after)))
      (written ++ [0] ++ (gap' ++ (line ++ 0 :: after))).length (written.length + gap.length) =
        some (written.length + gap.length + (line.takeWhile (· == space)).length) := by
    apply skipSpaces_eq
    · simp only [List.length_append, List.length_cons]
      omega
    · rw [← List.append_assoc, List.drop_left']
      simp only [List.length_append, List.length_singleton, hlength]
      omega
  refine ⟨gap' ++ line.takeWhile (· == space), by rw [List.length_append, hlength], ?_⟩
  rw [← Parser.holding_append, ← List.append_assoc (line.takeWhile _), hline, Parser.holding,
    parseLoop]
  simp only [getElem?_holding, Option.bind_eq_bind, Option.bind_some,
    if_neg (show space ≠ 0 by decide), true_and, if_true, hstore, hskip]
  rw [List.length_append, List.length_singleton, hlength, Nat.add_right_comm _ _ 1,
    Nat.add_right_comm _ _ 1]

end Step

/-- From any state of the loop on, the fields of what is left of the line are written. -/
theorem parseLoop_holding {fuel : ℕ} (written gap line after : List UInt8) (quote : UInt8)
    (argc : ℕ)
    (hfuel : line.length < fuel) (hline : 0 ∉ line) :
    ∃ gap', (joined (fieldsFrom quote line)).length + gap'.length = gap.length + line.length ∧
      parseLoop fuel (.holding written gap (line ++ 0 :: after) quote argc) =
        some (.holding (written ++ joined (fieldsFrom quote line)) gap' (0 :: after)
          (quoteAfter quote line) (argc + ((fieldsFrom quote line).length - 1))) := by
  induction fuel generalizing written gap line quote argc with
  | zero => omega
  | succ fuel ih =>
      cases line with
      | nil =>
          refine ⟨gap, ?_, ?_⟩
          · rw [fieldsFrom_nil]
            exact Nat.zero_add _
          · rw [Parser.holding, parseLoop, fieldsFrom_nil]
            simp only [List.nil_append, getElem?_holding]
            simp [joined, quoteAfter, Parser.holding]
      | cons c line =>
          rw [List.length_cons] at hfuel ⊢
          obtain ⟨hc, hrest⟩ := List.ne_and_not_mem_of_not_mem_cons hline
          rw [List.cons_append, quoteAfter_cons]
          rcases part_cases quote c with ⟨rfl, hpart, hnext⟩ | ⟨-, ⟨rfl, rfl⟩, -, hnext⟩ |
            ⟨hquote, hspace, hopen, hpart, hnext⟩ | ⟨hquote, hspace, hopen, hpart, hnext⟩
          · rw [parseLoop_close hc.symm, fieldsFrom_quote line hpart, hnext]
            obtain ⟨gap', hlength, hloop⟩ :=
              ih written (gap ++ [c]) line 0 argc (by omega) hrest
            rw [List.length_append, List.length_singleton] at hlength
            exact ⟨gap', by omega, hloop⟩
          · obtain ⟨gap', hgap, hstep⟩ := parseLoop_space
            have hsub := List.dropWhile_sublist (l := line) (· == space)
            have hsplit := congrArg List.length
              (List.takeWhile_append_dropWhile (p := (· == space)) (l := line))
            have hpos := List.length_pos_iff.mpr
              (fieldsFrom_ne_nil (line.dropWhile (· == space)) 0)
            obtain ⟨gap'', hlength, hloop⟩ :=
              ih (written ++ [0]) gap' (line.dropWhile (· == space)) 0 (argc + 1)
                (Nat.lt_of_le_of_lt hsub.length_le (by omega)) fun hmem => hrest (hsub.subset hmem)
            rw [List.length_append] at hsplit
            rw [hstep, hloop, fieldsFrom_space, joined_nil_cons (fieldsFrom_ne_nil _ 0),
              List.append_cons written 0 (joined _), hnext, List.length_cons, List.length_cons]
            refine ⟨gap'', by omega, ?_⟩
            rw [quoteAfter_dropWhile line, Nat.add_sub_cancel, Nat.add_assoc,
              Nat.add_sub_cancel' hpos]
          · rw [parseLoop_open hc.symm hquote hspace hopen, fieldsFrom_quote line hpart, hnext]
            obtain ⟨gap', hlength, hloop⟩ :=
              ih written (gap ++ [c]) line c argc (by omega) hrest
            rw [List.length_append, List.length_singleton] at hlength
            exact ⟨gap', by omega, hloop⟩
          · obtain ⟨gap', hgap, hstep⟩ := parseLoop_char hc.symm hquote hspace hopen
            obtain ⟨gap'', hlength, hloop⟩ :=
              ih (written ++ [c]) gap' line quote argc (by omega) hrest
            rw [hstep, hloop, fieldsFrom_char line hpart, hnext,
              joined_modifyHead c (fieldsFrom_ne_nil line quote), List.length_modifyHead,
              List.append_cons written c (joined _), List.length_cons]
            exact ⟨gap'', by omega, rfl⟩

/-! ## The arguments -/

/-- The string at an offset of the buffer is a field. -/
def StringAt (buffer : List UInt8) (offset : ℕ) (field : List UInt8) : Prop :=
  ∃ rest, buffer.drop offset = field ++ 0 :: rest

theorem skipString_eq {buffer rest : List UInt8} (field : List UInt8) {fuel curr : ℕ}
    (hfuel : field.length < fuel) (hfield : 0 ∉ field)
    (h : buffer.drop curr = field ++ 0 :: rest) :
    skipString buffer fuel curr = some (curr + (field.length + 1)) := by
  obtain ⟨fuel, rfl⟩ : ∃ k, fuel = k + 1 := Nat.exists_eq_add_one.mpr (by omega)
  induction field generalizing fuel curr with
  | nil =>
      rw [skipString, getElem?_of_drop h]
      rfl
  | cons c field ih =>
      rw [List.length_cons] at hfuel
      obtain ⟨hc, hfield⟩ := List.ne_and_not_mem_of_not_mem_cons hfield
      obtain ⟨fuel, rfl⟩ : ∃ k, fuel = k + 1 := Nat.exists_eq_add_one.mpr (by omega)
      have hdrop : buffer.drop (curr + 1) = field ++ 0 :: rest := by
        rw [← List.drop_drop, h]
        rfl
      rw [skipString, getElem?_of_drop h]
      refine (if_pos hc.symm).trans ?_
      rw [ih hfield hdrop fuel (by omega), List.length_cons]
      congr 1
      omega

/-- The loop over the arguments stays inside of the strings. -/
theorem argvLoop_eq {rest : List UInt8} (buffer : List UInt8) (curr : ℕ)
    (fields : List (List UInt8)) (hfields : ∀ field ∈ fields, 0 ∉ field)
    (h : buffer.drop curr = strings fields ++ rest) :
    ∃ argv, argvLoop buffer fields.length curr = some argv ∧
      List.Forall₂ (StringAt buffer) argv fields := by
  induction fields generalizing curr with
  | nil => exact ⟨[], rfl, .nil⟩
  | cons field fields ih =>
      obtain ⟨hfield, hfields⟩ := List.forall_mem_cons.mp hfields
      rw [strings, List.map_cons, List.flatten_cons, List.append_assoc, List.append_assoc] at h
      have hlt : field.length < buffer.length := by
        have hlength := congrArg List.length h
        simp only [List.length_drop, List.length_append, List.length_singleton] at hlength
        omega
      have hnext : buffer.drop (curr + (field.length + 1)) = strings fields ++ rest := by
        rw [← List.drop_drop, h, ← List.append_assoc, List.drop_left' (by simp)]
        rfl
      obtain ⟨argv, hargv, hstrings⟩ := ih (curr + (field.length + 1)) hfields hnext
      refine ⟨curr :: argv, ?_, .cons ⟨_, h⟩ hstrings⟩
      rw [List.length_cons, argvLoop, skipString_eq field hlt hfield h]
      simp only [Option.bind_eq_bind, Option.bind_some, hargv]
      rfl

/-- A line with an open quote is refused. Any other line is rewritten into its fields, as many as
the result says and each with a NUL behind it; every access is inside of the buffer, nothing is
stored where a character is still to be read, and the loop over the arguments finds the fields. -/
theorem parseCmdLine_fields (line after : List UInt8) (hline : 0 ∉ line) :
    (quoteAfter 0 line ≠ 0 →
      ∃ buffer, parseCmdLine (line ++ 0 :: after) = some (0, buffer)) ∧
    (quoteAfter 0 line = 0 →
      ∃ gap argv, parseCmdLine (line ++ 0 :: after) =
          some ((fields line).length, strings (fields line) ++ (gap ++ after)) ∧
        (strings (fields line) ++ gap).length = line.length + 1 ∧
        0 < (fields line).length ∧ (∀ field ∈ fields line, 0 ∉ field) ∧
        argvLoop (strings (fields line) ++ (gap ++ after)) (fields line).length 0 = some argv ∧
        List.Forall₂ (StringAt (strings (fields line) ++ (gap ++ after))) argv (fields line)) := by
  have hne : fields line ≠ [] := fieldsFrom_ne_nil line 0
  have hpos := List.length_pos_iff.mpr hne
  obtain ⟨gap, hlength, hloop⟩ : ∃ gap, _ ∧ parseLoop (line ++ 0 :: after).length
      ⟨line ++ 0 :: after, 0, 0, 0, 1⟩ = _ :=
    parseLoop_holding [] [] line after 0 1 (by simp) hline
  rw [← fields, List.nil_append, Nat.add_sub_cancel' hpos] at hloop
  refine ⟨?_, ?_⟩
  · intro hopen
    refine ⟨joined (fields line) ++ (gap ++ 0 :: after), ?_⟩
    rw [parseCmdLine, hloop]
    exact if_pos hopen
  · intro hclosed
    obtain ⟨gap', hgap, hstore⟩ := store_holding (joined (fields line)) gap after 0 0
    rw [joined_append_nul hne] at hstore
    have hfields : ∀ field ∈ fields line, 0 ∉ field :=
      fun field hfield hmem => hline (mem_of_mem_fields line hfield hmem)
    obtain ⟨argv, hargv, hstrings⟩ :=
      argvLoop_eq (strings (fields line) ++ (gap' ++ after)) 0 (fields line) hfields rfl
    refine ⟨gap', argv, ?_, ?_, hpos, hfields, hargv, hstrings⟩
    · rw [parseCmdLine, hloop]
      refine (if_neg (not_not.mpr hclosed)).trans ?_
      change (store (joined (fields line) ++ (gap ++ 0 :: after))
        ((joined (fields line)).length + gap.length + 1) (joined (fields line)).length 0).bind _ = _
      rw [hstore]
      rfl
    · rw [← fields, List.length_nil] at hlength
      simp only [← joined_append_nul hne, List.length_append, List.length_singleton, hgap]
      omega

/-- The line `a  'b'` has two fields. -/
theorem parseCmdLine_fields_quoted :
    ∃ gap argv, parseCmdLine (ascii "a  'b'" ++ [0]) =
        some (2, ascii "a\x00b\x00" ++ (gap ++ [])) ∧
      argvLoop (ascii "a\x00b\x00" ++ (gap ++ [])) 2 0 = some argv := by
  have hfields : fields (ascii "a  'b'") = [ascii "a", ascii "b"] := by
    have hparts : parts 0 (ascii "a  'b'") =
        [.char 97, .separator, .separator, .quote, .char 98, .quote] := by decide
    rw [fields, fieldsFrom, hparts, cutRuns_of_neg _ _ rfl, cutRuns_of_pos _ _ rfl]
    change (List.modifyHead _ ([] :: cutRuns _ [Part.quote, .char 98, .quote])).map _ = _
    rw [cutRuns_of_neg _ _ rfl, cutRuns_of_neg _ _ rfl, cutRuns_of_neg _ _ rfl, cutRuns_nil]
    rfl
  obtain ⟨gap, argv, hparse, -, -, -, hargv, -⟩ :=
    (parseCmdLine_fields (ascii "a  'b'") [] (by decide)).2 (by decide)
  rw [hfields] at hparse hargv
  exact ⟨gap, argv, hparse, hargv⟩

end Hc.WindowsStart
