import Mathlib
import C3Lens.Compiler.Report
import C3Lens.Proofs.Syntax.Place
import C3Lens.Proofs.Symbol.Written
import C3Lens.Proofs.Text.Blank
import C3Lens.Proofs.Text.Line

/-!
# Reports are read as the compiler writes them

A problem is told in a line `> LSPERR|severity|"file"|line|column|"message"`, with a backslash in front of
every quote of the message. Files and messages may hold the marks between the parts: a file ends at the
first quote behind which the rest is read, and a file without quotes is so read whole (`readFile_append`),
while a message ends at the last quote of the line.

`isSome_ofLine?_iff` says which lines are read: those of the form `Reports`, white space at both ends
aside. So the problems of an output are read as they were told, whatever other lines stand between theirs,
and their ranges are of 32 bits (`parse_written`).
-/

namespace C3Lens

namespace Diagnostic

/-! ## Fields and their marks -/

/-- Characters of a class, at least one. -/
def IsRun (p : Char → Bool) (cs : List Char) : Prop :=
  cs ≠ [] ∧ ∀ c ∈ cs, p c = true

theorem IsRun.not_mem {p : Char → Bool} {cs : List Char} {c : Char} (run : IsRun p cs) (outside : p c = false) :
    c ∉ cs :=
  fun h => Bool.false_ne_true (outside.symm.trans (run.2 c h))

set_option maxRecDepth 4000 in
theorem isWord_bar : Text.isWord '|' = false := by decide

set_option maxRecDepth 4000 in
theorem isWord_newline : Text.isWord '\n' = false := by decide

/-- A field of a class reaches to the first character outside of the class. -/
theorem readField_eq_some_iff {p : Char → Bool} {m : Char} (outside : p m = false) {mark cs rest : List Char}
    {field : String} :
    readField p (m :: mark) cs = some (field, rest) ↔
      IsRun p field.toList ∧ cs = field.toList ++ (m :: mark ++ rest) := by
  constructor
  · intro h
    rw [readField] at h
    split at h
    next found =>
      rw [Bool.and_eq_true, List.isPrefixOf_iff_prefix, Bool.not_eq_true', List.isEmpty_eq_false_iff] at found
      obtain ⟨nonempty, behind, whole⟩ := found
      cases h
      rw [String.toList_ofList, ← whole, List.drop_left, whole, List.takeWhile_append_dropWhile]
      exact ⟨⟨nonempty, fun c hc => List.mem_takeWhile_imp hc⟩, rfl⟩
    next => cases h
  · rintro ⟨⟨nonempty, inside⟩, rfl⟩
    have stops : ¬ p m = true := by rw [outside]; exact Bool.false_ne_true
    have taken : (field.toList ++ (m :: mark ++ rest)).takeWhile p = field.toList := by
      rw [List.takeWhile_append_of_pos inside, List.cons_append, List.takeWhile_cons_of_neg stops,
        List.append_nil]
    have left : (field.toList ++ (m :: mark ++ rest)).dropWhile p = m :: mark ++ rest := by
      rw [List.dropWhile_append_of_pos inside, List.cons_append, List.dropWhile_cons_of_neg stops]
    have marked : (m :: mark).isPrefixOf (m :: mark ++ rest) = true :=
      List.isPrefixOf_iff_prefix.2 (List.prefix_append _ _)
    have filled : (!field.toList.isEmpty) = true := by
      rw [Bool.not_eq_true', List.isEmpty_eq_false_iff]
      exact nonempty
    rw [readField, taken, left, marked, filled, Bool.and_true, if_pos rfl, List.drop_left, String.ofList_toList]

/-- What follows the name of a file in a line that tells a problem. -/
def behindFile (row column message : List Char) : List Char :=
  ['\x22', '|'] ++ (row ++ (['|'] ++ (column ++ (['|', '\x22'] ++ (message ++ ['\x22'])))))

theorem readBehindFile_eq_some_iff {cs : List Char} {found : Nat × Nat × String} :
    readBehindFile cs = some found ↔ ∃ row column message : String,
      IsRun Text.isDigit row.toList ∧ IsRun Text.isDigit column.toList ∧
        cs = behindFile row.toList column.toList message.toList ∧
        found = (numberOf row, numberOf column, message) := by
  have bar : Text.isDigit '|' = false := by decide
  have steps : readBehindFile cs = some found ↔ ['\x22', '|'].isPrefixOf cs = true ∧ ∃ row afterRow,
      readField Text.isDigit ['|'] (cs.drop 2) = some (row, afterRow) ∧ ∃ column afterColumn,
      readField Text.isDigit ['|', '\x22'] afterRow = some (column, afterColumn) ∧
      afterColumn.getLast? = some '\x22' ∧
      (numberOf row, numberOf column, String.ofList afterColumn.dropLast) = found := by
    by_cases start : ['\x22', '|'].isPrefixOf cs = true <;>
      simp [readBehindFile, start, Option.bind_eq_some_iff]
  rw [steps, List.isPrefixOf_iff_prefix]
  simp only [readField_eq_some_iff bar, List.getLast?_eq_some_iff]
  constructor
  · rintro ⟨⟨behind, rfl⟩, row, afterRow, ⟨hrow, rest⟩, column, _, ⟨hcolumn, rfl⟩, ⟨message, rfl⟩, same⟩
    refine ⟨row, column, String.ofList message, hrow, hcolumn, ?_, ?_⟩
    · rw [show behind = _ from rest, String.toList_ofList]
      rfl
    · rw [← same, List.dropLast_concat]
  · rintro ⟨row, column, message, hrow, hcolumn, rfl, rfl⟩
    refine ⟨List.prefix_append _ _, row, _, ⟨hrow, rfl⟩, column, _, ⟨hcolumn, rfl⟩, ⟨message.toList, rfl⟩, ?_⟩
    rw [List.dropLast_concat, String.ofList_toList]

/-- A text that does not begin with the quote behind a file is not read. -/
theorem readBehindFile_cons_of_ne {c : Char} (other : c ≠ '\x22') (cs : List Char) :
    readBehindFile (c :: cs) = none := by
  refine Option.eq_none_iff_forall_ne_some.2 fun found h => ?_
  obtain ⟨row, column, message, -, -, same, -⟩ := readBehindFile_eq_some_iff.1 h
  exact other (List.cons.inj same).1

/-! ## The file -/

/-- A file without quotes is read whole. -/
theorem readFile_append {file rest : List Char} {found : Nat × Nat × String} (noQuote : '\x22' ∉ file)
    (read : readBehindFile rest = some found) (name : List Char) :
    readFile name (file ++ rest) = some (String.ofList (name.reverse ++ file), found) := by
  induction file generalizing name with
  | nil =>
    cases rest with
    | nil => cases read
    | cons c cs => rw [List.nil_append, List.append_nil, readFile, read]
  | cons c file ih =>
    rw [List.mem_cons, not_or] at noQuote
    rw [List.cons_append, readFile, readBehindFile_cons_of_ne (Ne.symm noQuote.1), ih noQuote.2,
      List.reverse_cons, List.append_assoc, List.singleton_append]

/-- A file is found where something behind it is read as what follows a file. -/
theorem isSome_readFile_iff (name cs : List Char) :
    (readFile name cs).isSome ↔ ∃ file behind, cs = file ++ behind ∧ (readBehindFile behind).isSome := by
  induction cs generalizing name with
  | nil =>
    rw [readFile]
    refine ⟨nofun, ?_⟩
    rintro ⟨file, behind, none, read⟩
    rw [(List.append_eq_nil_iff.1 none.symm).2] at read
    cases read
  | cons c cs ih =>
    rw [readFile]
    constructor
    · intro h
      split at h
      next found read => exact ⟨[], c :: cs, rfl, Option.isSome_of_eq_some read⟩
      next =>
        obtain ⟨file, behind, rfl, read⟩ := (ih _).1 h
        exact ⟨c :: file, behind, rfl, read⟩
    · rintro ⟨file, behind, cut, read⟩
      split
      next => rfl
      next unread =>
        cases file with
        | nil =>
          rw [← List.nil_append behind, ← cut, unread] at read
          cases read
        | cons d file => exact (ih _).2 ⟨file, behind, (List.cons.inj cut).2, read⟩

/-! ## Lines -/

/-- A line that tells a problem, of its parts. -/
def lineOf (gap severity file row column message : List Char) : List Char :=
  '>' :: (gap ++ ("LSPERR|".toList ++ (severity ++ (['|', '\x22'] ++
    (file ++ behindFile row column message)))))

/-- The form of the lines that tell a problem. -/
inductive Reports : List Char → Prop
  | intro {gap severity file row column message blank : List Char}
    (gap_blank : ∀ c ∈ gap, Text.isSpace c = true)
    (severity_word : IsRun Text.isWord severity)
    (file_short : '\n' ∉ file)
    (row_number : IsRun Text.isDigit row)
    (column_number : IsRun Text.isDigit column)
    (message_short : '\n' ∉ message)
    (end_blank : ∀ c ∈ blank, Text.isSpace c = true) :
    Reports (lineOf gap severity file row column message ++ blank)

theorem Reports.head? {line : List Char} (h : Reports line) : line.head? = some '>' := by
  cases h
  rfl

/-- White space behind a line that tells a problem is cut off, and nothing else. -/
theorem toList_trim_lineOf (gap severity file row column message : List Char) {blank : List Char}
    (h : ∀ c ∈ blank, Text.isSpace c = true) :
    (Text.trim (String.ofList (lineOf gap severity file row column message ++ blank))).toList =
      lineOf gap severity file row column message := by
  have quoteEnds : ¬ Text.isSpace '\x22' = true := by decide
  obtain ⟨inner, ends⟩ : ∃ inner, lineOf gap severity file row column message = '>' :: inner ++ ['\x22'] :=
    ⟨gap ++ ("LSPERR|".toList ++ (severity ++ (['|', '\x22'] ++ (file ++ (['\x22', '|'] ++
      (row ++ (['|'] ++ (column ++ (['|', '\x22'] ++ message))))))))), by simp [lineOf, behindFile]⟩
  have start : (lineOf gap severity file row column message ++ blank).dropWhile Text.isSpace =
      lineOf gap severity file row column message ++ blank := rfl
  have tail : (lineOf gap severity file row column message ++ blank).rdropWhile Text.isSpace =
      (lineOf gap severity file row column message).rdropWhile Text.isSpace := by
    rw [List.rdropWhile, List.reverse_append,
      List.dropWhile_append_of_pos fun c hc => h c (List.mem_reverse.1 hc)]
    rfl
  rw [Text.toList_trim, String.toList_ofList, start, tail, ends, List.rdropWhile_concat_neg _ _ _ quoteEnds]

/-- The problem at a line and a column that are counted from one; column zero is none. -/
def counted (severity file : String) (line column : Nat) (message : String) : Diagnostic where
  file := file
  line := line - 1
  column? := if column = 0 then none else some (column - 1)
  severity := .parse severity
  message := message

theorem ofLine?_eq_some_iff {line : String} {d : Diagnostic} :
    ofLine? line = some d ↔ ∃ gap rest : List Char, ∃ severity file message : String, ∃ row column : Nat,
      (∀ c ∈ gap, Text.isSpace c = true) ∧ IsRun Text.isWord severity.toList ∧
      (Text.trim line).toList = '>' :: (gap ++ (mark.toList ++ (severity.toList ++ (['|', '\x22'] ++ rest)))) ∧
      readFile [] rest = some (file, row, column, message) ∧
      counted severity file row column (String.ofList (unquote message.toList)) = d := by
  have start : ">".toList = ['>'] := String.toList_ofList
  have steps : ofLine? line = some d ↔ ∃ body : String, (Text.trim line).toList = '>' :: body.toList ∧
      ∃ marked : String, body.toList.dropWhile Text.isSpace = mark.toList ++ marked.toList ∧
      ∃ severity rest, (IsRun Text.isWord severity.toList ∧
        marked.toList = severity.toList ++ (['|', '\x22'] ++ rest)) ∧
      ∃ file row column message, readFile [] rest = some (file, row, column, message) ∧
      counted severity file row column (String.ofList (unquote message.toList)) = d := by
    simp [ofLine?, Option.bind_eq_some_iff, counted, Text.afterStart?_eq_some_iff, start, Text.trimLeft,
      readField_eq_some_iff isWord_bar]
  rw [steps]
  constructor
  · rintro ⟨body, first, marked, marks, severity, rest, ⟨word, cut⟩, file, row, column, message, read, same⟩
    have parts := (List.takeWhile_append_dropWhile (p := Text.isSpace) (l := body.toList)).symm
    rw [marks, cut] at parts
    exact ⟨_, rest, severity, file, message, row, column, fun c hc => List.mem_takeWhile_imp hc, word,
      by rw [first, ← parts], read, same⟩
  · rintro ⟨gap, rest, severity, file, message, row, column, blank, word, whole, read, same⟩
    refine ⟨String.ofList (gap ++ (mark.toList ++ (severity.toList ++ (['|', '\x22'] ++ rest)))), ?_,
      String.ofList (severity.toList ++ (['|', '\x22'] ++ rest)), ?_, severity, rest,
      ⟨word, String.toList_ofList⟩, file, row, column, message, read, same⟩
    · rw [whole, String.toList_ofList]
    · rw [String.toList_ofList, String.toList_ofList, List.dropWhile_append_of_pos blank]
      rfl

/-- Lines that differ only in the white space at their ends are read alike. -/
theorem ofLine?_eq_of_trim {line line' : String} (h : Text.trim line = Text.trim line') :
    ofLine? line = ofLine? line' := by
  rw [ofLine?, ofLine?, h]

/-- A line is read exactly if it has the form of a report, white space at its ends aside. -/
theorem isSome_ofLine?_iff {line : String} (short : '\n' ∉ line.toList) :
    (ofLine? line).isSome ↔ Reports (Text.trim line).toList := by
  rw [Option.isSome_iff_exists]
  constructor
  · rintro ⟨d, h⟩
    obtain ⟨gap, rest, severity, file, message, row, column, blank, word, whole, read, -⟩ :=
      ofLine?_eq_some_iff.1 h
    obtain ⟨name, behind, rfl, found⟩ := (isSome_readFile_iff [] rest).1 (Option.isSome_of_eq_some read)
    obtain ⟨found, readBehind⟩ := Option.isSome_iff_exists.1 found
    obtain ⟨rowDigits, columnDigits, text, hrow, hcolumn, rfl, -⟩ := readBehindFile_eq_some_iff.1 readBehind
    have inside : ∀ c, c ∈ name ∨ c ∈ text.toList → c ∈ line.toList := by
      intro c hc
      have within : (Text.trim line).toList <:+: line.toList := by
        rw [Text.toList_trim]
        exact (List.rdropWhile_prefix _ _).isInfix.trans (List.dropWhile_suffix _).isInfix
      refine within.subset ?_
      rw [whole]
      rcases hc with hc | hc <;> simp [behindFile, hc]
    have form := Reports.intro blank word (fun h => short (inside _ (.inl h))) hrow hcolumn
      (fun h => short (inside _ (.inr h))) (List.forall_mem_nil _)
    rw [List.append_nil] at form
    exact whole ▸ form
  · intro h
    generalize cut : (Text.trim line).toList = trimmed at h
    obtain ⟨blank, word, -, hrow, hcolumn, -, ends⟩ := h
    rename_i gap severity file row column message tail
    have whole : (Text.trim line).toList = lineOf gap severity file row column message := by
      rw [← Text.trim_trim, ← String.ofList_toList (s := Text.trim line), cut]
      exact toList_trim_lineOf _ _ _ _ _ _ ends
    have readBehind : readBehindFile (behindFile row column message) = some _ :=
      readBehindFile_eq_some_iff.2 ⟨String.ofList row, String.ofList column, String.ofList message,
        by rwa [String.toList_ofList], by rwa [String.toList_ofList], by simp only [String.toList_ofList], rfl⟩
    obtain ⟨⟨name, r, c, text⟩, read⟩ := Option.isSome_iff_exists.1 ((isSome_readFile_iff [] _).2
      ⟨file, _, rfl, Option.isSome_of_eq_some readBehind⟩)
    refine ⟨_, ofLine?_eq_some_iff.2 ⟨gap, _, String.ofList severity, name, text, r, c, blank, ?_, ?_, read, rfl⟩⟩
    · rwa [String.toList_ofList]
    · rw [String.toList_ofList]
      exact whole

/-! ## Numbers and messages -/

theorem numberOf_toString {n : Nat} (h : n ≤ mostNumber) : numberOf (toString n) = n := by
  have digits : (toString n).toNat? = some n := Nat.toNat?_repr n
  rw [numberOf, digits]
  exact if_pos h

theorem isRun_toString (n : Nat) : IsRun Text.isDigit (toString n).toList := by
  have decimal : (toString n).toList = Nat.toDigits 10 n := Nat.toList_repr
  rw [decimal]
  refine ⟨Nat.toDigits_ne_nil, fun c hc => ?_⟩
  have digit := Nat.isDigit_of_mem_toDigits (by decide) (by decide) hc
  rw [Char.isDigit, Bool.and_eq_true, decide_eq_true_eq, decide_eq_true_eq] at digit
  have low : 48 ≤ c.toNat := UInt32.le_iff_toNat_le.1 digit.1
  have high : c.toNat ≤ 57 := UInt32.le_iff_toNat_le.1 digit.2
  rw [Text.isDigit, Text.inRanges, List.any_eq_true]
  exact ⟨(0x30, 0x39), List.mem_cons_self, by simp [low, high]⟩

/-- A message as it is written, with a backslash in front of every quote. -/
def quoted (message : List Char) : List Char :=
  message.flatMap fun c => if c = '\x22' then ['\\', '\x22'] else [c]

theorem head?_quoted_ne (message : List Char) : (quoted message).head? ≠ some '\x22' := by
  cases message with
  | nil => exact nofun
  | cons c cs =>
    rw [quoted, List.flatMap_cons]
    by_cases quote : c = '\x22' <;> simp [quote]

theorem unquote_cons_of_ne {c : Char} {cs : List Char} (other : cs.head? ≠ some '\x22') :
    unquote (c :: cs) = c :: unquote cs := by
  rw [unquote]
  rintro cs rfl rfl
  exact other rfl

theorem unquote_quoted (message : List Char) : unquote (quoted message) = message := by
  induction message with
  | nil => rfl
  | cons c cs ih =>
    rw [quoted, List.flatMap_cons]
    by_cases quote : c = '\x22'
    · rw [if_pos quote, quote]
      exact congrArg ('\x22' :: ·) ih
    · rw [if_neg quote, List.singleton_append]
      exact (unquote_cons_of_ne (head?_quoted_ne cs)).trans (congrArg (c :: ·) ih)

/-! ## Ranges -/

theorem utf16Size_of_isNamePart {c : Char} (h : isNamePart c = true) : utf16Size c = 1 := by
  refine if_pos ?_
  rw [isNamePart, Bool.or_eq_true, Bool.or_eq_true, Bool.or_eq_true, beq_iff_eq, beq_iff_eq, beq_iff_eq] at h
  rcases h with ((alphanum | rfl) | rfl) | rfl
  · exact Nat.lt_trans (Text.toNat_lt_of_isAlphanum alphanum) (by decide)
  all_goals decide

/-- A name that stands at a column ends inside of the line. -/
theorem add_length_name_le (line : List Char) (column : Nat) :
    column + ((dropWithin utf16Size column line).takeWhile isNamePart).length ≤
      max column (utf16Length line) := by
  induction line generalizing column with
  | nil => exact Nat.le_max_left _ _
  | cons c line ih =>
    have size : utf16Length (c :: line) = utf16Size c + utf16Length line := rfl
    rw [dropWithin]
    split
    next fits =>
      have rest := ih (column - utf16Size c)
      omega
    next wide =>
      -- A part of a name is one unit wide, so it does not reach over the column.
      by_cases part : isNamePart c = true
      · have unit := utf16Size_of_isNamePart part
        have name := (List.takeWhile_prefix isNamePart (l := c :: line)).length_le
        have units := length_le_utf16Length (c :: line)
        omega
      · rw [List.takeWhile_cons_of_neg part]
        exact Nat.le_max_left _ _

/-- The range of a problem that stands at coordinates of 32 bits has such coordinates, in a line that is
shorter than 2 ^ 32 bytes. -/
theorem storable_range {d : Diagnostic} (hline : d.line ≤ mostCoordinate)
    (hcolumn : ∀ column ∈ d.column?, column < mostCoordinate) {line? : Option String}
    (short : ∀ line ∈ line?, line.utf8ByteSize ≤ mostCoordinate) : (d.range line?).Storable := by
  have storable : ∀ start stop : Nat, start ≤ mostCoordinate → stop ≤ mostCoordinate →
      (Range.of d.line start d.line stop).Storable :=
    fun _ _ hstart hstop => ⟨⟨hline, hstart⟩, hline, hstop⟩
  rw [range]
  split
  next =>
    refine storable _ _ (Nat.zero_le _) ?_
    cases line? with
    | none => exact Nat.zero_le _
    | some line =>
      obtain ⟨tail, whole⟩ := Text.toList_trimRight (· == '\r') line
      have bytes := utf8Length_mono (List.prefix_append (Text.trimRight (· == '\r') line).toList tail)
      rw [← whole, utf8Length_toList line] at bytes
      have units := utf16Length_le_utf8Length (Text.trimRight (· == '\r') line).toList
      rw [Option.map_some, Option.getD_some]
      exact (units.trans bytes).trans (short line rfl)
  next column named =>
    have start := hcolumn column named
    refine storable _ _ (Nat.le_of_lt start) ?_
    cases line? with
    | none => exact start
    | some line =>
      have name := add_length_name_le line.toList column
      have bytes := utf16Length_le_utf8Length line.toList
      rw [utf8Length_toList] at bytes
      have size := short line rfl
      rw [Option.map_some, Option.getD_some, columnsAt]
      omega

end Diagnostic

namespace Report

/-- A problem as the compiler counts it. -/
structure Entry where
  severity : String
  file : String
  line : Nat
  column : Nat
  message : String
  severity_word : Diagnostic.IsRun Text.isWord severity.toList
  file_plain : '\x22' ∉ file.toList ∧ '\n' ∉ file.toList
  line_lt : line < 2 ^ 32
  column_lt : column < 2 ^ 32
  message_short : '\n' ∉ message.toList

namespace Entry

/-- The line that tells a problem. -/
def chars (e : Entry) : List Char :=
  Diagnostic.lineOf [' '] e.severity.toList e.file.toList (toString e.line).toList (toString e.column).toList
    (Diagnostic.quoted e.message.toList)

/-- The problem that is told. -/
def diagnostic (e : Entry) : Diagnostic :=
  .counted e.severity e.file e.line e.column e.message

end Entry

/-- A line of the compiler's output, with a carriage return at its end or without. -/
inductive OutputLine where
  | entry (e : Entry) (carriage : Bool)
  | other (text : String) (short : '\n' ∉ text.toList)
    (foreign : ¬ Diagnostic.Reports (Text.trim text).toList)

namespace OutputLine

/-- The text of a line. -/
def chars : OutputLine → List Char
  | entry e carriage => e.chars ++ if carriage then ['\r'] else []
  | other text _ _ => text.toList

/-- The problem that a line tells. -/
def entry? : OutputLine → Option Entry
  | entry e _ => some e
  | other _ _ _ => none

end OutputLine

/-- The output of the given lines. -/
def written (ls : List OutputLine) : String :=
  String.ofList (['\n'].intercalate (ls.map OutputLine.chars))

/-- The problems that the lines tell, in their order. -/
def entries (ls : List OutputLine) : List Entry :=
  ls.filterMap OutputLine.entry?

namespace Entry

theorem column_lt_of_diagnostic {e : Entry} {column : Nat} (h : column ∈ e.diagnostic.column?) :
    column < mostCoordinate := by
  have small := e.column_lt
  have counted : column ∈ if e.column = 0 then none else some (e.column - 1) := h
  split at counted
  next => cases counted
  next =>
    cases counted
    rw [mostCoordinate]
    omega

/-- The line of a problem is read, whatever white space follows. -/
theorem ofLine?_chars (e : Entry) {blank : List Char} (h : ∀ c ∈ blank, Text.isSpace c = true) :
    Diagnostic.ofLine? (String.ofList (e.chars ++ blank)) = some e.diagnostic := by
  have file := Diagnostic.readFile_append e.file_plain.1 (Diagnostic.readBehindFile_eq_some_iff.2
    ⟨toString e.line, toString e.column, String.ofList (Diagnostic.quoted e.message.toList),
      Diagnostic.isRun_toString _, Diagnostic.isRun_toString _, rfl, rfl⟩) []
  refine Diagnostic.ofLine?_eq_some_iff.2 ⟨[' '], _, e.severity, _, _, _, _,
    List.forall_mem_singleton.2 rfl, e.severity_word, ?_, file, ?_⟩
  · rw [chars, Diagnostic.toList_trim_lineOf _ _ _ _ _ _ h, String.toList_ofList]
    rfl
  · have line := Diagnostic.numberOf_toString (n := e.line) (Nat.le_of_lt_succ e.line_lt)
    have column := Diagnostic.numberOf_toString (n := e.column) (Nat.le_of_lt_succ e.column_lt)
    rw [line, column, String.toList_ofList, Diagnostic.unquote_quoted, String.ofList_toList, List.reverse_nil,
      List.nil_append, String.ofList_toList]
    rfl

theorem short_chars (e : Entry) : '\n' ∉ e.chars := by
  have word := e.severity_word.not_mem Diagnostic.isWord_newline
  have digits := fun n => (Diagnostic.isRun_toString n).not_mem (c := '\n') (by decide)
  have message : '\n' ∉ Diagnostic.quoted e.message.toList := by
    intro h
    obtain ⟨c, hc, written⟩ := List.mem_flatMap.1 h
    split at written
    next => exact absurd written (by decide)
    next => exact e.message_short (List.mem_singleton.1 written ▸ hc)
  simp only [chars, Diagnostic.lineOf, Diagnostic.behindFile, List.mem_cons, List.mem_append, not_or]
  exact ⟨by decide, ⟨by decide, List.not_mem_nil⟩, by decide, word, by decide, e.file_plain.2, by decide,
    digits _, by decide, digits _, by decide, message, by decide, List.not_mem_nil⟩

end Entry

namespace OutputLine

theorem ofLine?_chars (l : OutputLine) :
    Diagnostic.ofLine? (String.ofList l.chars) = l.entry?.map Entry.diagnostic := by
  cases l with
  | entry e carriage =>
    cases carriage with
    | true => exact e.ofLine?_chars (List.forall_mem_singleton.2 rfl)
    | false => exact e.ofLine?_chars (List.forall_mem_nil _)
  | other text short foreign =>
    have unread := (Diagnostic.isSome_ofLine?_iff short).not.2 foreign
    rw [chars, String.ofList_toList]
    exact Option.not_isSome_iff_eq_none.1 unread

theorem short_chars (l : OutputLine) : '\n' ∉ l.chars := by
  cases l with
  | entry e carriage =>
    rw [chars, List.mem_append, not_or]
    exact ⟨e.short_chars, by cases carriage <;> decide⟩
  | other text short _ => exact short

end OutputLine

/-- Lines of which some tell problems are a report of these problems. -/
theorem parse_intercalate {css : List (List Char)} (short : ∀ cs ∈ css, '\n' ∉ cs) {ds : List Diagnostic}
    (read : css.filterMap (fun cs => Diagnostic.ofLine? (String.ofList cs)) = ds) (nonempty : ds ≠ []) :
    Report.parse (String.ofList (['\n'].intercalate css)) = .ok ⟨ds⟩ := by
  have found : (Text.lines [] (['\n'].intercalate css)).filterMap Diagnostic.ofLine? = ds :=
    (Text.filterMap_lines (fun _ _ => Diagnostic.ofLine?_eq_of_trim) rfl css short).trans read
  rw [parse, String.toList_ofList, found, List.isEmpty_eq_false_iff.2 nonempty, Bool.false_and]
  rfl

/-- Of the lines that the compiler writes exactly the problems are read, in their order. The range of each
is one of 32 bits, whatever the text of its line. -/
theorem parse_written (ls : List OutputLine) (nonempty : entries ls ≠ []) :
    Report.parse (written ls) = .ok ⟨(entries ls).map Entry.diagnostic⟩ ∧
      ∀ e ∈ entries ls, ∀ line? : Option String, (∀ line ∈ line?, line.utf8ByteSize < 2 ^ 32) →
        (e.diagnostic.range line?).Storable := by
  constructor
  · refine parse_intercalate (List.forall_mem_map.2 fun l _ => l.short_chars) ?_
      fun none => nonempty (List.map_eq_nil_iff.1 none)
    rw [List.filterMap_map, entries, List.map_filterMap]
    exact List.filterMap_congr fun l _ => l.ofLine?_chars
  · intro e _ line? bytes
    have line : e.line - 1 ≤ mostCoordinate := (Nat.sub_le _ _).trans (Nat.le_of_lt_succ e.line_lt)
    exact Diagnostic.storable_range line (fun _ => e.column_lt_of_diagnostic)
      fun line h => Nat.le_of_lt_succ (bytes line h)

/-- A problem of a whole line, the last one that can be told, with marks of the report in its file and its
message. -/
def lastLine : Entry where
  severity := "warning"
  file := "/ws/a|1|2|b.c3"
  line := 4294967295
  column := 0
  message := "found \"|7|8|\" and \\"
  severity_word := ⟨by decide, List.all_eq_true.1 (by decide)⟩
  file_plain := by decide
  line_lt := by decide
  column_lt := by decide
  message_short := by decide

/-- A line of another form, and a problem with a carriage return behind it. -/
def shortOutput : List OutputLine :=
  [.other "1 error" (by decide) fun h => absurd h.head? (by decide), .entry lastLine true]

theorem parse_written_lastLine :
    entries shortOutput ≠ [] ∧
      Report.parse (written shortOutput) =
        .ok ⟨[⟨"/ws/a|1|2|b.c3", 4294967294, none, .warning, "found \"|7|8|\" and \\"⟩]⟩ ∧
      "fn void main()".utf8ByteSize < 2 ^ 32 ∧
      (lastLine.diagnostic.range (some "fn void main()")).Storable := by
  have read := parse_written shortOutput (by decide)
  refine ⟨by decide, read.1.trans (by decide), by decide, read.2 lastLine ?_ _ ?_⟩
  · exact List.mem_singleton_self _
  · intro line same
    cases same
    decide

/-- A problem at the first place of a file. -/
def firstPlace : Entry where
  severity := "error"
  file := "a.c3"
  line := 1
  column := 1
  message := "x"
  severity_word := ⟨by decide, List.all_eq_true.1 (by decide)⟩
  file_plain := by decide
  line_lt := by decide
  column_lt := by decide
  message_short := by decide

/-- A problem in a line that begins with a blank is read too, though the line has not the form of a report
as it stands. -/
theorem parse_indented :
    ¬ Diagnostic.Reports " > LSPERR|error|\"a.c3\"|1|1|\"x\"".toList ∧
      Report.parse "> LSPERR|error|\"a.c3\"|1|1|\"x\"\n > LSPERR|error|\"a.c3\"|1|1|\"x\"" =
        .ok ⟨[⟨"a.c3", 0, some 0, .error, "x"⟩, ⟨"a.c3", 0, some 0, .error, "x"⟩]⟩ := by
  refine ⟨fun h => absurd h.head? (by decide), ?_⟩
  have text : "> LSPERR|error|\"a.c3\"|1|1|\"x\"\n > LSPERR|error|\"a.c3\"|1|1|\"x\"" =
      String.ofList (['\n'].intercalate [firstPlace.chars, ' ' :: firstPlace.chars]) := by decide
  have first : Diagnostic.ofLine? (String.ofList firstPlace.chars) = some firstPlace.diagnostic := by
    rw [← List.append_nil firstPlace.chars]
    exact firstPlace.ofLine?_chars (List.forall_mem_nil _)
  have second : Diagnostic.ofLine? (String.ofList (' ' :: firstPlace.chars)) = some firstPlace.diagnostic :=
    (Diagnostic.ofLine?_eq_of_trim (Text.trim_cons rfl _)).trans first
  have short : ∀ cs ∈ [firstPlace.chars, ' ' :: firstPlace.chars], '\n' ∉ cs := by
    simp [firstPlace.short_chars]
  have read : [firstPlace.chars, ' ' :: firstPlace.chars].filterMap
      (fun cs => Diagnostic.ofLine? (String.ofList cs)) = [firstPlace.diagnostic, firstPlace.diagnostic] := by
    simp only [List.filterMap_cons, first, second, List.filterMap_nil]
  rw [text]
  exact (parse_intercalate short read (List.cons_ne_nil _ _)).trans (by decide)

end Report

end C3Lens
