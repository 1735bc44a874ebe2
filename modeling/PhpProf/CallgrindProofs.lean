import PhpProf.Sampling

/-! What a reader gets back from `callgrind.out`. The record section is compared
with a grammar that admits any bytes but a newline in a name; the whole file is
read line by line, the way a profile viewer does. -/
namespace PhpProf.CallgrindProofs
open Text

/-- One record of the file. The line is a signed number, as it is printed. -/
structure Record where
  file : Bytes
  function : Bytes
  line : Int
  hits : Nat
  deriving DecidableEq

/-- The grammar of the section after the header: `fl=<file>`, `fn=<function>`
and `<line> <hits>`, each on a line of its own, and an empty line. -/
inductive RecordSection : Bytes → List Record → Prop where
  | done : RecordSection [] []
  | record (fileLine : newline ∉ file) (functionLine : newline ∉ function)
      (lineNumeral : Numeral lineText line) (hitsNumeral : Numeral hitsText hits)
      (rest : RecordSection text records) :
      RecordSection
        (ascii "fl=" ++ (file ++ newline :: (ascii "fn=" ++ (function ++ newline ::
          (lineText ++ space :: (hitsText ++ newline :: newline :: text))))))
        (⟨file, function, line, hits⟩ :: records)

/-- What the table has to say about one unit. -/
def unitRecord (entry : Bytes × ProfSamplingUnit) : Record where
  file := entry.2.filename.val
  function := entry.1
  line := entry.2.lineno.toNat
  hits := entry.2.hits.toNat

/-- The units with more hits than the threshold, in table order. -/
def keptUnits (samplingThreshold : UInt64) (samplingUnits : OrderedTable Bytes ProfSamplingUnit) :
    List (Bytes × ProfSamplingUnit) :=
  samplingUnits.entries.filter fun entry => entry.2.hits > samplingThreshold

def keptRecords (globals : ProfGlobals) : List Record :=
  (keptUnits globals.config.samplingThreshold globals.samplingUnits).map unitRecord

/-- A name that fits on a line of its own and that C prints whole. -/
def OnOneLine (name : Bytes) : Prop := newline ∉ name ∧ 0 ∉ name

instance : Decidable (OnOneLine name) := inferInstanceAs (Decidable (_ ∧ _))

/-- All names fit on a line, and every line number prints without a sign. -/
def ReadableUnits (samplingUnits : OrderedTable Bytes ProfSamplingUnit) : Prop :=
  ∀ entry ∈ samplingUnits.entries,
    OnOneLine entry.1 ∧ OnOneLine entry.2.filename.val ∧ entry.2.lineno.toNat < 2 ^ 31

instance : Decidable (ReadableUnits samplingUnits) :=
  inferInstanceAs (Decidable (∀ entry ∈ samplingUnits.entries, _ ∧ _ ∧ _))

/-! ## The record section -/

/-- The section is the concatenation of the kept units' records. -/
theorem callgrindRecords_eq (samplingThreshold : UInt64)
    (samplingUnits : OrderedTable Bytes ProfSamplingUnit) :
    callgrindRecords samplingThreshold samplingUnits =
      (keptUnits samplingThreshold samplingUnits).flatMap fun entry =>
        callgrindRecord entry.1 entry.2 := by
  rw [callgrindRecords, keptUnits]
  induction samplingUnits.entries with
  | nil => rfl
  | cons entry rest ih =>
    rw [List.flatMap_cons, List.filter_cons, ih]
    by_cases low : entry.2.hits ≤ samplingThreshold
    · simp [low, UInt64.not_lt.mpr low]
    · simp [low, UInt64.not_le.mp low]

/-- A record as the grammar spells it, with what C prints of the names. -/
theorem callgrindRecord_spelling (functionName : Bytes) (unit : ProfSamplingUnit) (text : Bytes) :
    callgrindRecord functionName unit ++ text =
      ascii "fl=" ++ (cString unit.filename.val ++ newline :: (ascii "fn=" ++
        (cString functionName ++ newline :: (signedDecimal unit.lineno.toInt32.toInt ++ space ::
          (decimal unit.hits.toNat ++ newline :: newline :: text))))) := by
  have fn : ascii "\nfn=" = newline :: ascii "fn=" := rfl
  have feed : ascii "\n" = [newline] := rfl
  have gap : ascii " " = [space] := rfl
  have blank : ascii "\n\n" = [newline, newline] := rfl
  simp [callgrindRecord, fn, feed, gap, blank]

/-- `%d` prints a line number below 2^31 as it is. -/
theorem printed_lineno {lineno : UInt32} (small : lineno.toNat < 2 ^ 31) :
    lineno.toInt32.toInt = (lineno.toNat : Int) := by
  have half : 2 * lineno.toBitVec.toNat < 2 ^ 32 := by
    simp only [UInt32.toNat_toBitVec]
    omega
  exact BitVec.toInt_eq_toNat_of_lt half

theorem section_of_units {entries : List (Bytes × ProfSamplingUnit)}
    (readable : ∀ entry ∈ entries,
      OnOneLine entry.1 ∧ OnOneLine entry.2.filename.val ∧ entry.2.lineno.toNat < 2 ^ 31) :
    RecordSection (entries.flatMap fun entry => callgrindRecord entry.1 entry.2)
      (entries.map unitRecord) := by
  induction entries with
  | nil => exact .done
  | cons entry rest ih =>
    obtain ⟨name, file, small⟩ := readable entry (by simp)
    have line : Numeral (signedDecimal entry.2.lineno.toInt32.toInt) entry.2.lineno.toNat := by
      rw [printed_lineno small]
      exact numeral_decimal _
    have below := ih fun other member => readable other (List.mem_cons_of_mem _ member)
    rw [List.flatMap_cons, List.map_cons, callgrindRecord_spelling, cString_of_no_nul file.2,
      cString_of_no_nul name.2]
    exact .record file.1 name.1 line (numeral_decimal _) below

/-- No text has two readings. Each field ends at the first stop byte after it,
and the stop byte cannot be part of the field. -/
theorem section_unique {text : Bytes} {records others : List Record}
    (first : RecordSection text records) (second : RecordSection text others) :
    records = others := by
  induction first generalizing others with
  | done =>
    generalize whole : ([] : Bytes) = text at second
    cases second with
    | done => rfl
    | record => simp [ascii] at whole
  | @record file function lineText line hitsText hits text records fileLine functionLine
      lineNumeral hitsNumeral rest ih =>
    generalize whole : ascii "fl=" ++ (file ++ newline :: (ascii "fn=" ++ (function ++ newline ::
      (lineText ++ space :: (hitsText ++ newline :: newline :: text))))) = spelled at second
    cases second with
    | done => simp [ascii] at whole
    | record otherFile otherFunction otherLine otherHits otherRest =>
      obtain ⟨rfl, afterFile⟩ := cut_unique fileLine otherFile (List.append_cancel_left whole)
      obtain ⟨rfl, afterFunction⟩ :=
        cut_unique functionLine otherFunction (List.append_cancel_left afterFile)
      obtain ⟨rfl, afterLine⟩ :=
        cut_unique (lineNumeral.not_mem space_not_digit) (otherLine.not_mem space_not_digit)
          afterFunction
      obtain ⟨rfl, afterHits⟩ :=
        cut_unique (hitsNumeral.not_mem newline_not_digit) (otherHits.not_mem newline_not_digit)
          afterLine
      obtain rfl := List.tail_eq_of_cons_eq afterHits
      rw [lineNumeral.unique otherLine, hitsNumeral.unique otherHits, ih otherRest]

theorem records_section {globals : ProfGlobals} (readable : ReadableUnits globals.samplingUnits) :
    RecordSection (callgrindRecords globals.config.samplingThreshold globals.samplingUnits)
      (keptRecords globals) := by
  rw [callgrindRecords_eq]
  exact section_of_units fun entry member => readable entry (List.mem_of_mem_filter member)

/-- What follows the header has exactly one reading, the kept units in table
order; so two tables that keep different lists never print the same section. -/
theorem callgrind_records_read_back (argv : List Bytes) (globals other : ProfGlobals)
    (readable : ReadableUnits globals.samplingUnits)
    (otherReadable : ReadableUnits other.samplingUnits) :
    ∃ written otherWritten,
      profSamplingPrintResultCallgrind argv true globals =
        (globals, some (callgrindHeader argv ++ written)) ∧
      profSamplingPrintResultCallgrind argv true other =
        (other, some (callgrindHeader argv ++ otherWritten)) ∧
      (∀ records, RecordSection written records ↔ records = keptRecords globals) ∧
      (keptRecords globals ≠ keptRecords other → written ≠ otherWritten) := by
  refine ⟨_, _, rfl, rfl, fun records => ⟨fun reading => ?_, ?_⟩, fun different same => ?_⟩
  · exact section_unique reading (records_section readable)
  · rintro rfl
    exact records_section readable
  · have reading := records_section readable
    rw [same] at reading
    exact different (section_unique reading (records_section otherReadable))

def callgrindConfig : ProfConfig := ⟨.sampling, .callgrind, 1000, 20, 1, 50, 0, 0⟩

/-- One unit above the threshold, under a name that looks like a field. -/
def fieldLikeUnits : OrderedTable Bytes ProfSamplingUnit :=
  .add .empty (ascii "fn=1 2") ⟨7, ⟨1, ascii "/a b.php"⟩, 3⟩

def fieldLikeGlobals : ProfGlobals :=
  { ProfGlobals.fresh callgrindConfig with samplingUnits := fieldLikeUnits }

/-- Three units, of which one has been hit only once. -/
def mixedGlobals : ProfGlobals :=
  { fieldLikeGlobals with
    samplingUnits := .add (.add fieldLikeUnits (ascii "once") ⟨1, ⟨1, ascii "/a b.php"⟩, 8⟩)
      (ascii "fl=b.php") ⟨12, ⟨2, ascii "7 7.php"⟩, 90⟩ }

theorem field_like_names_read_back :
    ∃ written otherWritten,
      profSamplingPrintResultCallgrind [ascii "a.php"] true fieldLikeGlobals =
        (fieldLikeGlobals, some (callgrindHeader [ascii "a.php"] ++ written)) ∧
      profSamplingPrintResultCallgrind [ascii "a.php"] true mixedGlobals =
        (mixedGlobals, some (callgrindHeader [ascii "a.php"] ++ otherWritten)) ∧
      RecordSection otherWritten
        [⟨ascii "/a b.php", ascii "fn=1 2", 3, 7⟩, ⟨ascii "7 7.php", ascii "fl=b.php", 90, 12⟩] ∧
      written ≠ otherWritten := by
  have kept : keptRecords mixedGlobals = [⟨ascii "/a b.php", ascii "fn=1 2", 3, 7⟩,
      ⟨ascii "7 7.php", ascii "fl=b.php", 90, 12⟩] := by decide
  obtain ⟨otherWritten, written, otherPrinted, printed, reading, apart⟩ :=
    callgrind_records_read_back [ascii "a.php"] mixedGlobals fieldLikeGlobals (by decide)
      (by decide)
  have different : keptRecords mixedGlobals ≠ keptRecords fieldLikeGlobals := by decide
  exact ⟨written, otherWritten, printed, otherPrinted, (reading _).mpr kept.symm,
    (apart different).symm⟩

/-! ## Reading the whole file -/

/-- The value of a `key=value` line. -/
def readField (key : Bytes) (line : Bytes) : Option Bytes :=
  if key.isPrefixOf line then some (line.drop key.length) else none

/-- A line of a line number and a number of hits. -/
def readCost (line : Bytes) : Option (Int × Nat) :=
  match readInt (line.takeWhile (· ≠ space)), readNat (line.dropWhile (· ≠ space)).tail with
  | some lineno, some hits => some (lineno, hits)
  | _, _ => none

/-- The record that starts at a line, given the lines after it. -/
def readRecord (line : Bytes) : List Bytes → Option Record
  | functionLine :: costLine :: _ =>
    match readField (ascii "fl=") line, readField (ascii "fn=") functionLine,
        readCost costLine with
    | some file, some function, some (lineno, hits) => some ⟨file, function, lineno, hits⟩
    | _, _, _ => none
  | _ => none

/-- Every record of the lines of a file. -/
def readRecords : List Bytes → List Record
  | [] => []
  | line :: rest => (readRecord line rest).toList ++ readRecords rest

/-- The records that the line of the command spells, once it is cut into lines. -/
def spelledRecords (argv : List Bytes) : List Record :=
  readRecords (splitLines (ascii "cmd: " ++ commandLine argv))

/-- A line that is no part of any record. -/
structure Barrier (line : Bytes) : Prop where
  notFile : readField (ascii "fl=") line = none
  notFunction : readField (ascii "fn=") line = none
  notCost : readCost line = none

theorem readRecord_of_no_file {line : Bytes} (notFile : readField (ascii "fl=") line = none)
    (after : List Bytes) : readRecord line after = none := by
  rcases after with _ | ⟨second, _ | ⟨third, rest⟩⟩ <;> simp [readRecord, notFile]

/-- No record reaches across a barrier, so the two sides are read apart. -/
theorem readRecords_barrier {line : Bytes} (barrier : Barrier line) (before after : List Bytes) :
    readRecords (before ++ line :: after) = readRecords before ++ readRecords after := by
  have atBarrier := readRecord_of_no_file barrier.notFile after
  induction before with
  | nil => simp [readRecords, atBarrier]
  | cons first before ih =>
    have here : readRecord first (before ++ line :: after) = readRecord first before := by
      rcases before with _ | ⟨second, _ | ⟨third, rest⟩⟩
      · cases after <;> simp [readRecord, barrier.notFunction]
      · simp [readRecord, barrier.notCost]
      · rfl
    rw [List.cons_append, readRecords, ih, here, readRecords, List.append_assoc]

theorem readCost_eq {lineText hitsText : Bytes} {line : Int} {hits : Nat}
    (read : readInt lineText = some line) (unspaced : space ∉ lineText)
    (numeral : Numeral hitsText hits) :
    readCost (lineText ++ space :: hitsText) = some (line, hits) := by
  have all : ∀ byte ∈ lineText, decide (byte ≠ space) = true := by
    intro byte member
    simpa using fun same : byte = space => unspaced (same ▸ member)
  have front : (lineText ++ space :: hitsText).takeWhile (· ≠ space) = lineText := by
    rw [List.takeWhile_append_of_pos all]
    simp
  have back : (lineText ++ space :: hitsText).dropWhile (· ≠ space) = space :: hitsText := by
    rw [List.dropWhile_append_of_pos all]
    simp
  rw [readCost, front, back, read, List.tail_cons, readNat_of_numeral numeral]

/-- What is printed of a unit. -/
def printedRecord (entry : Bytes × ProfSamplingUnit) : Record where
  file := cString entry.2.filename.val
  function := cString entry.1
  line := entry.2.lineno.toInt32.toInt
  hits := entry.2.hits.toNat

/-- The names of the table stay on their lines. -/
def UnbrokenNames (samplingUnits : OrderedTable Bytes ProfSamplingUnit) : Prop :=
  ∀ entry ∈ samplingUnits.entries, newline ∉ entry.1 ∧ newline ∉ entry.2.filename.val

instance : Decidable (UnbrokenNames samplingUnits) :=
  inferInstanceAs (Decidable (∀ entry ∈ samplingUnits.entries, _ ∧ _))

theorem readField_key (key value : Bytes) : readField key (key ++ value) = some value := by
  simp [readField]

theorem readField_missing {key line : Bytes} {byte : UInt8} (needed : byte ∈ key)
    (missing : byte ∉ line) : readField key line = none := by
  rw [readField, if_neg]
  intro starts
  exact missing ((List.isPrefixOf_iff_prefix.mp starts).mem needed)

theorem readRecords_record {file function cost : Bytes} {line : Int} {hits : Nat}
    (read : readCost cost = some (line, hits)) (noFile : readField (ascii "fl=") cost = none)
    (lines : List Bytes) :
    readRecords ((ascii "fl=" ++ file) :: (ascii "fn=" ++ function) :: cost :: [] :: lines) =
      ⟨file, function, line, hits⟩ :: readRecords lines := by
  have first : readRecord (ascii "fl=" ++ file)
      ((ascii "fn=" ++ function) :: cost :: [] :: lines) =
        some ⟨file, function, line, hits⟩ := by
    simp only [readRecord, readField_key, read]
  have notFile : readField (ascii "fl=") (ascii "fn=" ++ function) = none := rfl
  have blank : readField (ascii "fl=") [] = none := rfl
  have atFunction := readRecord_of_no_file notFile (cost :: [] :: lines)
  have atCost := readRecord_of_no_file noFile ([] :: lines)
  have atBlank := readRecord_of_no_file blank lines
  simp only [readRecords, first, atFunction, atCost, atBlank, Option.toList_some,
    Option.toList_none, List.nil_append, List.singleton_append]

/-- The third line of a printed record. -/
def costLine (unit : ProfSamplingUnit) : Bytes :=
  signedDecimal unit.lineno.toInt32.toInt ++ space :: decimal unit.hits.toNat

theorem costLine_not_mem (unit : ProfSamplingUnit) {byte : UInt8} (other : isDigit byte = false)
    (unsigned : byte ≠ minus) (unspaced : byte ≠ space) : byte ∉ costLine unit := by
  apply List.not_mem_append
  · exact signedDecimal_not_mem _ other unsigned
  · exact List.not_mem_cons_of_ne_of_not_mem unspaced ((numeral_decimal _).not_mem other)

theorem readCost_costLine (unit : ProfSamplingUnit) :
    readCost (costLine unit) = some (unit.lineno.toInt32.toInt, unit.hits.toNat) := by
  apply readCost_eq
  · exact readInt_signedDecimal _
  · exact signedDecimal_not_mem _ space_not_digit (by decide)
  · exact numeral_decimal _

/-- The `f` of a field name is never part of the two numbers. -/
theorem costLine_no_file (unit : ProfSamplingUnit) :
    readField (ascii "fl=") (costLine unit) = none := by
  have needed : (102 : UInt8) ∈ ascii "fl=" := List.mem_cons_self
  apply readField_missing needed
  exact costLine_not_mem unit rfl (by decide) (by decide)

/-- A printed record is four lines, whatever text follows it. -/
theorem splitLines_record {functionName : Bytes} {unit : ProfSamplingUnit}
    (name : newline ∉ functionName) (file : newline ∉ unit.filename.val) (text : Bytes) :
    splitLines (callgrindRecord functionName unit ++ text) =
      (ascii "fl=" ++ cString unit.filename.val) :: (ascii "fn=" ++ cString functionName) ::
        costLine unit :: [] :: splitLines text := by
  have fileLine : newline ∉ ascii "fl=" ++ cString unit.filename.val :=
    List.not_mem_append (by decide) fun member => file (mem_of_mem_cString member)
  have functionLine : newline ∉ ascii "fn=" ++ cString functionName :=
    List.not_mem_append (by decide) fun member => name (mem_of_mem_cString member)
  have numbers : newline ∉ costLine unit :=
    costLine_not_mem unit newline_not_digit (by decide) (by decide)
  have spelled : callgrindRecord functionName unit ++ text =
      (ascii "fl=" ++ cString unit.filename.val) ++ newline ::
        ((ascii "fn=" ++ cString functionName) ++ newline ::
          (costLine unit ++ newline :: ([] ++ newline :: text))) := by
    rw [callgrindRecord_spelling, costLine]
    simp only [List.append_assoc, List.cons_append, List.nil_append]
  rw [spelled, splitLines_line fileLine, splitLines_line functionLine, splitLines_line numbers,
    splitLines_line List.not_mem_nil]

/-- The lines of the record section read back as what was printed. -/
theorem readRecords_section {entries : List (Bytes × ProfSamplingUnit)}
    (unbroken : ∀ entry ∈ entries, newline ∉ entry.1 ∧ newline ∉ entry.2.filename.val) :
    readRecords (splitLines (entries.flatMap fun entry => callgrindRecord entry.1 entry.2)) =
      entries.map printedRecord := by
  induction entries with
  | nil => rfl
  | cons entry rest ih =>
    obtain ⟨name, file⟩ := unbroken entry (by simp)
    have below := ih fun other member => unbroken other (List.mem_cons_of_mem _ member)
    rw [List.flatMap_cons, splitLines_record name file,
      readRecords_record (readCost_costLine entry.2) (costLine_no_file entry.2), below]
    rfl

/-- A reader of the whole file meets the records the command line spells, then
those of what follows the header. -/
theorem readRecords_file (argv : List Bytes) (text : Bytes) :
    readRecords (splitLines (callgrindHeader argv ++ text)) =
      spelledRecords argv ++ readRecords (splitLines text) := by
  have lines : splitLines (callgrindHeader argv ++ text) =
      ascii "# callgrind format" :: ascii "version: 1" ::
        (splitLines (ascii "cmd: " ++ commandLine argv) ++
          ascii "part: 1" :: [] :: ascii "events: Hits" :: [] :: splitLines text) := by
    have top : ascii "# callgrind format\nversion: 1\ncmd: " =
        ascii "# callgrind format" ++ newline :: (ascii "version: 1" ++ newline ::
          ascii "cmd: ") := rfl
    have bottom : ascii "\npart: 1\n\nevents: Hits\n\n" =
        newline :: (ascii "part: 1" ++ newline :: ([] ++ newline :: (ascii "events: Hits" ++
          newline :: ([] ++ newline :: [])))) := rfl
    have spelled : callgrindHeader argv ++ text =
        ascii "# callgrind format" ++ newline :: (ascii "version: 1" ++ newline ::
          ((ascii "cmd: " ++ commandLine argv) ++ newline :: (ascii "part: 1" ++ newline ::
            ([] ++ newline :: (ascii "events: Hits" ++ newline :: ([] ++ newline :: text)))))) := by
      simp [callgrindHeader, top, bottom]
    rw [spelled, splitLines_line (by decide), splitLines_line (by decide), splitLines_append,
      splitLines_line (by decide), splitLines_line (by decide), splitLines_line (by decide),
      splitLines_line (by decide)]
  have blank : Barrier [] := ⟨rfl, rfl, rfl⟩
  have format : Barrier (ascii "# callgrind format") := ⟨rfl, rfl, rfl⟩
  have version : Barrier (ascii "version: 1") := ⟨rfl, rfl, rfl⟩
  have part : Barrier (ascii "part: 1") := ⟨rfl, rfl, rfl⟩
  have kinds : Barrier (ascii "events: Hits") := ⟨rfl, rfl, rfl⟩
  have skip : ∀ {line} (after : List Bytes), Barrier line →
      readRecords (line :: after) = readRecords after :=
    fun after barrier => readRecords_barrier barrier [] after
  rw [lines, skip _ format, skip _ version, readRecords_barrier part, skip _ blank, skip _ kinds,
    skip _ blank]
  rfl

theorem joinArgv_unbroken {cmd : Option Bytes} {argv : List Bytes}
    (started : ∀ text, cmd = some text → newline ∉ text) (unbroken : ∀ arg ∈ argv, newline ∉ arg) :
    ∀ text, joinArgv cmd argv = some text → newline ∉ text := by
  induction argv generalizing cmd with
  | nil => simpa [joinArgv] using started
  | cons arg rest ih =>
    have begun : newline ∉ cmd.getD [] := by
      cases cmd with
      | none => simp
      | some text => exact started text rfl
    have printed : newline ∉ cString arg := fun held =>
      unbroken arg (by simp) (mem_of_mem_cString held)
    have joined := List.not_mem_append begun printed
    cases rest with
    | nil => simpa [joinArgv] using joined
    | cons next rest =>
      have spaced := List.not_mem_append joined (show newline ∉ ascii " " by decide)
      exact ih (by simpa using spaced) fun other member =>
        unbroken other (List.mem_cons_of_mem _ member)

/-- Arguments without a newline stay on their line and spell nothing. -/
theorem spelledRecords_unbroken {argv : List Bytes} (unbroken : ∀ arg ∈ argv, newline ∉ arg) :
    spelledRecords argv = [] := by
  have line : newline ∉ commandLine argv := by
    rw [commandLine]
    cases joined : joinArgv none argv with
    | none => decide
    | some text => exact joinArgv_unbroken (by simp) unbroken text joined
  rw [spelledRecords, splitLines_of_no_newline (List.not_mem_append (by decide) line)]
  rfl

/-- The reader gets the records the arguments spell before those of the units
above the threshold; so two command lines leave the same profile exactly when
they spell the same records, as all do whose arguments contain no newline. -/
theorem file_records_with_command_line (argv other : List Bytes) (globals : ProfGlobals)
    (unbroken : UnbrokenNames globals.samplingUnits) :
    ∃ file otherFile,
      profSamplingPrintResultCallgrind argv true globals = (globals, some file) ∧
      profSamplingPrintResultCallgrind other true globals = (globals, some otherFile) ∧
      readRecords (splitLines file) = spelledRecords argv ++
        (keptUnits globals.config.samplingThreshold globals.samplingUnits).map printedRecord ∧
      (readRecords (splitLines file) = readRecords (splitLines otherFile) ↔
        spelledRecords argv = spelledRecords other) ∧
      ((∀ arg ∈ argv, newline ∉ arg) → spelledRecords argv = []) := by
  refine ⟨_, _, rfl, rfl, ?_, ?_, spelledRecords_unbroken⟩
  · have kept : ∀ entry ∈ keptUnits globals.config.samplingThreshold globals.samplingUnits,
        newline ∉ entry.1 ∧ newline ∉ entry.2.filename.val := fun entry member =>
      unbroken entry (List.mem_of_mem_filter member)
    rw [readRecords_file, callgrindRecords_eq, readRecords_section kept]
  · rw [readRecords_file, readRecords_file]
    exact List.append_left_inj _

theorem plain_arguments_leave_records :
    ∃ file otherFile,
      profSamplingPrintResultCallgrind [ascii "a.php"] true fieldLikeGlobals =
        (fieldLikeGlobals, some file) ∧
      profSamplingPrintResultCallgrind [ascii "b.php", ascii "-v"] true fieldLikeGlobals =
        (fieldLikeGlobals, some otherFile) ∧
      readRecords (splitLines file) = readRecords (splitLines otherFile) := by
  obtain ⟨file, otherFile, printed, otherPrinted, _, same, _⟩ :=
    file_records_with_command_line [ascii "a.php"] [ascii "b.php", ascii "-v"] fieldLikeGlobals
      (by decide)
  have silent : spelledRecords [ascii "a.php"] = [] := spelledRecords_unbroken (by decide)
  have otherSilent : spelledRecords [ascii "b.php", ascii "-v"] = [] :=
    spelledRecords_unbroken (by decide)
  exact ⟨file, otherFile, printed, otherPrinted, same.mpr (silent.trans otherSilent.symm)⟩

/-- An argument with newlines spells a record of its own. -/
def forgingArgv : List Bytes := [ascii "a.php", ascii "x\nfl=y\nfn=z\n1 2"]

theorem argument_forges_record :
    ¬ ∀ (argv other : List Bytes) (globals : ProfGlobals),
      (∀ arg ∈ argv ++ other, 0 ∉ arg) → UnbrokenNames globals.samplingUnits →
      ((profSamplingPrintResultCallgrind argv true globals).2.map fun file =>
          readRecords (splitLines file)) =
        (profSamplingPrintResultCallgrind other true globals).2.map fun file =>
          readRecords (splitLines file) := by
  intro always
  have same := always forgingArgv [ascii "a.php"] fieldLikeGlobals (by decide) (by decide)
  simp only [profSamplingPrintResultCallgrind, Bool.not_true, Bool.false_eq_true, ↓reduceIte,
    Option.map_some, Option.some.injEq, readRecords_file, List.append_left_inj] at same
  have forged : spelledRecords forgingArgv = [⟨ascii "y", ascii "z", 1, 2⟩] := rfl
  rw [forged, spelledRecords_unbroken (by decide)] at same
  exact List.cons_ne_nil _ _ same

end PhpProf.CallgrindProofs
