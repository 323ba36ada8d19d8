import RealMQ.DynamicArray

/- The statistics part of common/utils/fs_utils.c together with the file pattern of
   merge_csv.py. The file system maps names to contents; fopen with "w" replaces a content. The
   parts of a path are together shorter than 2^32, so the unsigned totalLength does not wrap.
   The last column of a CSV row is kept as the 64-bit difference that is then printed as a
   floating-point number of milliseconds. -/
namespace RealMQ.StatsFiles
open CStrings DynamicArrays

def maxMessages : Nat := 100000

structure Config where
  statsFolderPath : CString
  protocol : CString
  useJson : Bool

structure Record where
  id : Int64
  sendTime : Int64
  recvTime : Int64
  deriving DecidableEq

structure Row where
  id : Int64
  num : Nat
  diff : UInt64
  deriving DecidableEq

inductive FileContent where
  | json (messages : List Record)
  | csv (rows : List Row)
  deriving DecidableEq

structure Stats where
  messages : List Record
  fileCounter : Nat
  dateTime : Option CString
  files : CString → Option FileContent

def initJsonMessages : Stats := ⟨[], 0, none, fun _ => none⟩

def recordOf (recvTime : Int64) (msg : Message) : Record :=
  ⟨msg.id.toInt64, msg.timestamp, recvTime⟩

def processJsonMessage (recvTime : Int64) (msg : Message) (stats : Stats) : Stats :=
  { stats with messages := stats.messages ++ [recordOf recvTime msg] }

def fileExtension (config : Config) : CString :=
  if config.useJson then ".json".toList else ".csv".toList

def pathStem (config : Config) (dateTime : CString) : CString :=
  config.statsFolderPath ++ '/' :: dateTime ++ '_' :: config.protocol ++ ['_']

/-- The buffer has totalLength bytes, so snprintf keeps one character less. -/
def createStatsPath (config : Config) (dateTime : CString) (fileCounter : Nat) : CString :=
  let totalLength := config.statsFolderPath.length + dateTime.length + config.protocol.length +
    "_result".toList.length + (fileExtension config).length + 3 + 2
  (pathStem config dateTime ++ decimal fileCounter ++ "_result".toList ++
    fileExtension config).take (totalLength - 1)

def rowOf (num : Nat) (r : Record) : Row :=
  ⟨r.id, num, r.recvTime.toUInt64 - r.sendTime.toUInt64⟩

def rowsOf (messages : List Record) : List Row :=
  messages.zipIdx.map fun p => rowOf (p.2 + 1) p.1

/-- save_stats_to_file from the lock on. now is what get_current_date_time would return; it is
    asked once per run. A failed fopen leaves the counter already advanced. -/
def saveLocked (config : Config) (fopenOk : Bool) (now : CString) (stats : Stats) : Stats :=
  let freeSpace := maxMessages ≤ stats.messages.length
  let fileCounter := if freeSpace then stats.fileCounter + 1 else stats.fileCounter
  let dateTime := stats.dateTime.getD now
  let opened := { stats with fileCounter := fileCounter, dateTime := some dateTime }
  if fopenOk then
    { opened with
      messages := if freeSpace then [] else stats.messages
      files := Function.update stats.files (createStatsPath config dateTime fileCounter)
        (some (if config.useJson then .json stats.messages else .csv (rowsOf stats.messages))) }
  else opened

def saveStatsToFile (config : Config) (fopenOk : Bool) (now : CString) (stats : Stats) : Stats :=
  if stats.messages = [] then stats else saveLocked config fopenOk now stats

/-- glob('*_result.csv'); a date starts with a digit, so no name is a hidden file. -/
def merged (name : CString) : Prop := "_result.csv".toList <:+ name

def csvConfig (statsFolderPath protocol : CString) : Config := ⟨statsFolderPath, protocol, false⟩

theorem mem_rowsOf {messages : List Record} {row : Row} (member : row ∈ rowsOf messages) :
    ∃ r ∈ messages, row.id = r.id := by
  obtain ⟨⟨r, i⟩, inside, rfl⟩ := List.mem_map.mp member
  exact ⟨r, (List.mem_zipIdx' inside).2 ▸ List.getElem_mem _, rfl⟩

theorem rowOf_mem_rowsOf {messages : List Record} {r : Record} (member : r ∈ messages) :
    ∃ num, rowOf num r ∈ rowsOf messages := by
  obtain ⟨i, bound, rfl⟩ := List.getElem_of_mem member
  refine ⟨i + 1, List.mem_map.mpr ⟨(messages[i], i), ?_, rfl⟩⟩
  rw [List.mk_mem_zipIdx_iff_getElem?]
  simp [bound]

section Names

def nameTail (config : Config) : CString := "_result".toList ++ fileExtension config

theorem nameTail_eq (config : Config) :
    nameTail config = '_' :: ("result".toList ++ fileExtension config) := by
  unfold nameTail
  simp

theorem nameTail_length (config : Config) : (nameTail config).length =
    "_result".toList.length + (fileExtension config).length := List.length_append

theorem pathStem_length (config : Config) (dateTime : CString) :
    (pathStem config dateTime).length =
      config.statsFolderPath.length + dateTime.length + config.protocol.length + 3 := by
  simp only [pathStem, List.length_append, List.length_cons, List.length_nil]
  omega

theorem decimal_length_one {n : Nat} : (decimal n).length ≤ 1 ↔ n < 10 := by
  have digits := Nat.length_toDigits_le_iff (b := 10) (n := n) (k := 1) (by decide) (by decide)
  rwa [Nat.pow_one] at digits

/-- The buffer has room for one digit. -/
theorem createStatsPath_eq (config : Config) (dateTime : CString) (counter : Nat) :
    createStatsPath config dateTime counter =
      pathStem config dateTime ++
        (decimal counter ++ nameTail config).take ((nameTail config).length + 1) := by
  have budget : ∀ stem rest : CString, ∀ n k, n = stem.length + k →
      (stem ++ rest).take n = stem ++ rest.take k := by
    intro stem rest n k eq
    rw [eq, List.take_length_add_append]
  simp only [createStatsPath, List.append_assoc]
  apply budget
  rw [nameTail_length, pathStem_length]
  omega

theorem digits_before_tail {config : Config} {digits : CString}
    (all : ∀ c ∈ digits, c.isDigit = true)
    (same : (digits ++ nameTail config).take (nameTail config).length = nameTail config) :
    digits = [] := by
  cases digits with
  | nil => rfl
  | cons b rest =>
    have digit := all b List.mem_cons_self
    rw [nameTail_eq, List.length_cons, List.cons_append, List.take_succ_cons] at same
    obtain ⟨rfl, -⟩ := List.cons.inj same
    exact absurd digit (by decide)

theorem counter_small {config : Config} {dateTime front : CString} {counter : Nat}
    (ends : createStatsPath config dateTime counter = front ++ nameTail config) : counter < 10 := by
  obtain ⟨a, rest, text, -⟩ := decimal_head_digit counter
  have digits : ∀ c ∈ rest, c.isDigit = true := by
    intro c member
    exact decimal_is_digit (n := counter) (text ▸ List.mem_cons_of_mem a member)
  rw [createStatsPath_eq, text, List.cons_append, List.take_succ_cons, List.append_cons] at ends
  have long : (rest ++ nameTail config).length ≥ (nameTail config).length := by
    rw [List.length_append]
    exact Nat.le_add_left _ _
  have same := (List.append_inj' ends (List.length_take_of_le long)).2
  rw [← decimal_length_one, text, digits_before_tail digits same]
  exact le_refl 1

theorem createStatsPath_full {config : Config} {dateTime : CString} {counter : Nat} :
    createStatsPath config dateTime counter =
      pathStem config dateTime ++ decimal counter ++ nameTail config ↔ counter < 10 := by
  constructor
  · exact counter_small
  · intro digit
    have short := decimal_length_one.mpr digit
    rw [createStatsPath_eq, List.take_of_length_le, List.append_assoc]
    rw [List.length_append, Nat.add_comm]
    exact Nat.add_le_add_left short _

section Merged
variable (folder protocol dateTime : CString)

theorem merged_name {counter : Nat} (digit : counter < 10) :
    merged (createStatsPath (csvConfig folder protocol) dateTime counter) := by
  rw [createStatsPath_full.mpr digit]
  exact List.suffix_append _ _

theorem not_merged_name {counter : Nat} (digits : 10 ≤ counter) :
    ¬ merged (createStatsPath (csvConfig folder protocol) dateTime counter) := by
  rintro ⟨front, ends⟩
  have small := @counter_small (csvConfig folder protocol) dateTime front counter ends.symm
  omega

end Merged

theorem name_distinct {config : Config} {dateTime : CString} {c d : Nat} (small : c < 10)
    (same : createStatsPath config dateTime d = createStatsPath config dateTime c) : d = c := by
  have whole := (@createStatsPath_full config dateTime c).mpr small
  have small' := counter_small (same.trans whole)
  rw [createStatsPath_full.mpr small', whole] at same
  exact decimal_injective (List.append_cancel_left (List.append_cancel_right same))

structure FullName (config : Config) (dateTime : CString) (counter : Nat) : Prop where
  full : createStatsPath config dateTime counter =
    pathStem config dateTime ++ decimal counter ++ "_result".toList ++ fileExtension config
  distinct : ∀ other, other ≠ counter →
    createStatsPath config dateTime other ≠ createStatsPath config dateTime counter
  matched : config.useJson = false → merged (createStatsPath config dateTime counter)

theorem full_name_iff (config : Config) (dateTime : CString) (counter : Nat) :
    FullName config dateTime counter ↔ counter < 10 := by
  constructor
  · rintro ⟨full, -, -⟩
    rw [List.append_assoc] at full
    exact createStatsPath_full.mp full
  · intro small
    constructor
    · rw [List.append_assoc]
      exact createStatsPath_full.mpr small
    · intro other different same
      exact different (name_distinct small same)
    · intro csv
      obtain ⟨folder, protocol, json⟩ := config
      obtain rfl : json = false := csv
      exact merged_name folder protocol dateTime small

theorem counter_of_two_digits :
    ¬ ∀ (config : Config) (dateTime : CString) (counter : Nat), FullName config dateTime counter := by
  intro always
  have whole := (always ⟨"stats".toList, "udp".toList, false⟩ "01_01_2021".toList 10).full
  rw [List.append_assoc] at whole
  exact absurd (createStatsPath_full.mp whole) (Nat.lt_irrefl 10)

end Names

section Csv
variable {folder protocol : CString}

def nextCounter (stats : Stats) : Nat :=
  if maxMessages ≤ stats.messages.length then stats.fileCounter + 1 else stats.fileCounter

theorem save_csv {stats : Stats} (now : CString) (some_messages : stats.messages ≠ []) :
    saveStatsToFile (csvConfig folder protocol) true now stats =
      { messages := if maxMessages ≤ stats.messages.length then [] else stats.messages
        fileCounter := nextCounter stats
        dateTime := some (stats.dateTime.getD now)
        files := Function.update stats.files
          (createStatsPath (csvConfig folder protocol) (stats.dateTime.getD now)
            (nextCounter stats)) (some (.csv (rowsOf stats.messages))) } := by
  simp [saveStatsToFile, saveLocked, csvConfig, nextCounter, some_messages]

end Csv

end RealMQ.StatsFiles
