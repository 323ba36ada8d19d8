import RealMQ.StatsFiles

/- Runs of process_json_message and save_stats_to_file in CSV mode, up to the last save that
   main makes, and the records that the merged files then hold. All fopen calls succeed. -/
namespace RealMQ.StatsRotation
open CStrings DynamicArrays StatsFiles

inductive Call where
  | process (recvTime : Int64) (msg : Message)
  | save (now : CString)

def perform (config : Config) (stats : Stats) : Call → Stats
  | .process recvTime msg => processJsonMessage recvTime msg stats
  | .save now => saveStatsToFile config true now stats

def runCalls (config : Config) (calls : List Call) : Stats :=
  calls.foldl (perform config) initJsonMessages

def added : List Call → List Record
  | [] => []
  | .process recvTime msg :: calls => recordOf recvTime msg :: added calls
  | .save _ :: calls => added calls

/-- The record is a row of a file that the merge picks up. -/
def Recorded (stats : Stats) (r : Record) : Prop :=
  ∃ name rows num, merged name ∧ stats.files name = some (.csv rows) ∧ rowOf num r ∈ rows

def AllRecorded (config : Config) (calls : List Call) : Prop :=
  ∀ r ∈ added calls, Recorded (runCalls config calls) r

/-- Nothing to save, or no full file has been written yet, or this save fills one of the
    first nine files after that. -/
def SaveSafe (stats : Stats) : Prop :=
  stats.messages = [] ∨ (stats.messages.length < maxMessages ∧ stats.fileCounter = 0) ∨
    (maxMessages ≤ stats.messages.length ∧ stats.fileCounter < 9)

def AllSavesSafe (config : Config) (calls : List Call) : Prop :=
  ∀ before now after, calls = before ++ .save now :: after → SaveSafe (runCalls config before)

theorem maxMessages_pos : 0 < maxMessages := by decide

theorem runCalls_snoc (config : Config) (calls : List Call) (call : Call) :
    runCalls config (calls ++ [call]) = perform config (runCalls config calls) call := by
  simp [runCalls]

theorem added_append (calls more : List Call) : added (calls ++ more) = added calls ++ added more := by
  induction calls with
  | nil => rfl
  | cons call calls ih => cases call <;> simp [added, ih]

theorem safe_snoc {config : Config} {calls : List Call} {call : Call}
    (safe : AllSavesSafe config (calls ++ [call])) : AllSavesSafe config calls := by
  intro before now after split
  exact safe before now (after ++ [call]) (by simp [split])

theorem split_snoc {calls before after : List Call} {last call : Call}
    (split : calls ++ [last] = before ++ call :: after) :
    (call = last ∧ before = calls) ∨ ∃ front, calls = before ++ call :: front := by
  rcases List.eq_nil_or_concat after with rfl | ⟨front, final, rfl⟩
  · obtain ⟨rfl, same⟩ := List.append_inj' split rfl
    exact Or.inl ⟨(List.cons.inj same).1.symm, rfl⟩
  · rw [List.concat_eq_append, ← List.cons_append, ← List.append_assoc] at split
    exact Or.inr ⟨front, (List.append_inj' split rfl).1⟩

theorem safe_snoc_iff {config : Config} {calls : List Call} {now : CString} :
    AllSavesSafe config (calls ++ [Call.save now]) ↔
      AllSavesSafe config calls ∧ SaveSafe (runCalls config calls) := by
  constructor
  · intro safe
    exact ⟨safe_snoc safe, safe calls now [] rfl⟩
  · rintro ⟨safe, last⟩ before now' after split
    rcases split_snoc split with ⟨-, rfl⟩ | ⟨front, inside⟩
    · exact last
    · exact safe before now' front inside

theorem safe_process {config : Config} {calls : List Call} {recvTime : Int64} {msg : Message}
    (safe : AllSavesSafe config calls) :
    AllSavesSafe config (calls ++ [Call.process recvTime msg]) := by
  intro before now after split
  rcases split_snoc split with ⟨impossible, -⟩ | ⟨front, inside⟩
  · cases impossible
  · exact safe before now front inside

section Csv
variable {folder protocol : CString}

theorem nextCounter_lt {stats : Stats} (safe : SaveSafe stats)
    (some_messages : stats.messages ≠ []) : nextCounter stats < 10 := by
  unfold nextCounter
  rcases safe with empty | ⟨partly, fresh⟩ | ⟨full, room⟩
  · exact absurd empty some_messages
  · rw [if_neg (by omega), fresh]; omega
  · rw [if_pos full]; omega

theorem save_nothing {config : Config} {stats : Stats} {now : CString}
    (empty : stats.messages = []) : saveStatsToFile config true now stats = stats := by
  unfold saveStatsToFile
  rw [if_pos empty]

theorem messages_save (stats : Stats) (now : CString) :
    (saveStatsToFile (csvConfig folder protocol) true now stats).messages =
      if maxMessages ≤ stats.messages.length then [] else stats.messages := by
  by_cases empty : stats.messages = []
  · rw [save_nothing empty, empty, ite_self]
  · rw [save_csv now empty]

theorem messages_save_full {stats : Stats} (now : CString)
    (full : maxMessages ≤ stats.messages.length) :
    (saveStatsToFile (csvConfig folder protocol) true now stats).messages = [] := by
  rw [messages_save, if_pos full]

theorem messages_save_partly {stats : Stats} (now : CString)
    (partly : stats.messages.length < maxMessages) :
    (saveStatsToFile (csvConfig folder protocol) true now stats).messages = stats.messages := by
  rw [messages_save, if_neg (Nat.not_le.mpr partly)]

theorem messages_save_subset (stats : Stats) (now : CString) :
    (saveStatsToFile (csvConfig folder protocol) true now stats).messages ⊆ stats.messages := by
  rw [messages_save]
  split
  · exact List.nil_subset _
  · exact List.Subset.refl _

theorem counter_save {stats : Stats} (now : CString) (some_messages : stats.messages ≠ []) :
    (saveStatsToFile (csvConfig folder protocol) true now stats).fileCounter =
      nextCounter stats := by
  rw [save_csv now some_messages]

structure Kept (folder protocol : CString) (stats : Stats) (records : List Record) : Prop where
  single_digit : stats.fileCounter < 10
  somewhere : ∀ r ∈ records, r ∈ stats.messages ∨ ∃ d c rows num,
    stats.dateTime = some d ∧ 0 < c ∧ c ≤ stats.fileCounter ∧ rowOf num r ∈ rows ∧
      stats.files (createStatsPath (csvConfig folder protocol) d c) = some (.csv rows)

theorem kept_init : Kept folder protocol initJsonMessages [] := ⟨by decide, by simp⟩

theorem kept_process {stats : Stats} {records : List Record} (recvTime : Int64) (msg : Message)
    (kept : Kept folder protocol stats records) :
    Kept folder protocol (processJsonMessage recvTime msg stats)
      (records ++ [recordOf recvTime msg]) := by
  refine ⟨kept.single_digit, ?_⟩
  intro r member
  rcases List.mem_append.mp member with old | new
  · rcases kept.somewhere r old with inside | stored
    · exact Or.inl (List.mem_append_left _ inside)
    · exact Or.inr stored
  · exact Or.inl (List.mem_append_right _ new)

theorem kept_save {stats : Stats} {records : List Record} (now : CString)
    (safe : SaveSafe stats) (kept : Kept folder protocol stats records) :
    Kept folder protocol (saveStatsToFile (csvConfig folder protocol) true now stats) records := by
  by_cases empty : stats.messages = []
  · rw [save_nothing empty]
    exact kept
  have digit := nextCounter_lt safe empty
  constructor
  · rw [counter_save now empty]
    exact digit
  intro r member
  rcases safe with none | ⟨partly, fresh⟩ | ⟨full, room⟩
  · exact absurd none empty
  · -- No numbered file exists yet, and the records stay in memory.
    rcases kept.somewhere r member with inside | ⟨d, c, rows, num, -, pos, low, -⟩
    · left
      rw [messages_save_partly now partly]
      exact inside
    · omega
  · right
    rw [save_csv now empty]
    have next : nextCounter stats = stats.fileCounter + 1 := if_pos full
    rcases kept.somewhere r member with inside | ⟨d, c, rows, num, date, pos, low, row, file⟩
    · obtain ⟨num, row⟩ := rowOf_mem_rowsOf inside
      exact ⟨_, nextCounter stats, rowsOf stats.messages, num, rfl, by omega, le_refl _, row,
        Function.update_self ..⟩
    · have other : createStatsPath (csvConfig folder protocol) d c ≠
          createStatsPath (csvConfig folder protocol) d (nextCounter stats) := by
        intro same
        have := name_distinct digit same
        omega
      refine ⟨d, c, rows, num, by simp [date], pos, by dsimp only; omega, row, ?_⟩
      simp only [date, Option.getD_some]
      rw [Function.update_of_ne other, file]

theorem kept_runCalls {calls : List Call}
    (safe : AllSavesSafe (csvConfig folder protocol) calls) :
    Kept folder protocol (runCalls (csvConfig folder protocol) calls) (added calls) := by
  induction calls using List.reverseRecOn with
  | nil => exact kept_init
  | append_singleton calls call ih =>
    rw [runCalls_snoc, added_append]
    cases call with
    | process recvTime msg => exact kept_process recvTime msg (ih (safe_snoc safe))
    | save now =>
      obtain ⟨before, last⟩ := safe_snoc_iff.mp safe
      simpa [added, perform] using kept_save now last (ih before)

theorem recorded_save {stats : Stats} {records : List Record} (now : CString)
    (safe : SaveSafe stats) (kept : Kept folder protocol stats records) :
    ∀ r ∈ records,
      Recorded (saveStatsToFile (csvConfig folder protocol) true now stats) r := by
  intro r member
  have after := kept_save now safe kept
  rcases after.somewhere r member with inside | ⟨d, c, rows, num, -, -, low, row, file⟩
  · have held := messages_save_subset stats now inside
    by_cases empty : stats.messages = []
    · rw [empty] at held
      exact absurd held List.not_mem_nil
    · rw [save_csv now empty]
      obtain ⟨num, row⟩ := rowOf_mem_rowsOf held
      exact ⟨_, rowsOf stats.messages, num,
        merged_name folder protocol _ (nextCounter_lt safe empty), Function.update_self .., row⟩
  · have := after.single_digit
    exact ⟨_, rows, num, merged_name folder protocol d (by omega), file, row⟩

def FoundIn (stats : Stats) (id : Int64) (name : CString) : Prop :=
  ∃ rows row, merged name ∧ stats.files name = some (.csv rows) ∧ row ∈ rows ∧ row.id = id

def idsOf (records : List Record) : List Int64 := records.map Record.id

def Lost (stats : Stats) (id : Int64) : Prop :=
  id ∉ idsOf stats.messages ∧ ∀ name, ¬ FoundIn stats id name

theorem idsOf_append (records more : List Record) :
    idsOf (records ++ more) = idsOf records ++ idsOf more := List.map_append

theorem mem_idsOf {records : List Record} {r : Record} (member : r ∈ records) :
    r.id ∈ idsOf records := List.mem_map_of_mem member

theorem id_fresh {records : List Record} {r : Record} (distinct : (idsOf (records ++ [r])).Nodup) :
    r.id ∉ idsOf records := by
  rw [idsOf_append, List.nodup_append] at distinct
  intro member
  exact distinct.2.2 _ member _ (mem_idsOf (List.mem_singleton_self r)) rfl

theorem not_mem_ids_process {stats : Stats} {id recvTime : Int64} {msg : Message}
    (gone : id ∉ idsOf stats.messages) (other : id ≠ (recordOf recvTime msg).id) :
    id ∉ idsOf (processJsonMessage recvTime msg stats).messages := by
  unfold processJsonMessage
  rw [idsOf_append, List.mem_append, not_or]
  refine ⟨gone, ?_⟩
  intro same
  exact other (List.mem_singleton.mp same)

theorem not_recorded_of_lost {stats : Stats} {r : Record} (lost : Lost stats r.id) :
    ¬ Recorded stats r := by
  rintro ⟨name, rows, num, csv, file, row⟩
  exact lost.2 name ⟨rows, _, csv, file, row, rfl⟩

theorem found_save {stats : Stats} {id : Int64} {name : CString} (now : CString)
    (some_messages : stats.messages ≠ [])
    (found : FoundIn (saveStatsToFile (csvConfig folder protocol) true now stats) id name) :
    let written := createStatsPath (csvConfig folder protocol) (stats.dateTime.getD now)
      (nextCounter stats)
    (name = written ∧ merged written ∧ id ∈ idsOf stats.messages) ∨
      (name ≠ written ∧ FoundIn stats id name) := by
  intro written
  obtain ⟨rows, row, csv, file, member, rfl⟩ := found
  rw [save_csv now some_messages] at file
  by_cases same : name = written
  · left
    subst name
    simp only [written, Function.update_self, Option.some.injEq, FileContent.csv.injEq] at file
    subst rows
    obtain ⟨r, inside, eq⟩ := mem_rowsOf member
    exact ⟨rfl, csv, eq ▸ mem_idsOf inside⟩
  · right
    exact ⟨same, rows, row, csv, (Function.update_of_ne same _ _).symm.trans file, member, rfl⟩

theorem lost_save {stats : Stats} {id : Int64} (now : CString) (lost : Lost stats id) :
    Lost (saveStatsToFile (csvConfig folder protocol) true now stats) id := by
  by_cases empty : stats.messages = []
  · rw [save_nothing empty]
    exact lost
  constructor
  · intro inside
    exact lost.1 (List.map_subset _ (messages_save_subset stats now) inside)
  · intro name found
    rcases found_save now empty found with ⟨-, -, inside⟩ | ⟨-, before⟩
    · exact lost.1 inside
    · exact lost.2 name before

/-- What safe saves leave behind, for records with different ids. Once a file is full,
    some record is in the last file only. -/
structure Intact (folder protocol : CString) (stats : Stats) (records : List Record) : Prop where
  known : ∀ id name, FoundIn stats id name → id ∈ idsOf records
  held : stats.messages ⊆ records
  start : stats.fileCounter = 0 → stats.messages = records ∧
    ∀ id name, FoundIn stats id name → id ∈ idsOf (records.take (maxMessages - 1))
  rotated : 0 < stats.fileCounter →
    (∀ m ∈ stats.messages, ∀ name, ¬ FoundIn stats m.id name) ∧
    ∃ d, stats.dateTime = some d ∧ ∃ r ∈ records, r.id ∉ idsOf stats.messages ∧
      ∀ name, FoundIn stats r.id name →
        name = createStatsPath (csvConfig folder protocol) d stats.fileCounter

theorem intact_init : Intact folder protocol initJsonMessages [] := by
  have none : ∀ id name, ¬ FoundIn initJsonMessages id name := by
    rintro id name ⟨rows, row, -, file, -⟩
    cases file
  exact ⟨fun id name found => absurd found (none id name), List.Subset.refl _,
    fun _ => ⟨rfl, fun id name found => absurd found (none id name)⟩,
    fun pos => absurd pos (lt_irrefl 0)⟩

theorem intact_process {stats : Stats} {records : List Record} (recvTime : Int64) (msg : Message)
    (distinct : (idsOf (records ++ [recordOf recvTime msg])).Nodup)
    (intact : Intact folder protocol stats records) :
    Intact folder protocol (processJsonMessage recvTime msg stats)
      (records ++ [recordOf recvTime msg]) := by
  set new := recordOf recvTime msg with newDef
  have fresh : new.id ∉ idsOf records := id_fresh distinct
  refine ⟨?_, ?_, ?_, ?_⟩
  · intro id name found
    rw [idsOf_append]
    exact List.mem_append_left _ (intact.known id name found)
  · intro r member
    rcases List.mem_append.mp member with old | last
    · exact List.mem_append_left _ (intact.held old)
    · exact List.mem_append_right _ last
  · intro zero
    obtain ⟨all, few⟩ := intact.start zero
    refine ⟨by simp [processJsonMessage, all, newDef], ?_⟩
    intro id name found
    have early := few id name found
    rw [List.take_append, idsOf_append]
    exact List.mem_append_left _ early
  · intro pos
    obtain ⟨unsaved, d, date, r, member, gone, only⟩ := intact.rotated pos
    refine ⟨?_, d, date, r, List.mem_append_left _ member, ?_, only⟩
    · intro m inside name found
      rcases List.mem_append.mp inside with old | last
      · exact unsaved m old name found
      · rw [List.mem_singleton.mp last] at found
        exact fresh (intact.known _ name found)
    · apply not_mem_ids_process gone
      intro same
      exact fresh (same ▸ mem_idsOf member)

theorem unsaved_record {stats : Stats} {records : List Record}
    (distinct : (idsOf records).Nodup) (full : maxMessages ≤ stats.messages.length)
    (intact : Intact folder protocol stats records) :
    ∃ r ∈ stats.messages, ∀ name, ¬ FoundIn stats r.id name := by
  have positive := maxMessages_pos
  rcases Nat.eq_zero_or_pos stats.fileCounter with zero | pos
  · obtain ⟨all, few⟩ := intact.start zero
    have bound : maxMessages - 1 < records.length := by rw [← all]; omega
    refine ⟨records[maxMessages - 1], by rw [all]; exact List.getElem_mem bound, ?_⟩
    intro name found
    have early := few _ name found
    rw [← List.take_append_drop (maxMessages - 1) records] at distinct
    rw [idsOf_append, List.nodup_append] at distinct
    refine distinct.2.2 _ early _ ?_ rfl
    rw [List.drop_eq_getElem_cons bound]
    exact mem_idsOf List.mem_cons_self
  · have bound : 0 < stats.messages.length := by omega
    exact ⟨_, List.getElem_mem bound,
      (intact.rotated pos).1 _ (List.getElem_mem bound)⟩

theorem intact_save {stats : Stats} {records : List Record} (now : CString)
    (distinct : (idsOf records).Nodup) (safe : SaveSafe stats)
    (intact : Intact folder protocol stats records) :
    Intact folder protocol (saveStatsToFile (csvConfig folder protocol) true now stats)
      records := by
  by_cases empty : stats.messages = []
  · rw [save_nothing empty]
    exact intact
  have idsHeld : ∀ id ∈ idsOf stats.messages, id ∈ idsOf records :=
    List.map_subset _ intact.held
  have known : ∀ id name,
      FoundIn (saveStatsToFile (csvConfig folder protocol) true now stats) id name →
        id ∈ idsOf records := by
    intro id name found
    rcases found_save now empty found with ⟨-, -, inside⟩ | ⟨-, before⟩
    · exact idsHeld id inside
    · exact intact.known id name before
  have held : (saveStatsToFile (csvConfig folder protocol) true now stats).messages ⊆ records :=
    fun _ inside => intact.held (messages_save_subset stats now inside)
  have counter := @counter_save folder protocol stats now empty
  rcases safe with none | ⟨partly, fresh⟩ | ⟨full, room⟩
  · exact absurd none empty
  · obtain ⟨all, few⟩ := intact.start fresh
    rw [nextCounter, if_neg (Nat.not_le.mpr partly), fresh] at counter
    refine ⟨known, held, ?_, ?_⟩
    · intro _
      refine ⟨(messages_save_partly now partly).trans all, ?_⟩
      intro id name found
      rcases found_save now empty found with ⟨-, -, inside⟩ | ⟨-, before⟩
      · rwa [List.take_of_length_le (by rw [← all]; omega), ← all]
      · exact few id name before
    · intro pos
      omega
  · obtain ⟨r, member, unsaved⟩ := unsaved_record distinct full intact
    have forgotten := @messages_save_full folder protocol stats now full
    rw [nextCounter, if_pos full] at counter
    refine ⟨known, held, ?_, ?_⟩
    · intro zero
      omega
    · intro _
      rw [forgotten]
      refine ⟨fun _ inside => absurd inside List.not_mem_nil, _, by rw [save_csv now empty], r,
        intact.held member, List.not_mem_nil, ?_⟩
      intro name found
      rcases found_save now empty found with ⟨eq, -⟩ | ⟨-, before⟩
      · rw [counter]
        rw [nextCounter, if_pos full] at eq
        exact eq
      · exact absurd before (unsaved name)

theorem lost_if_not_safe {stats : Stats} {records : List Record} (now : CString)
    (distinct : (idsOf records).Nodup) (not_safe : ¬ SaveSafe stats)
    (intact : Intact folder protocol stats records) :
    ∃ r ∈ records, Lost (saveStatsToFile (csvConfig folder protocol) true now stats) r.id := by
  simp only [SaveSafe, not_or, not_and_or, not_lt, not_le] at not_safe
  obtain ⟨empty, partly, full⟩ := not_safe
  by_cases short : stats.messages.length < maxMessages
  · -- The last full file is opened again and truncated.
    obtain ⟨-, d, date, r, member, gone, only⟩ := intact.rotated (by omega)
    refine ⟨r, member, ?_, ?_⟩
    · rw [messages_save_partly now short]
      exact gone
    · intro name found
      rcases found_save now empty found with ⟨-, -, inside⟩ | ⟨other, before⟩
      · exact gone inside
      · rw [date, Option.getD_some, nextCounter, if_neg (by omega)] at other
        exact other (only name before)
  · -- The tenth full file has a name that the merge does not find.
    obtain ⟨r, member, unsaved⟩ := unsaved_record distinct (by omega) intact
    refine ⟨r, intact.held member, ?_, ?_⟩
    · rw [messages_save_full now (Nat.not_lt.mp short)]
      exact List.not_mem_nil
    · intro name found
      rcases found_save now empty found with ⟨-, csv, -⟩ | ⟨-, before⟩
      · refine not_merged_name folder protocol _ ?_ csv
        rw [nextCounter, if_pos (by omega)]
        omega
      · exact unsaved name before

theorem intact_or_lost {calls : List Call} (distinct : (idsOf (added calls)).Nodup) :
    let stats := runCalls (csvConfig folder protocol) calls
    (AllSavesSafe (csvConfig folder protocol) calls ∧ Intact folder protocol stats (added calls)) ∨
      ∃ r ∈ added calls, Lost stats r.id := by
  induction calls using List.reverseRecOn with
  | nil =>
    left
    refine ⟨?_, intact_init⟩
    intro before now after split
    simp at split
  | append_singleton calls call ih =>
    simp only [runCalls_snoc, added_append] at distinct ⊢
    have before : (idsOf (added calls)).Nodup := by
      rw [idsOf_append] at distinct
      exact distinct.of_append_left
    cases call with
    | process recvTime msg =>
      rcases ih before with ⟨safe, intact⟩ | ⟨r, member, lost⟩
      · exact Or.inl ⟨safe_process safe, intact_process recvTime msg distinct intact⟩
      · refine Or.inr ⟨r, List.mem_append_left _ member, ?_, lost.2⟩
        apply not_mem_ids_process lost.1
        intro same
        exact id_fresh distinct (same ▸ mem_idsOf member)
    | save now =>
      simp only [added, List.append_nil]
      rcases ih before with ⟨safe, intact⟩ | ⟨r, member, lost⟩
      · by_cases last : SaveSafe (runCalls (csvConfig folder protocol) calls)
        · exact Or.inl ⟨safe_snoc_iff.mpr ⟨safe, last⟩, intact_save now before last intact⟩
        · exact Or.inr (lost_if_not_safe now before last intact)
      · exact Or.inr ⟨r, member, lost_save now lost⟩

/-- The records survive the files when every save is safe, and, records having different
    ids, only then. -/
theorem records_survive_rotation (folder protocol : CString) (calls : List Call) (now : CString) :
    let config := csvConfig folder protocol
    let finished := calls ++ [.save now]
    (AllSavesSafe config finished → AllRecorded config finished) ∧
      ((idsOf (added calls)).Nodup → AllRecorded config finished → AllSavesSafe config finished) := by
  intro config finished
  have same : added finished = added calls := by simp [finished, added_append, added]
  constructor
  · intro safe r member
    obtain ⟨before, last⟩ := safe_snoc_iff.mp safe
    rw [same] at member
    simpa [finished, runCalls_snoc, perform] using
      recorded_save now last (kept_runCalls before) r member
  · intro distinct recorded
    rcases @intact_or_lost folder protocol finished (same ▸ distinct) with ⟨safe, -⟩ | ⟨r, member, lost⟩
    · exact safe
    · exact absurd (recorded r member) (not_recorded_of_lost lost)

end Csv

def arrival (i : Nat) : Call := .process 0 ⟨UInt64.ofNat i, some [], 0⟩

theorem added_arrivals (indices : List Nat) :
    idsOf (added (indices.map arrival)) = indices.map fun i => (UInt64.ofNat i).toInt64 := by
  induction indices with
  | nil => rfl
  | cons i indices ih => simpa [arrival, added, idsOf, recordOf] using ih

theorem runCalls_arrivals (config : Config) (indices : List Nat) :
    runCalls config (indices.map arrival) =
      { initJsonMessages with messages := added (indices.map arrival) } := by
  induction indices using List.reverseRecOn with
  | nil => rfl
  | append_singleton indices i ih =>
    rw [List.map_append, List.map_singleton, runCalls_snoc, ih, added_append]
    rfl

/-- One message more than a file holds: the last save truncates the full file. -/
theorem full_file_is_truncated :
    ¬ AllRecorded (csvConfig "stats".toList "udp".toList)
      ((List.range maxMessages).map arrival ++
        [.save "now".toList, arrival maxMessages, .save "now".toList]) := by
  set config := csvConfig "stats".toList "udp".toList with configDef
  set batch := (List.range maxMessages).map arrival with batchDef
  set before := batch ++ [Call.save "now".toList, arrival maxMessages] with beforeDef
  have size : (added batch).length = maxMessages := by
    simpa [idsOf] using congrArg List.length (added_arrivals (List.range maxMessages))
  have filled : (added batch) ≠ [] := by
    intro empty
    rw [empty] at size
    exact absurd size (by decide)
  have state : runCalls config before =
      perform config (perform config (runCalls config batch) (.save "now".toList))
        (arrival maxMessages) := by
    rw [beforeDef, List.append_cons, List.append_cons, List.append_nil, runCalls_snoc,
      runCalls_snoc]
  have rotated : ¬ SaveSafe (runCalls config before) := by
    rw [state, batchDef, runCalls_arrivals, ← batchDef]
    simp [SaveSafe, perform, arrival, processJsonMessage, saveStatsToFile, saveLocked, filled, size,
      initJsonMessages, maxMessages]
  have distinct : (idsOf (added (before ++ [Call.save "now".toList]))).Nodup := by
    have text : added (before ++ [Call.save "now".toList]) =
        added ((List.range (maxMessages + 1)).map arrival) := by
      rw [List.range_succ]
      simp [beforeDef, batchDef, added_append, added, arrival]
    rw [text, added_arrivals]
    apply List.nodup_range.map_on
    intro i left j right same
    simp only [List.mem_range, maxMessages] at left right
    have bits := congrArg (fun v : Int64 => v.toUInt64.toNat) same
    simp only [UInt64.toUInt64_toInt64, UInt64.toNat_ofNat'] at bits
    omega
  intro recorded
  have split : batch ++ [Call.save "now".toList, arrival maxMessages, .save "now".toList] =
      before ++ [Call.save "now".toList] := by simp [beforeDef]
  rw [split] at recorded
  rcases @intact_or_lost "stats".toList "udp".toList _ distinct with
    ⟨safe, -⟩ | ⟨r, member, lost⟩
  · exact rotated (safe_snoc_iff.mp safe).2
  · exact not_recorded_of_lost lost (recorded r member)

end RealMQ.StatsRotation
