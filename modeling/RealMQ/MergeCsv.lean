import RealMQ.StatsRotation

/- merge_csv.py over the files that save_stats_to_file leaves in CSV mode. A file stands for its
   rows; the header is one line, the same in every file. The names are the entries of the folder,
   in any order. int() is given ASCII texts. -/
namespace RealMQ.MergeCsv
open CStrings DynamicArrays StatsFiles StatsRotation

/-- glob takes the path of the folder literally: it has no character with a meaning for it. -/
structure Folder where
  path : CString
  literal : ∀ c ∈ path, c ∉ ['*', '?', '[']

def osPathJoin (path name : CString) : CString :=
  if path = [] ∨ path.getLast? = some '/' then path ++ name else path ++ '/' :: name

/-- The folder part of the pattern: a slash at the end goes, unless there is nothing else. -/
def Folder.directory (folder : Folder) : CString :=
  let stripped := folder.path.rdropWhile (· = '/')
  if stripped = [] then folder.path else stripped

def Globbed (name : CString) : Prop := merged name ∧ name.head? ≠ some '.'

def Folder.globPath (folder : Folder) (name : CString) : CString := osPathJoin folder.directory name

def counterPart (name : CString) : Option CString := (name.splitOn '_').dropLast.getLast?

def pythonSpace (c : Char) : Bool := isspace c || (28 ≤ c.toNat && c.toNat ≤ 31)

/-- int(text): white space at both ends, a sign, digits. -/
def pythonInt (text : CString) : Option Int :=
  let body := (text.dropWhile pythonSpace).rdropWhile pythonSpace
  let digits := dropSign body
  if digits ≠ [] ∧ digits.all Char.isDigit then
    some (if body.head? = some '-' then -Nat.ofDigitChars 10 digits 0
      else Nat.ofDigitChars 10 digits 0)
  else none

def sortKey (name : CString) : Option Int := (counterPart name).bind pythonInt

def keyed (folder : Folder) (name : CString) : Option (Int × CString) :=
  (sortKey (folder.globPath name)).map fun key => (key, name)

inductive Merge where
  | valueError
  | noFiles
  | written (rows : List Row)
  deriving DecidableEq

instance (name : CString) : Decidable (merged name) :=
  inferInstanceAs (Decidable (_ <:+ _))

instance (name : CString) : Decidable (Globbed name) := instDecidableAnd

/-- sort asks for all keys first; it is stable. -/
def mergeCsvFiles (folder : Folder) (names : List CString) (rows : CString → List Row) : Merge :=
  match (names.filter fun name => Globbed name).mapM (keyed folder) with
  | none => .valueError
  | some csvFiles =>
      match (csvFiles.mergeSort fun a b => decide (a.1 ≤ b.1)).map Prod.snd with
      | [] => .noFiles
      | first :: rest => .written ((first :: rest).flatMap rows)

def fileRows (statsFolderPath : CString) (stats : Stats) (name : CString) : List Row :=
  match stats.files (statsFolderPath ++ '/' :: name) with
  | some (.csv rows) => rows
  | _ => []

def baseName (protocol dateTime : CString) (counter : Nat) : CString :=
  dateTime ++ '_' :: protocol ++ '_' :: decimal counter ++ "_result.csv".toList

section Keys

theorem globPath_eq (folder : Folder) : ∃ front, ∀ name, folder.globPath name = front ++ name := by
  unfold Folder.globPath osPathJoin
  split
  · exact ⟨_, fun name => rfl⟩
  · exact ⟨folder.directory ++ ['/'], fun name => List.append_cons _ _ _⟩

theorem counterPart_two (front middle last : CString) (inMiddle : '_' ∉ middle) (inLast : '_' ∉ last) :
    counterPart (front ++ '_' :: middle ++ '_' :: last) = some middle := by
  unfold counterPart
  rw [List.splitOn_append_cons_self, List.splitOn_append_cons_self, List.splitOn_eq_singleton inMiddle,
    List.splitOn_eq_singleton inLast, List.dropLast_concat, List.getLast?_concat]

theorem digit_not_pythonSpace {c : Char} (digit : c.isDigit = true) : pythonSpace c = false := by
  have low : 48 ≤ c.toNat := by
    simp only [Char.isDigit, ge_iff_le, Bool.and_eq_true, decide_eq_true_eq, UInt32.le_iff_toNat_le]
      at digit
    exact digit.1
  unfold pythonSpace
  rw [digit_not_space digit, Bool.false_or, Bool.and_eq_false_iff, decide_eq_false_iff_not,
    decide_eq_false_iff_not]
  omega

theorem pythonInt_decimal (n : Nat) : pythonInt (decimal n) = some (n : Int) := by
  have digits : ∀ c ∈ decimal n, c.isDigit = true := fun c => decimal_is_digit
  have front : (decimal n).dropWhile pythonSpace = decimal n := by
    rw [List.dropWhile_eq_self_iff]
    intro nonempty
    rw [digit_not_pythonSpace (digits _ (List.getElem_mem _))]
    exact Bool.false_ne_true
  have back : (decimal n).rdropWhile pythonSpace = decimal n := by
    rw [List.rdropWhile_eq_self_iff]
    intro nonempty
    rw [digit_not_pythonSpace (digits _ (List.getLast_mem _))]
    exact Bool.false_ne_true
  obtain ⟨c, rest, text, digit⟩ := decimal_head_digit n
  have unsigned : dropSign (decimal n) = decimal n := by
    rw [text]
    exact dropSign_of_digit digit
  have positive : (decimal n).head? ≠ some '-' := by
    rw [text]
    rintro ⟨⟩
    exact absurd digit (by decide)
  unfold pythonInt
  simp only [front, back, unsigned]
  rw [if_pos ⟨decimal_ne_nil n, List.all_eq_true.mpr digits⟩, if_neg positive]
  exact congrArg some (congrArg Int.ofNat Nat.ofDigitChars_ten_toDigits)

theorem stats_name (folder protocol dateTime : CString) {counter : Nat} (small : counter < 10) :
    createStatsPath (csvConfig folder protocol) dateTime counter =
      folder ++ '/' :: baseName protocol dateTime counter := by
  have tail : nameTail (csvConfig folder protocol) = "_result.csv".toList := rfl
  rw [createStatsPath_full.mpr small, tail]
  simp only [pathStem, csvConfig, baseName, List.append_assoc, List.cons_append, List.nil_append]

theorem baseName_globbed (protocol : CString) {dateTime : CString} (visible : dateTime.head? ≠ some '.')
    (counter : Nat) : Globbed (baseName protocol dateTime counter) := by
  refine ⟨List.suffix_append _ _, ?_⟩
  cases dateTime with
  | nil =>
    rintro ⟨⟩
  | cons c rest => exact visible

theorem sortKey_stats (folder : Folder) (protocol dateTime : CString) (counter : Nat) :
    sortKey (folder.globPath (baseName protocol dateTime counter)) = some (counter : Int) := by
  have plain : '_' ∉ decimal counter := not_mem_decimal (by decide)
  have last : '_' ∉ "result.csv".toList := by decide
  obtain ⟨front, path⟩ := globPath_eq folder
  have pieces : front ++ baseName protocol dateTime counter =
      (front ++ dateTime ++ '_' :: protocol) ++ '_' :: decimal counter ++
        '_' :: "result.csv".toList := by
    simp only [baseName, List.append_assoc, List.cons_append]
    rfl
  rw [sortKey, path, pieces, counterPart_two _ _ _ plain last, Option.bind_some, pythonInt_decimal]

theorem mem_dropWhile {p : Char → Bool} {text : CString} {c : Char} (member : c ∈ text)
    (other : p c = false) : c ∈ text.dropWhile p := by
  rw [← List.takeWhile_append_dropWhile (p := p) (l := text), List.mem_append] at member
  rcases member with front | back
  · rw [List.mem_takeWhile_imp front] at other
    cases other
  · exact back

theorem mem_dropSign {text : CString} {c : Char} (member : c ∈ text) (plus : c ≠ '+') (minus : c ≠ '-') :
    c ∈ dropSign text := by
  unfold dropSign
  split
  · exact (List.mem_cons.mp member).resolve_left plus
  · exact (List.mem_cons.mp member).resolve_left minus
  · exact member

theorem pythonInt_letter {text : CString} {c : Char} (member : c ∈ text)
    (letter : pythonSpace c = false ∧ c.isDigit = false ∧ c ≠ '+' ∧ c ≠ '-') : pythonInt text = none := by
  obtain ⟨space, digit, plus, minus⟩ := letter
  have body : c ∈ (text.dropWhile pythonSpace).rdropWhile pythonSpace := by
    rw [List.rdropWhile, List.mem_reverse]
    exact mem_dropWhile (List.mem_reverse.mpr (mem_dropWhile member space)) space
  unfold pythonInt
  dsimp only
  rw [if_neg]
  rintro ⟨-, all⟩
  rw [List.all_eq_true.mp all c (mem_dropSign body plus minus)] at digit
  cases digit

theorem last_piece (text more : CString) (free : '_' ∉ more) :
    ∃ front, ((text ++ more).splitOn '_').getLast? = some (front ++ more) := by
  induction length : text.length using Nat.strongRecOn generalizing text with
  | ind n ih =>
    by_cases separated : '_' ∈ text
    · obtain ⟨front, back, rfl, -⟩ := List.eq_append_cons_of_mem separated
      obtain ⟨piece, last⟩ := ih back.length (by simp at length; omega) back rfl
      refine ⟨piece, ?_⟩
      rw [List.append_assoc, List.cons_append, List.splitOn_append_cons_self,
        List.getLast?_append_of_ne_nil _ (List.splitOn_ne_nil _ _), last]
    · refine ⟨text, ?_⟩
      rw [List.splitOn_eq_singleton (by simp [separated, free])]
      rfl

def resultName : CString := "merged_result.csv".toList

theorem sortKey_result (folder : Folder) :
    Globbed resultName ∧ sortKey (folder.globPath resultName) = none := by
  obtain ⟨front, path⟩ := globPath_eq folder
  have name : front ++ resultName = (front ++ "merged".toList) ++ '_' :: "result.csv".toList := by
    rw [List.append_assoc]
    rfl
  have middle : '_' ∉ "merged".toList := by decide
  have last : '_' ∉ "result.csv".toList := by decide
  obtain ⟨rest, piece⟩ := last_piece front "merged".toList middle
  constructor
  · decide
  · rw [sortKey, path, counterPart, name, List.splitOn_append_cons_self,
      List.splitOn_eq_singleton last, List.dropLast_concat, piece, Option.bind_some]
    exact @pythonInt_letter _ 'm' (List.mem_append_right _ (by decide)) (by decide)

end Keys

section Sorting
variable {folder : Folder} {names : List CString}

theorem keyed_none {name : CString} (member : name ∈ names)
    (rejected : sortKey (folder.globPath name) = none) : names.mapM (keyed folder) = none := by
  induction names with
  | nil => cases member
  | cons first names ih =>
    rw [List.mapM_cons]
    rcases List.mem_cons.mp member with rfl | later
    · rw [keyed, rejected]
      rfl
    · rw [ih later]
      cases keyed folder first <;> rfl

theorem keyed_some {key : CString → Int}
    (known : ∀ name ∈ names, sortKey (folder.globPath name) = some (key name)) :
    names.mapM (keyed folder) = some (names.map fun name => (key name, name)) := by
  induction names with
  | nil => rfl
  | cons first names ih =>
    rw [List.forall_mem_cons] at known
    rw [List.mapM_cons, keyed, known.1, ih known.2]
    rfl

theorem sort_restores {files sorted : List (Int × CString)} (order : files.Perm sorted)
    (increasing : sorted.Pairwise fun a b => a.1 < b.1) :
    files.mergeSort (fun a b => decide (a.1 ≤ b.1)) = sorted := by
  have increasing' : (files.mergeSort fun a b => decide (a.1 ≤ b.1)).Pairwise fun a b => a.1 ≤ b.1 := by
    have result := @List.pairwise_mergeSort _ (fun a b : Int × CString => decide (a.1 ≤ b.1))
      (by intro a b c; simp only [decide_eq_true_eq]; omega)
      (by intro a b; simp only [Bool.or_eq_true, decide_eq_true_eq]; omega) files
    simpa only [decide_eq_true_eq] using result
  have distinct : (sorted.map Prod.fst).Nodup := by
    rw [List.Nodup, List.pairwise_map]
    exact increasing.imp fun less => less.ne
  have permuted := (List.mergeSort_perm files fun a b => decide (a.1 ≤ b.1)).trans order
  apply List.Perm.eq_of_pairwise _ increasing' (increasing.imp fun less => less.le) permuted
  intro a b left right below above
  exact List.inj_on_of_nodup_map distinct (permuted.subset left) right (le_antisymm below above)

theorem merge_sorted {rows : CString → List Row} {key : CString → Int} {found : List CString}
    (order : (names.filter fun name => Globbed name).Perm found)
    (known : ∀ name ∈ found, sortKey (folder.globPath name) = some (key name))
    (increasing : found.Pairwise fun a b => key a < key b) (some_files : found ≠ []) :
    mergeCsvFiles folder names rows = .written (found.flatMap rows) := by
  have sorted : ((names.filter fun name => Globbed name).map fun name => (key name, name)).mergeSort
      (fun a b => decide (a.1 ≤ b.1)) = found.map fun name => (key name, name) := by
    apply sort_restores (order.map _)
    rw [List.pairwise_map]
    exact increasing
  have back : (found.map fun name => (key name, name)).map Prod.snd = found := by
    rw [List.map_map]
    exact List.map_id found
  unfold mergeCsvFiles
  rw [keyed_some fun name member => known name (order.subset member)]
  dsimp only
  rw [sorted, back]
  cases found with
  | nil => exact absurd rfl some_files
  | cons first rest => rfl

end Sorting

/-- Once there is a result in the folder, the script fails, whatever else glob finds. -/
theorem merge_again_fails (folder : Folder) (names : List CString) (rows : CString → List Row)
    (earlier : resultName ∈ names) : mergeCsvFiles folder names rows = .valueError := by
  obtain ⟨found, rejected⟩ := sortKey_result folder
  unfold mergeCsvFiles
  rw [keyed_none (List.mem_filter.mpr ⟨earlier, decide_eq_true found⟩) rejected]

def statsFolder : Folder := ⟨"stats/".toList, by simp⟩

theorem merge_again_fails_stats :
    mergeCsvFiles statsFolder ["notes".toList, resultName] (fun _ => []) = .valueError :=
  merge_again_fails statsFolder ["notes".toList, resultName] _
    (List.mem_cons_of_mem _ (List.mem_singleton.mpr rfl))

section Run
variable {folder protocol dateTime : CString} {stats : Stats} {records early : List Record}
  {chunks : List (List Record)}

def statsName (folder protocol dateTime : CString) (counter : Nat) : CString :=
  createStatsPath (csvConfig folder protocol) dateTime counter

/-- Where the records of a run are: in one file for each rotation, and in memory. early is what
    the last save before the first rotation wrote, to the file with the counter 0. -/
structure Rotated (folder protocol dateTime : CString) (stats : Stats) (records early : List Record)
    (chunks : List (List Record)) : Prop where
  parts : chunks.flatten ++ stats.messages = records
  counter : stats.fileCounter = chunks.length
  digit : chunks.length < 10
  date : stats.dateTime = some dateTime ∨ stats.dateTime = none ∧ early = [] ∧ chunks = []
  zero : stats.files (statsName folder protocol dateTime 0) =
    if early = [] then none else some (.csv (rowsOf early))
  full : ∀ c < 9, stats.files (statsName folder protocol dateTime (c + 1)) =
    chunks[c]?.map fun chunk => .csv (rowsOf chunk)
  others : ∀ name, stats.files name ≠ none → ∃ c < 10, name = statsName folder protocol dateTime c
  earlier : early <+: records
  small : early.length < maxMessages
  large : ∀ chunk ∈ chunks, maxMessages ≤ chunk.length
  visible : dateTime.head? ≠ some '.'

theorem rotated_init (visible : dateTime.head? ≠ some '.') :
    Rotated folder protocol dateTime initJsonMessages [] [] [] :=
  ⟨rfl, rfl, by decide, Or.inr ⟨rfl, rfl, rfl⟩, rfl, fun _ _ => rfl, fun _ found => absurd rfl found,
    List.prefix_rfl, maxMessages_pos, fun _ member => (by cases member), visible⟩

theorem rotated_process (before : Rotated folder protocol dateTime stats records early chunks)
    (recvTime : Int64) (msg : Message) :
    Rotated folder protocol dateTime (processJsonMessage recvTime msg stats)
      (records ++ [recordOf recvTime msg]) early chunks := by
  refine ⟨?_, before.counter, before.digit, before.date, before.zero, before.full, before.others,
    before.earlier.trans (List.prefix_append _ _), before.small, before.large, before.visible⟩
  rw [processJsonMessage, ← List.append_assoc, before.parts]

/-- As long as no date was asked for there is no file, and any date will do. -/
theorem rotated_date (before : Rotated folder protocol dateTime stats records early chunks)
    {now : CString} (visible : now.head? ≠ some '.') :
    Rotated folder protocol (stats.dateTime.getD now) stats records early chunks := by
  rcases before.date with dated | ⟨undated, rfl, rfl⟩
  · rw [dated]
    exact before
  · have nothing : ∀ name, stats.files name = none := by
      intro name
      by_contra found
      obtain ⟨c, digit, rfl⟩ := before.others name found
      cases c with
      | zero => exact found before.zero
      | succ c => exact found (before.full c (by omega))
    exact ⟨before.parts, before.counter, before.digit, Or.inr ⟨undated, rfl, rfl⟩, nothing _,
      fun c _ => nothing _, fun name found => absurd (nothing name) found, before.earlier,
      before.small, before.large, by rwa [undated]⟩

theorem statsName_injective {c d : Nat} (digit : c < 10)
    (same : statsName folder protocol dateTime d = statsName folder protocol dateTime c) : d = c :=
  name_distinct digit same

theorem update_others {files : CString → Option FileContent} {content : Option FileContent} {c : Nat}
    (digit : c < 10)
    (others : ∀ name, files name ≠ none → ∃ c < 10, name = statsName folder protocol dateTime c) :
    ∀ name, Function.update files (statsName folder protocol dateTime c) content name ≠ none →
      ∃ c < 10, name = statsName folder protocol dateTime c := by
  intro name found
  by_cases here : name = statsName folder protocol dateTime c
  · exact ⟨c, digit, here⟩
  · rw [Function.update_of_ne here] at found
    exact others name found

theorem rotated_partial (before : Rotated folder protocol dateTime stats records early chunks)
    (now : CString) (some_messages : stats.messages ≠ []) (partly : stats.messages.length < maxMessages)
    (first : stats.fileCounter = 0) (date : stats.dateTime.getD now = dateTime) :
    Rotated folder protocol dateTime (saveStatsToFile (csvConfig folder protocol) true now stats) records
      stats.messages chunks := by
  obtain rfl : chunks = [] := List.length_eq_zero_iff.mp (before.counter.symm.trans first)
  have same : nextCounter stats = 0 := by rw [nextCounter, if_neg (by omega), first]
  rw [save_csv now some_messages, same, date]
  refine ⟨?_, rfl, before.digit, Or.inl rfl, ?_, ?_, ?_, ?_, partly, before.large, before.visible⟩
  · rw [if_neg (by omega)]
    exact before.parts
  · rw [if_neg some_messages]
    exact Function.update_self _ _ _
  · intro c small
    dsimp only
    rw [Function.update_of_ne]
    · exact before.full c small
    · intro clash
      cases statsName_injective (by decide) clash
  · exact update_others (by decide) before.others
  · rw [← before.parts]
    exact List.prefix_rfl

theorem rotated_full (before : Rotated folder protocol dateTime stats records early chunks)
    (now : CString) (full : maxMessages ≤ stats.messages.length) (room : stats.fileCounter < 9)
    (date : stats.dateTime.getD now = dateTime) :
    Rotated folder protocol dateTime (saveStatsToFile (csvConfig folder protocol) true now stats) records
      early (chunks ++ [stats.messages]) := by
  have positive := maxMessages_pos
  have some_messages : stats.messages ≠ [] := by
    rintro empty
    rw [empty] at full
    exact absurd full (by decide)
  have next : nextCounter stats = chunks.length + 1 := by
    rw [nextCounter, if_pos full, before.counter]
  have counter := before.counter
  rw [save_csv now some_messages, next, date]
  refine ⟨?_, ?_, ?_, Or.inl rfl, ?_, ?_, ?_, before.earlier, before.small, ?_, before.visible⟩
  · rw [if_pos full, List.append_nil, List.flatten_append, List.flatten_singleton]
    exact before.parts
  · simp
  · simp only [List.length_append, List.length_singleton]
    omega
  · dsimp only
    rw [Function.update_of_ne]
    · exact before.zero
    · intro clash
      cases statsName_injective (by omega) clash
  · intro c small
    dsimp only
    rcases Nat.lt_trichotomy c chunks.length with old | rfl | later
    · rw [Function.update_of_ne, before.full c small, List.getElem?_append_left old]
      intro clash
      have := statsName_injective (by omega) clash
      omega
    · rw [List.getElem?_concat_length]
      exact Function.update_self _ _ _
    · rw [Function.update_of_ne, before.full c small, List.getElem?_eq_none (by omega),
        List.getElem?_eq_none (by simp; omega)]
      intro clash
      have := statsName_injective (by omega) clash
      omega
  · exact update_others (by omega) before.others
  · intro chunk member
    rcases List.mem_append.mp member with old | new
    · exact before.large chunk old
    · rw [List.mem_singleton.mp new]
      exact full

theorem rotated_save (before : Rotated folder protocol dateTime stats records early chunks)
    {now : CString} (visible : now.head? ≠ some '.') (safe : SaveSafe stats) :
    ∃ dateTime' early' chunks',
    let after := saveStatsToFile (csvConfig folder protocol) true now stats
    Rotated folder protocol dateTime' after records early' chunks' ∧
      (stats.messages = [] ∧ after = stats ∧ early' = early ∧ chunks' = chunks ∨
      after.messages = stats.messages ∧ early' = stats.messages ∧ chunks = [] ∧ chunks' = [] ∨
      after.messages = [] ∧ early' = early ∧ chunks' = chunks ++ [stats.messages]) := by
  have dated := rotated_date before visible
  by_cases empty : stats.messages = []
  · rw [save_nothing empty]
    exact ⟨dateTime, early, chunks, before, Or.inl ⟨empty, rfl, rfl, rfl⟩⟩
  · obtain none | ⟨partly, first⟩ | ⟨full, room⟩ := safe
    · exact absurd none empty
    · have unrotated : chunks = [] :=
        List.length_eq_zero_iff.mp (before.counter.symm.trans first)
      exact ⟨_, _, _, rotated_partial dated now empty partly first rfl,
        Or.inr (Or.inl ⟨messages_save_partly now partly, rfl, unrotated, unrotated⟩)⟩
    · exact ⟨_, _, _, rotated_full dated now full room rfl,
        Or.inr (Or.inr ⟨messages_save_full now full, rfl, rfl⟩)⟩

def isProcess : Call → Bool
  | .process _ _ => true
  | .save _ => false

def lastSaved (calls : List Call) : List Record := added (calls.rdropWhile isProcess)

/-- The calls before a save that advances the counter from c. -/
def RotatesAt (config : Config) (run before : List Call) (c : Nat) : Prop :=
  ∃ now after, run = before ++ .save now :: after ∧ (runCalls config before).fileCounter = c ∧
    (runCalls config (before ++ [.save now])).fileCounter = c + 1

structure Traced (config : Config) (run : List Call) (early : List Record)
    (chunks : List (List Record)) : Prop where
  unrotated : chunks = [] → early = lastSaved run
  first : chunks ≠ [] → ∃ before, RotatesAt config run before 0 ∧ early = lastSaved before
  rotation : ∀ c chunk, chunks[c]? = some chunk →
    ∃ before, RotatesAt config run before c ∧ chunk = (runCalls config before).messages

theorem memory_after_save {now : CString} (safe : SaveSafe stats) :
    (saveStatsToFile (csvConfig folder protocol) true now stats).messages = [] ∨
      (saveStatsToFile (csvConfig folder protocol) true now stats).fileCounter = 0 := by
  rcases safe with empty | ⟨partly, first⟩ | ⟨full, -⟩
  · left
    rw [save_nothing empty, empty]
  · right
    by_cases empty : stats.messages = []
    · rw [save_nothing empty, first]
    · rw [counter_save now empty, nextCounter, if_neg (Nat.not_le.mpr partly), first]
  · exact Or.inl (messages_save_full now full)

section Traces
variable {config : Config} {calls before : List Call} {c : Nat}

theorem rotatesAt_snoc (rotates : RotatesAt config calls before c) (call : Call) :
    RotatesAt config (calls ++ [call]) before c := by
  obtain ⟨now, after, split, counter, next⟩ := rotates
  exact ⟨now, after ++ [call], by rw [split, List.append_assoc, List.cons_append], counter, next⟩

theorem lastSaved_process (recvTime : Int64) (msg : Message) :
    lastSaved (calls ++ [.process recvTime msg]) = lastSaved calls := by
  rw [lastSaved, List.rdropWhile_concat_pos _ _ _ rfl, lastSaved]

theorem lastSaved_save (now : CString) : lastSaved (calls ++ [.save now]) = added calls := by
  rw [lastSaved, List.rdropWhile_concat_neg _ _ _ Bool.false_ne_true, added_append]
  exact List.append_nil _

theorem lastSaved_subset : lastSaved calls ⊆ added calls := by
  obtain ⟨rest, split⟩ := List.rdropWhile_prefix isProcess (l := calls)
  rw [lastSaved]
  conv_rhs => rw [← split, added_append]
  exact List.subset_append_left _ _

theorem traced_snoc (traced : Traced config calls early chunks) {call : Call} {early' : List Record}
    (unrotated : chunks = [] → early' = lastSaved (calls ++ [call]))
    (kept : chunks ≠ [] → early' = early) :
    Traced config (calls ++ [call]) early' chunks := by
  refine ⟨unrotated, ?_, ?_⟩
  · intro rotated
    obtain ⟨before, rotates, saved⟩ := traced.first rotated
    exact ⟨before, rotatesAt_snoc rotates call, (kept rotated).trans saved⟩
  · intro c chunk here
    obtain ⟨before, rotates, written⟩ := traced.rotation c chunk here
    exact ⟨before, rotatesAt_snoc rotates call, written⟩

theorem traced_rotation (traced : Traced config calls early chunks) {now : CString}
    (counter : (runCalls config calls).fileCounter = chunks.length)
    (next : (runCalls config (calls ++ [.save now])).fileCounter = chunks.length + 1) :
    Traced config (calls ++ [.save now]) early (chunks ++ [(runCalls config calls).messages]) := by
  have here : RotatesAt config (calls ++ [.save now]) calls chunks.length :=
    ⟨now, [], rfl, counter, next⟩
  refine ⟨fun none => by simp at none, ?_, ?_⟩
  · intro _
    by_cases fresh : chunks = []
    · refine ⟨calls, ?_, traced.unrotated fresh⟩
      rwa [fresh] at here
    · obtain ⟨before, rotates, saved⟩ := traced.first fresh
      exact ⟨before, rotatesAt_snoc rotates _, saved⟩
  · intro c chunk member
    rcases Nat.lt_trichotomy c chunks.length with old | rfl | later
    · rw [List.getElem?_append_left old] at member
      obtain ⟨before, rotates, written⟩ := traced.rotation c chunk member
      exact ⟨before, rotatesAt_snoc rotates _, written⟩
    · rw [List.getElem?_concat_length] at member
      exact ⟨calls, here, (Option.some.inj member).symm⟩
    · rw [List.getElem?_eq_none (by simp; omega)] at member
      cases member

end Traces

def Visible (calls : List Call) : Prop := ∀ now, Call.save now ∈ calls → now.head? ≠ some '.'

theorem visible_snoc {calls : List Call} {call : Call} (visible : Visible (calls ++ [call])) :
    Visible calls := fun now member => visible now (List.mem_append_left _ member)

theorem rotated_runCalls {calls : List Call} (safe : AllSavesSafe (csvConfig folder protocol) calls)
    (visible : Visible calls) : ∃ dateTime early chunks,
      Rotated folder protocol dateTime (runCalls (csvConfig folder protocol) calls) (added calls) early
        chunks ∧ Traced (csvConfig folder protocol) calls early chunks := by
  induction calls using List.reverseRecOn with
  | nil =>
    refine ⟨[], [], [], rotated_init (by decide), fun _ => rfl, fun some => absurd rfl some, ?_⟩
    rintro c chunk ⟨⟩
  | append_singleton calls call ih =>
    obtain ⟨dateTime, early, chunks, before, traced⟩ := ih (safe_snoc safe) (visible_snoc visible)
    cases call with
    | process recvTime msg =>
      refine ⟨dateTime, early, chunks, ?_, traced_snoc traced ?_ fun _ => rfl⟩
      · rw [runCalls_snoc, added_append]
        exact rotated_process before recvTime msg
      · intro unrotated
        rw [lastSaved_process]
        exact traced.unrotated unrotated
    | save now =>
      obtain ⟨dateTime', early', chunks', after, change⟩ :=
        rotated_save before (visible now (by simp)) (safe_snoc_iff.mp safe).2
      have records : added (calls ++ [.save now]) = added calls := by
        rw [added_append]
        exact List.append_nil _
      rw [records]
      refine ⟨dateTime', early', chunks', by rwa [runCalls_snoc], ?_⟩
      rcases change with ⟨empty, -, rfl, rfl⟩ | ⟨-, rfl, rfl, rfl⟩ | ⟨-, rfl, rfl⟩
      · refine traced_snoc traced ?_ fun _ => rfl
        intro unrotated
        have none : added calls = [] := by
          have parts := before.parts
          rwa [empty, unrotated, eq_comm] at parts
        have nothing := @lastSaved_subset calls
        rw [none, List.subset_nil] at nothing
        rw [lastSaved_save, none, traced.unrotated unrotated, nothing]
      · refine traced_snoc traced ?_ fun some => absurd rfl some
        intro _
        rw [lastSaved_save]
        exact before.parts
      · apply traced_rotation traced before.counter
        rw [runCalls_snoc]
        have counter := after.counter
        rwa [List.length_append] at counter

def counters (early : List Record) (chunks : List (List Record)) : List Nat :=
  (if early = [] then [] else [0]) ++ (List.range chunks.length).map (· + 1)

theorem counters_increasing : (counters early chunks).Pairwise (· < ·) := by
  have numbered : ((List.range chunks.length).map (· + 1)).Pairwise (· < ·) := by
    rw [List.pairwise_map]
    exact List.pairwise_lt_range.imp Nat.succ_lt_succ
  unfold counters
  split
  · exact numbered
  · refine List.pairwise_cons.mpr ⟨?_, numbered⟩
    intro c member
    obtain ⟨i, -, rfl⟩ := List.mem_map.mp member
    exact Nat.succ_pos i

theorem mem_counters {c : Nat} :
    c ∈ counters early chunks ↔ (c = 0 ∧ early ≠ []) ∨ (0 < c ∧ c ≤ chunks.length) := by
  unfold counters
  split <;> cases c <;> simp_all

theorem file_of_baseName {c : Nat} (digit : c < 10) :
    stats.files (folder ++ '/' :: baseName protocol dateTime c) =
      stats.files (statsName folder protocol dateTime c) := by
  rw [statsName, stats_name _ _ _ digit]

section Rotations
variable (rotated : Rotated folder protocol dateTime stats records early chunks)
include rotated

theorem file_of_counter {c : Nat} (digit : c < 10) :
    stats.files (statsName folder protocol dateTime c) ≠ none ↔ c ∈ counters early chunks := by
  rw [mem_counters]
  cases c with
  | zero =>
    rw [rotated.zero]
    split <;> simp_all
  | succ c =>
    rw [rotated.full c (by omega)]
    simp

theorem counter_digit {c : Nat} (member : c ∈ counters early chunks) : c < 10 := by
  have last := rotated.digit
  rcases mem_counters.mp member with ⟨rfl, -⟩ | ⟨-, le⟩
  · decide
  · omega

theorem rows_of_chunk {c : Nat} (small : c < chunks.length) :
    fileRows folder stats (baseName protocol dateTime (c + 1)) = rowsOf (chunks[c]?.getD []) := by
  have digit := rotated.digit
  rw [fileRows, file_of_baseName (by omega), rotated.full c (by omega),
    List.getElem?_eq_getElem small]
  rfl

theorem rows_in_order : ((counters early chunks).map (baseName protocol dateTime)).flatMap
    (fileRows folder stats) = rowsOf early ++ chunks.flatMap rowsOf := by
  have list : chunks = (List.range chunks.length).map fun c => chunks[c]?.getD [] := by
    apply List.ext_getElem
    · simp
    · intro i left right
      simp [left]
  have later : ((List.range chunks.length).map (· + 1)).flatMap
      (fun c => fileRows folder stats (baseName protocol dateTime c)) = chunks.flatMap rowsOf := by
    conv_rhs => rw [list]
    rw [List.flatMap_map, List.flatMap_map]
    apply List.flatMap_congr
    intro c member
    exact rows_of_chunk rotated (List.mem_range.mp member)
  rw [List.flatMap_map, counters, List.flatMap_append, later]
  congr 1
  split
  · rename_i none
    rw [none]
    rfl
  · rename_i some
    rw [List.flatMap_singleton, fileRows, file_of_baseName (by decide), rotated.zero,
      if_neg some]

theorem mem_folder {names : List CString}
    (complete : ∀ name, name ∈ names ↔ stats.files (folder ++ '/' :: name) ≠ none) (name : CString) :
    name ∈ names ↔ ∃ c ∈ counters early chunks, baseName protocol dateTime c = name := by
  rw [complete]
  constructor
  · intro found
    obtain ⟨c, digit, here⟩ := rotated.others _ found
    have member := here ▸ found
    rw [file_of_counter rotated digit] at member
    refine ⟨c, member, ?_⟩
    rw [statsName, stats_name _ _ _ digit] at here
    exact (List.cons.inj (List.append_cancel_left here)).2.symm
  · rintro ⟨c, member, rfl⟩
    have digit := counter_digit rotated member
    rw [file_of_baseName digit]
    exact (file_of_counter rotated digit).mpr member

theorem merge_rotated (inputFolder : Folder) {names : List CString}
    (complete : ∀ name, name ∈ names ↔ stats.files (folder ++ '/' :: name) ≠ none)
    (distinct : names.Nodup) (some_files : early ≠ [] ∨ chunks ≠ []) :
    mergeCsvFiles inputFolder names (fileRows folder stats) =
      .written (rowsOf early ++ chunks.flatMap rowsOf) := by
  have keys : ∀ c, sortKey (inputFolder.globPath (baseName protocol dateTime c)) = some (c : Int) :=
    sortKey_stats inputFolder protocol dateTime
  have increasing : ((counters early chunks).map (baseName protocol dateTime)).Pairwise
      fun a b => (sortKey (inputFolder.globPath a)).getD 0 <
        (sortKey (inputFolder.globPath b)).getD 0 := by
    rw [List.pairwise_map]
    refine counters_increasing.imp ?_
    intro c d less
    rw [keys, keys]
    exact Int.ofNat_lt.mpr less
  have order : (names.filter fun name => Globbed name).Perm
      ((counters early chunks).map (baseName protocol dateTime)) := by
    rw [List.perm_ext_iff_of_nodup (distinct.filter _) (increasing.imp fun less same => by
      rw [same] at less
      exact lt_irrefl _ less)]
    intro name
    rw [List.mem_filter, mem_folder rotated complete, decide_eq_true_eq, List.mem_map]
    constructor
    · rintro ⟨found, -⟩
      exact found
    · rintro ⟨c, member, rfl⟩
      exact ⟨⟨c, member, rfl⟩, baseName_globbed protocol rotated.visible c⟩
  have some_names : (counters early chunks).map (baseName protocol dateTime) ≠ [] := by
    rw [ne_eq, List.map_eq_nil_iff, counters]
    rcases some_files with early | chunks <;> simp_all
  rw [← rows_in_order rotated]
  apply merge_sorted order _ increasing some_names
  intro name member
  obtain ⟨c, -, rfl⟩ := List.mem_map.mp member
  rw [keys c, Option.getD_some]

end Rotations

end Run

/-- What a merged table has of a run: the records of the run in blocks, and before them early. -/
structure MergedTable (config : Config) (run : List Call) (early : List Record)
    (chunks : List (List Record)) : Prop where
  parts : chunks.flatten = added run
  earlier : early <+: added run
  small : early.length < maxMessages
  unrotated : (runCalls config run).fileCounter = 0 → early = [] ∧ chunks = [added run]
  blocks : (runCalls config run).fileCounter ≠ 0 → chunks.length = (runCalls config run).fileCounter
  saved_before : (runCalls config run).fileCounter ≠ 0 →
    ∃ before, RotatesAt config run before 0 ∧ early = lastSaved before
  rotation : (runCalls config run).fileCounter ≠ 0 → ∀ c chunk, chunks[c]? = some chunk →
    maxMessages ≤ chunk.length ∧
      ∃ before, RotatesAt config run before c ∧ chunk = (runCalls config before).messages

/-- After a run whose saves were safe, the merged table has all records in the order of their
    arrival, once: without a rotation in one block, else in one for each rotation, after what the
    last save before the first rotation had written. -/
theorem merge_after_run (folder protocol : CString) (inputFolder : Folder) (calls : List Call)
    (now : CString) (names : List CString)
    (safe : AllSavesSafe (csvConfig folder protocol) (calls ++ [.save now]))
    (visible : Visible (calls ++ [.save now])) (some_records : added calls ≠ [])
    (complete : ∀ name, name ∈ names ↔
      (runCalls (csvConfig folder protocol) (calls ++ [.save now])).files (folder ++ '/' :: name) ≠
        none)
    (distinct : names.Nodup) :
    ∃ (early : List Record) (chunks : List (List Record)),
      mergeCsvFiles inputFolder names
          (fileRows folder (runCalls (csvConfig folder protocol) (calls ++ [.save now]))) =
        .written (rowsOf early ++ chunks.flatMap rowsOf) ∧
      MergedTable (csvConfig folder protocol) (calls ++ [.save now]) early chunks := by
  obtain ⟨earlier, last⟩ := safe_snoc_iff.mp safe
  obtain ⟨dateTime, early, chunks, rotated, traced⟩ := rotated_runCalls safe visible
  have left : (runCalls (csvConfig folder protocol) (calls ++ [.save now])).messages = [] ∨
      (runCalls (csvConfig folder protocol) (calls ++ [.save now])).fileCounter = 0 := by
    rw [runCalls_snoc]
    exact memory_after_save last
  have records : added (calls ++ [.save now]) = added calls := by
    rw [added_append]
    exact List.append_nil _
  have parts := rotated.parts
  have counter := rotated.counter
  by_cases unrotated : chunks = []
  · -- the file with the counter 0 has everything
    have everything : early = added calls := by
      rw [traced.unrotated unrotated, lastSaved_save]
    have zero : (runCalls (csvConfig folder protocol) (calls ++ [.save now])).fileCounter = 0 := by
      rw [counter, unrotated, List.length_nil]
    have table := merge_rotated rotated inputFolder complete distinct
      (Or.inl (by rw [everything]; exact some_records))
    refine ⟨[], [added calls], ?_, ?_⟩
    · rw [table, unrotated, everything]
      simp [rowsOf]
    · rw [← records]
      exact ⟨List.flatten_singleton, List.nil_prefix, maxMessages_pos, fun _ => ⟨rfl, rfl⟩,
        absurd zero, absurd zero, absurd zero⟩
  · have some_chunks : (runCalls (csvConfig folder protocol)
        (calls ++ [.save now])).fileCounter ≠ 0 := by
      rw [counter]
      exact mt List.length_eq_zero_iff.mp unrotated
    rw [left.resolve_right some_chunks, List.append_nil] at parts
    exact ⟨early, chunks, merge_rotated rotated inputFolder complete distinct (Or.inr unrotated),
      parts, rotated.earlier, rotated.small, fun zero => absurd zero some_chunks,
      fun _ => counter.symm, fun _ => traced.first unrotated, fun _ c chunk here =>
        ⟨rotated.large chunk (List.mem_of_getElem? here), traced.rotation c chunk here⟩⟩

theorem merge_after_run_one :
    let run := [Call.process 0 ⟨1, some [], 0⟩, .save ['1'], .save ['2']]
    let final := runCalls (csvConfig "stats".toList "udp".toList) run
    ∃ (early : List Record) (chunks : List (List Record)),
      mergeCsvFiles statsFolder [baseName "udp".toList ['1'] 0] (fileRows "stats".toList final) =
        .written (rowsOf early ++ chunks.flatMap rowsOf) ∧
      MergedTable (csvConfig "stats".toList "udp".toList) run early chunks := by
  intro run final
  have nothing : AllSavesSafe (csvConfig "stats".toList "udp".toList) [] := by
    intro before now after split
    simp at split
  have safe : AllSavesSafe (csvConfig "stats".toList "udp".toList) run :=
    safe_snoc_iff.mpr ⟨safe_snoc_iff.mpr ⟨safe_process nothing, Or.inr (Or.inl ⟨by decide, rfl⟩)⟩,
      Or.inr (Or.inl ⟨by decide, rfl⟩)⟩
  have visible : Visible run := by
    intro now member
    simp only [run, List.mem_cons, List.not_mem_nil, or_false, reduceCtorEq, Call.save.injEq,
      false_or] at member
    rcases member with rfl | rfl <;> decide
  refine merge_after_run "stats".toList "udp".toList statsFolder
    [.process 0 ⟨1, some [], 0⟩, .save ['1']] ['2'] _ safe visible (List.cons_ne_nil _ _) ?_
    (List.nodup_singleton _)
  intro name
  have files : final.files = Function.update
      (Function.update (fun _ => none) (statsName "stats".toList "udp".toList ['1'] 0)
        (some (.csv (rowsOf (added run))))) (statsName "stats".toList "udp".toList ['1'] 0)
      (some (.csv (rowsOf (added run)))) := rfl
  change _ ↔ final.files _ ≠ none
  rw [files, Function.update_idem, List.mem_singleton, statsName,
    stats_name "stats".toList "udp".toList ['1'] (by decide)]
  by_cases here : name = baseName "udp".toList ['1'] 0
  · rw [here, Function.update_self]
    exact iff_of_true rfl (by simp)
  · rw [Function.update_of_ne]
    · exact iff_of_false here (by simp)
    · intro same
      exact here (List.cons.inj (List.append_cancel_left same)).2

end RealMQ.MergeCsv
