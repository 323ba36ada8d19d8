import RealMQ.IntegerSettings

/- next_value and read_config of common/core/config.c. The parser of libyaml is the list of the
   events that it is going to return; after an error or the end of the stream it goes on with
   events of no type. The file opens, allocations succeed, and SIGINT ends the process. Of the
   ActionType names nothing is read; what config pointed to before is not freed. -/
namespace RealMQ.SettingsFile
open CStrings IntegerSettings

inductive YamlEvent where
  | scalar (value : String)
  | streamEnd
  | other
  | failed
  deriving DecidableEq

def yamlParserParse : List YamlEvent → YamlEvent × List YamlEvent
  | [] => (.other, [])
  | .streamEnd :: _ => (.streamEnd, [])
  | .failed :: _ => (.failed, [])
  | event :: parser => (event, parser)

def nextValue (parser : List YamlEvent) : Option String × List YamlEvent :=
  match yamlParserParse parser with
  | (.scalar value, parser) => (some value, parser)
  | (_, parser) => (none, parser)

/-- The locals of read_config. keyDangles: key still points to the text of a deleted event. -/
structure Reader where
  config : Config
  latestSection : Option String
  keyDangles : Bool
  loopCount : Nat
  parser : List YamlEvent

inductive Outcome where
  | read (config : Config)
  | interrupted
  | undefined

def finish (reader : Reader) : Outcome :=
  if reader.keyDangles then .undefined else .read reader.config

/-- The branch of a scalar event. Without a section, strcmp is given NULL. -/
def readScalar (key : String) (reader : Reader) : Reader ⊕ Outcome :=
  match nextValue reader.parser with
  | (none, parser) =>
      .inl
        { reader with
          latestSection := some key
          keyDangles := true
          loopCount := 0
          parser := parser }
  | (some value, parser) =>
      match reader.latestSection with
      | none => .inr .undefined
      | some latestSection =>
          .inl
            { reader with
              config := assignKeyValue reader.config latestSection key value.toList
              keyDangles := false
              loopCount := 0
              parser := parser }

def turn (reader : Reader) : Reader ⊕ Outcome :=
  match yamlParserParse reader.parser with
  | (.failed, _) => .inr (finish reader)
  | (.streamEnd, _) => .inr (finish reader)
  | (event, parser) =>
      if 20 < reader.loopCount + 1 then .inr .interrupted
      else
        match event with
        | .scalar key => readScalar key { reader with parser := parser }
        | _ => .inl { reader with loopCount := reader.loopCount + 1, parser := parser }

def readLoop : Nat → Reader → Option Outcome
  | 0, _ => none
  | fuel + 1, reader =>
      match turn reader with
      | .inl next => readLoop fuel next
      | .inr outcome => some outcome

def opening (config : Config) (parser : List YamlEvent) : Reader := ⟨config, none, false, 0, parser⟩

/-- The two action structures are new, and hold what malloc found in their memory. -/
def newActions (config : Config) (clientAction serverAction : ActionType) : Config :=
  { config with
    clientAction := clientAction
    serverAction := serverAction }

def readConfig (fuel : Nat) (config : Config) (clientAction serverAction : ActionType)
    (parser : List YamlEvent) : Option Outcome :=
  readLoop fuel (opening (newActions config clientAction serverAction) parser)

section Loop
variable {reader next : Reader} {outcome : Outcome} {fuel : Nat}

theorem readLoop_again (again : turn reader = .inl next) :
    readLoop (fuel + 1) reader = readLoop fuel next := by
  rw [readLoop, again]

theorem readLoop_stop (stop : turn reader = .inr outcome) :
    readLoop (fuel + 1) reader = some outcome := by
  rw [readLoop, stop]

def remaining (reader : Reader) : Nat := 21 * reader.parser.length + (20 - reader.loopCount)

theorem nextValue_length (parser : List YamlEvent) : (nextValue parser).2.length ≤ parser.length := by
  unfold nextValue
  rcases parser with _ | ⟨_ | _ | _ | _, rest⟩ <;> simp [yamlParserParse]

/-- The two ways for the loop to go on: with a scalar, and with anything else but an end. -/
theorem turn_again (again : turn reader = .inl next) : reader.loopCount < 20 ∧
    ((∃ key rest, reader.parser = .scalar key :: rest ∧
      readScalar key { reader with parser := rest } = .inl next) ∨
    (reader.parser.head? = none ∨ reader.parser.head? = some .other) ∧
      next = { reader with loopCount := reader.loopCount + 1, parser := reader.parser.tail }) := by
  obtain ⟨config, latestSection, keyDangles, loopCount, parser⟩ := reader
  rcases parser with _ | ⟨key | _ | _ | _, rest⟩ <;> simp only [turn, yamlParserParse] at again
  · split at again
    · cases again
    · exact ⟨by dsimp only at *; omega, Or.inr ⟨Or.inl rfl, (Sum.inl.inj again).symm⟩⟩
  · split at again
    · cases again
    · exact ⟨by dsimp only at *; omega, Or.inl ⟨key, rest, rfl, again⟩⟩
  · cases again
  · split at again
    · cases again
    · exact ⟨by dsimp only at *; omega, Or.inr ⟨Or.inr rfl, (Sum.inl.inj again).symm⟩⟩
  · cases again

theorem readScalar_again {key : String} (again : readScalar key reader = .inl next) :
    next.loopCount = 0 ∧ next.parser.length ≤ reader.parser.length := by
  have shorter := nextValue_length reader.parser
  unfold readScalar at again
  split at again
  · rename_i parser eq
    obtain rfl := Sum.inl.inj again
    exact ⟨rfl, by rwa [eq] at shorter⟩
  · rename_i value parser eq
    split at again
    · cases again
    · obtain rfl := Sum.inl.inj again
      exact ⟨rfl, by rwa [eq] at shorter⟩

theorem turn_remaining (again : turn reader = .inl next) : remaining next < remaining reader := by
  obtain ⟨few, ⟨key, rest, here, scalar⟩ | ⟨-, rfl⟩⟩ := turn_again again
  · obtain ⟨reset, shorter⟩ := readScalar_again scalar
    unfold remaining
    rw [reset, here, List.length_cons]
    dsimp only at shorter
    omega
  · simp only [remaining, List.length_tail]
    omega

theorem readLoop_ends {bound : Nat} (reader : Reader) (enough : remaining reader < bound) :
    ∃ outcome, readLoop bound reader = some outcome := by
  induction bound generalizing reader with
  | zero => omega
  | succ bound ih =>
    cases step : turn reader with
    | inl next =>
      rw [readLoop_again step]
      have less := turn_remaining step
      exact ih next (by omega)
    | inr outcome => exact ⟨outcome, readLoop_stop step⟩

theorem readLoop_mono {more : Nat} (ended : readLoop fuel reader = some outcome)
    (order : fuel ≤ more) : readLoop more reader = some outcome := by
  induction fuel generalizing reader more with
  | zero => cases ended
  | succ fuel ih =>
    obtain ⟨more, rfl⟩ : ∃ n, more = n + 1 := ⟨more - 1, by omega⟩
    cases step : turn reader with
    | inl next =>
      rw [readLoop_again step] at ended ⊢
      exact ih ended (by omega)
    | inr last =>
      rw [readLoop_stop step] at ended ⊢
      exact ended

end Loop

/-- A section of a settings file, with its keys and values in the order of the file. One without
    keys is written as an empty mapping. -/
structure Section where
  name : String
  entries : List (String × String)

def entryEvents (entry : String × String) : List YamlEvent := [.scalar entry.1, .scalar entry.2]

/-- The name of a section, the start of its mapping, its entries, and what comes then. -/
def Section.opened (part : Section) (rest : List YamlEvent) : List YamlEvent :=
  .scalar part.name :: .other :: (part.entries.flatMap entryEvents ++ rest)

def Section.events (part : Section) : List YamlEvent := part.opened [.other]

/-- Stream, document and mapping start, some sections, and what comes then. -/
def continued (sections : List Section) (rest : List YamlEvent) : List YamlEvent :=
  .other :: .other :: .other :: (sections.flatMap Section.events ++ rest)

def document (sections : List Section) : List YamlEvent :=
  continued sections [.other, .other, .streamEnd]

def assignSection (config : Config) (part : Section) : Config :=
  part.entries.foldl (fun config entry => assignKeyValue config part.name entry.1 entry.2.toList)
    config

def assignSections (config : Config) (sections : List Section) : Config :=
  sections.foldl assignSection config

def endsEmpty (sections : List Section) : Bool :=
  sections.getLast?.any fun part => part.entries.isEmpty

/-- How it ends after some sections. The text of the name of an empty one is freed twice. -/
def settled (config : Config) (sections : List Section) : Outcome :=
  if endsEmpty sections then .undefined else .read (assignSections config sections)

section Documents
variable {reader : Reader} {rest : List YamlEvent}

theorem loop_other (few : reader.loopCount < 20) (fuel : Nat) :
    readLoop (fuel + 1) { reader with parser := .other :: rest } =
      readLoop fuel { reader with loopCount := reader.loopCount + 1, parser := rest } := by
  apply readLoop_again
  simp only [turn, yamlParserParse]
  rw [if_neg (by omega)]

theorem loop_section (few : reader.loopCount < 20) (name : String) (fuel : Nat) :
    readLoop (fuel + 1) { reader with parser := .scalar name :: .other :: rest } =
      readLoop fuel
        { reader with
          latestSection := some name
          keyDangles := true
          loopCount := 0
          parser := rest } := by
  apply readLoop_again
  simp only [turn, yamlParserParse, readScalar, nextValue]
  rw [if_neg (by omega)]

theorem loop_entry {name : String} (few : reader.loopCount < 20)
    (inside : reader.latestSection = some name) (entry : String × String) (fuel : Nat) :
    readLoop (fuel + 1) { reader with parser := entryEvents entry ++ rest } =
      readLoop fuel
        { reader with
          config := assignKeyValue reader.config name entry.1 entry.2.toList
          keyDangles := false
          loopCount := 0
          parser := rest } := by
  apply readLoop_again
  simp only [turn, entryEvents, List.cons_append, List.nil_append, yamlParserParse, readScalar,
    nextValue, inside]
  rw [if_neg (by omega)]

theorem loop_entries {name : String} (first : reader.loopCount = 0)
    (inside : reader.latestSection = some name) (entries : List (String × String)) (fuel : Nat) :
    readLoop (entries.length + fuel) { reader with parser := entries.flatMap entryEvents ++ rest } =
      readLoop fuel
        { reader with
          config := assignSection reader.config ⟨name, entries⟩
          keyDangles := reader.keyDangles && entries.isEmpty
          parser := rest } := by
  induction entries generalizing reader with
  | nil =>
    simp only [List.length_nil, Nat.zero_add, List.flatMap_nil, List.nil_append, assignSection,
      List.foldl_nil, List.isEmpty_nil, Bool.and_true]
  | cons entry entries ih =>
    rw [List.length_cons, Nat.add_right_comm, List.flatMap_cons, List.append_assoc,
      loop_entry (by omega) inside]
    refine (@ih { reader with
      config := assignKeyValue reader.config name entry.1 entry.2.toList
      keyDangles := false
      loopCount := 0 } rfl inside).trans ?_
    simp only [assignSection, List.foldl_cons, List.isEmpty_cons, Bool.and_false, Bool.false_and,
      first]

theorem loop_opened (few : reader.loopCount < 20) (part : Section) (fuel : Nat) :
    readLoop (part.entries.length + 1 + fuel) { reader with parser := part.opened rest } =
      readLoop fuel
        { config := assignSection reader.config part
          latestSection := some part.name
          keyDangles := part.entries.isEmpty
          loopCount := 0
          parser := rest } := by
  rw [Nat.add_right_comm, Section.opened, loop_section few]
  exact (@loop_entries { reader with
    latestSection := some part.name
    keyDangles := true
    loopCount := 0 } rest part.name rfl rfl part.entries fuel)

def Section.turns (part : Section) : Nat := part.entries.length + 2

theorem loop_part (few : reader.loopCount < 20) (part : Section) (fuel : Nat) :
    readLoop (part.turns + fuel) { reader with parser := part.events ++ rest } =
      readLoop fuel
        { config := assignSection reader.config part
          latestSection := some part.name
          keyDangles := part.entries.isEmpty
          loopCount := 1
          parser := rest } := by
  have split : part.events ++ rest = part.opened (.other :: rest) := by
    simp [Section.events, Section.opened]
  have turns : part.turns + fuel = part.entries.length + 1 + (fuel + 1) := by
    unfold Section.turns
    omega
  rw [split, turns, loop_opened few]
  exact @loop_other
    ⟨assignSection reader.config part, some part.name, part.entries.isEmpty, 0, []⟩ rest
    (show 0 < 20 by decide) fuel

theorem loop_sections (few : reader.loopCount < 20) (sections : List Section) :
    ∃ latestSection loopCount, loopCount ≤ max 1 reader.loopCount ∧ ∀ fuel,
      readLoop ((sections.map Section.turns).sum + fuel)
        { reader with parser := sections.flatMap Section.events ++ rest } =
      readLoop fuel
        { config := assignSections reader.config sections
          latestSection := latestSection
          keyDangles := sections.foldl (fun _ part => part.entries.isEmpty) reader.keyDangles
          loopCount := loopCount
          parser := rest } := by
  induction sections generalizing reader with
  | nil =>
    refine ⟨reader.latestSection, reader.loopCount, le_max_right _ _, fun fuel => ?_⟩
    simp only [List.map_nil, List.sum_nil, Nat.zero_add, List.flatMap_nil, List.nil_append,
      assignSections, List.foldl_nil]
  | cons part sections ih =>
    obtain ⟨latestSection, loopCount, small, rest⟩ := @ih
      ⟨assignSection reader.config part, some part.name, part.entries.isEmpty, 1, []⟩
      (by dsimp only; omega)
    refine ⟨latestSection, loopCount, by dsimp only at small; omega, fun fuel => ?_⟩
    rw [List.map_cons, List.sum_cons, Nat.add_assoc, List.flatMap_cons, List.append_assoc,
      loop_part few]
    exact rest fuel

theorem endsEmpty_eq (sections : List Section) :
    sections.foldl (fun _ part => part.entries.isEmpty) false = endsEmpty sections := by
  unfold endsEmpty
  rcases List.eq_nil_or_concat sections with rfl | ⟨front, last, rfl⟩
  · rfl
  · simp

theorem read_sections (config : Config) (sections : List Section) (rest : List YamlEvent) :
    ∃ turns latestSection loopCount, loopCount ≤ 3 ∧ ∀ fuel,
      readLoop (turns + fuel) (opening config (continued sections rest)) =
      readLoop fuel ⟨assignSections config sections, latestSection, endsEmpty sections, loopCount,
        rest⟩ := by
  obtain ⟨latestSection, loopCount, small, rest⟩ := @loop_sections ⟨config, none, false, 3, []⟩ rest
    (show 3 < 20 by decide) sections
  refine ⟨(sections.map Section.turns).sum + 3, latestSection, loopCount, small, fun fuel => ?_⟩
  rw [Nat.add_right_comm, opening]
  rw [← endsEmpty_eq]
  exact rest fuel

theorem read_opened (config : Config) (sections : List Section) (part : Section)
    (rest : List YamlEvent) :
    ∃ turns latestSection loopCount, loopCount ≤ 3 ∧ ∀ fuel,
      readLoop (turns + fuel) (opening config (continued sections (part.opened rest))) =
      readLoop fuel ⟨assignSections config (sections ++ [part]), latestSection,
        endsEmpty (sections ++ [part]), loopCount, rest⟩ := by
  obtain ⟨turns, latestSection, loopCount, small, reads⟩ :=
    read_sections config sections (part.opened rest)
  have together : assignSections config (sections ++ [part]) =
      assignSection (assignSections config sections) part := List.foldl_concat _ _ _ _
  have last : endsEmpty (sections ++ [part]) = part.entries.isEmpty := by
    simp [endsEmpty]
  refine ⟨turns + (part.entries.length + 1), some part.name, 0, Nat.zero_le 3, fun fuel => ?_⟩
  rw [Nat.add_assoc, reads, together, last]
  exact @loop_opened ⟨assignSections config sections, latestSection, endsEmpty sections, loopCount,
    []⟩ rest (by dsimp only; omega) part fuel

end Documents

theorem document_reads (config : Config) (sections : List Section) :
    ∃ fuel, ∀ more, fuel ≤ more →
      readLoop more (opening config (document sections)) = some (settled config sections) := by
  obtain ⟨turns, latestSection, loopCount, small, reads⟩ :=
    read_sections config sections [.other, .other, .streamEnd]
  refine ⟨turns + 3, fun more enough => readLoop_mono ?_ enough⟩
  refine (reads 3).trans ?_
  simp only [readLoop, turn, yamlParserParse, finish]
  rw [if_neg (by omega)]
  dsimp only
  rw [if_neg (by omega)]
  rfl

section RoundTrip

inductive Field where
  | mainAddress
  | responderAddress
  | useJson
  | statsFolderPath
  | useMsgPerMinute
  | protocol
  | integer (setting : Setting)

def Field.latestSection : Field → String
  | .integer setting => setting.latestSection
  | _ => "general"

def Field.key : Field → String
  | .mainAddress => "main_address"
  | .responderAddress => "responder_address"
  | .useJson => "use_json"
  | .statsFolderPath => "stats_folder_path"
  | .useMsgPerMinute => "use_msg_per_minute"
  | .protocol => "protocol"
  | .integer setting => setting.key

def truth (flag : Bool) : CString := if flag then "true".toList else "false".toList

def Field.text (config : Config) : Field → CString
  | .mainAddress => config.mainAddress
  | .responderAddress => config.responderAddress
  | .useJson => truth config.useJson
  | .statsFolderPath => config.statsFolderPath
  | .useMsgPerMinute => truth config.useMsgPerMinute
  | .protocol => config.protocol
  | .integer setting => signedDecimal (setting.stored config)

def Field.copy (source config : Config) : Field → Config
  | .mainAddress => { config with mainAddress := source.mainAddress }
  | .responderAddress => { config with responderAddress := source.responderAddress }
  | .useJson => { config with useJson := source.useJson }
  | .statsFolderPath => { config with statsFolderPath := source.statsFolderPath }
  | .useMsgPerMinute => { config with useMsgPerMinute := source.useMsgPerMinute }
  | .protocol => { config with protocol := source.protocol }
  | .integer setting => setting.store config (setting.stored source)

theorem denotes_signedDecimal (n : Int32) : Denotes (signedDecimal n) n.toInt := by
  have digits : ∀ c ∈ decimal n.toInt.natAbs, c.isDigit = true := fun c => decimal_is_digit
  have value : Nat.ofDigitChars 10 (decimal n.toInt.natAbs) 0 = n.toInt.natAbs :=
    Nat.ofDigitChars_ten_toDigits
  unfold signedDecimal
  split
  · have numeral := Denotes.numeral [] .minus _ (by simp) (decimal_ne_nil _) digits
    rw [value] at numeral
    have negative : Sign.minus.applied n.toInt.natAbs = n.toInt := by
      simp only [Sign.applied]
      omega
    rwa [negative] at numeral
  · have numeral := Denotes.numeral [] .absent _ (by simp) (decimal_ne_nil _) digits
    rw [value] at numeral
    have positive : Sign.absent.applied n.toInt.natAbs = n.toInt := by
      simp only [Sign.applied]
      omega
    rwa [positive] at numeral

theorem convert_signedDecimal (n : Int32) : convertStringToInt (signedDecimal n) = n := by
  have nonempty : signedDecimal n ≠ [] := by
    unfold signedDecimal
    split
    · exact List.cons_ne_nil _ _
    · exact decimal_ne_nil _
  have fits : FitsInt n.toInt := ⟨n.le_toInt, n.toInt_lt⟩
  rw [← Int32.toInt_inj, convert_long nonempty (denotes_signedDecimal n) (fits_long fits),
    truncated_exact fits]

theorem truth_iff (flag : Bool) : truth flag = "true".toList ↔ flag = true := by
  cases flag <;> decide

theorem assign_text (source config : Config) (field : Field) :
    assignKeyValue config field.latestSection field.key (field.text source) =
      field.copy source config := by
  cases field with
  | integer setting =>
    simp only [Field.latestSection, Field.key, Field.text, Field.copy]
    rw [assign_own, convert_signedDecimal]
  | _ =>
    simp only [assignKeyValue, assignGeneral, Field.latestSection, Field.key, Field.text, Field.copy,
      String.reduceEq, ↓reduceIte, truth_iff, Bool.decide_eq_true]

theorem copy_comm (source config : Config) (field other : Field) :
    field.copy source (other.copy source config) = other.copy source (field.copy source config) := by
  rcases field with _ | _ | _ | _ | _ | _ | ⟨_ | _ | _ | _ | _ | _ | _ | _⟩ <;>
    rcases other with _ | _ | _ | _ | _ | _ | ⟨_ | _ | _ | _ | _ | _ | _ | _⟩ <;> rfl

theorem copy_twice (source config : Config) (field : Field) :
    field.copy source (field.copy source config) = field.copy source config := by
  rcases field with _ | _ | _ | _ | _ | _ | ⟨_ | _ | _ | _ | _ | _ | _ | _⟩ <;> rfl

def fields : List Field :=
  [.protocol, .mainAddress, .responderAddress, .integer .numThreads, .integer .numMessages,
    .integer .messageSize, .statsFolderPath, .useJson, .integer .saveIntervalSeconds,
    .useMsgPerMinute, .integer .msgPerMinute, .integer .signalMsgTimeout,
    .integer .clientSleepStartingTime, .integer .serverSleepStartingTime]

theorem mem_fields (field : Field) : field ∈ fields := by
  rcases field with _ | _ | _ | _ | _ | _ | ⟨_ | _ | _ | _ | _ | _ | _ | _⟩ <;> simp [fields]

theorem eq_of_copies {source config : Config} (same : ∀ field : Field, field.copy source config = config) :
    config = source := by
  have all : fields.foldl (fun config field => field.copy source config) config = source := by
    simp only [fields, List.foldl_cons, List.foldl_nil, Field.copy, Setting.store, Setting.stored]
  rw [← all]
  simp only [fields, List.foldl_cons, List.foldl_nil, same]

def assignments (sections : List Section) : List (String × String × String) :=
  sections.flatMap fun part => part.entries.map fun entry => (part.name, entry)

def assign (config : Config) (assignment : String × String × String) : Config :=
  assignKeyValue config assignment.1 assignment.2.1 assignment.2.2.toList

def Field.assignment (config : Config) (field : Field) : String × String × String :=
  (field.latestSection, field.key, String.ofList (field.text config))

theorem assignSections_eq (config : Config) (sections : List Section) :
    assignSections config sections = (assignments sections).foldl assign config := by
  induction sections generalizing config with
  | nil => rfl
  | cons part sections ih =>
    rw [assignments, List.flatMap_cons, List.foldl_append, ← assignments, List.foldl_map]
    exact ih (assignSection config part)

theorem assign_field (source config : Config) (field : Field) :
    assign config (field.assignment source) = field.copy source config := by
  rw [assign, Field.assignment, String.toList_ofList]
  exact assign_text source config field

section Folds
variable {source config : Config} {list : List (String × String × String)}
  (known : ∀ assignment ∈ list, ∃ field, assignment = Field.assignment source field)
include known

theorem fold_keeps {field : Field} (same : field.copy source config = config) :
    field.copy source (list.foldl assign config) = list.foldl assign config := by
  induction list generalizing config with
  | nil => exact same
  | cons first list ih =>
    rw [List.forall_mem_cons] at known
    obtain ⟨⟨other, rfl⟩, later⟩ := known
    rw [List.foldl_cons, assign_field]
    apply ih later
    rw [copy_comm, same]

theorem fold_copies {field : Field} (member : field.assignment source ∈ list) :
    field.copy source (list.foldl assign config) = list.foldl assign config := by
  induction list generalizing config with
  | nil => cases member
  | cons first list ih =>
    rw [List.forall_mem_cons] at known
    rw [List.foldl_cons]
    rcases List.mem_cons.mp member with here | later
    · apply fold_keeps known.2
      rw [← here, assign_field, copy_twice]
    · exact ih known.2 later

end Folds

/-- A file that gives every setting of a configuration under its section and key, in any order
    and in any division into sections of which the last has keys, is read as that configuration. -/
theorem settings_round_trip (config initial : Config) (clientAction serverAction : ActionType)
    (sections : List Section)
    (listed : ∀ assignment, assignment ∈ assignments sections ↔
      ∃ field, assignment = Field.assignment config field)
    (full : endsEmpty sections = false) :
    ∃ fuel, ∀ more, fuel ≤ more →
      readConfig more initial clientAction serverAction (document sections) =
        some (.read config) := by
  obtain ⟨fuel, reads⟩ := document_reads (newActions initial clientAction serverAction) sections
  refine ⟨fuel, fun more enough => ?_⟩
  have back : ∀ start, assignSections start sections = config := by
    intro start
    rw [assignSections_eq]
    apply eq_of_copies
    intro field
    exact fold_copies (fun assignment member => (listed assignment).mp member)
      ((listed _).mpr ⟨field, rfl⟩)
  rw [readConfig, reads more enough, settled, full, back]
  rfl

def fileOf (config : Config) : List Section :=
  let entry := fun field : Field => (field.key, String.ofList (field.text config))
  [⟨"general", (fields.take 12).map entry⟩,
    ⟨"client", [Field.integer .clientSleepStartingTime].map entry⟩,
    ⟨"server", [Field.integer .serverSleepStartingTime].map entry⟩]

theorem fileOf_listed (config : Config) (assignment : String × String × String) :
    assignment ∈ assignments (fileOf config) ↔ ∃ field, assignment = Field.assignment config field := by
  have listed : assignments (fileOf config) = fields.map (Field.assignment config) := rfl
  rw [listed, List.mem_map]
  constructor
  · rintro ⟨field, -, rfl⟩
    exact ⟨field, rfl⟩
  · rintro ⟨field, rfl⟩
    exact ⟨field, mem_fields field, rfl⟩

def shippedConfig : Config :=
  { mainAddress := "127.0.0.1:5555".toList
    responderAddress := "127.0.0.1:5556".toList
    protocol := "udp".toList
    numThreads := 1
    numMessages := 3950
    useJson := false
    useMsgPerMinute := true
    msgPerMinute := 1000
    saveIntervalSeconds := 20
    messageSize := 64
    statsFolderPath := "../stats".toList
    signalMsgTimeout := 500
    clientAction := ⟨1000⟩
    serverAction := ⟨3000⟩ }

def zeroConfig : Config :=
  ⟨⟨[], [], []⟩, 0, 0, false, false, 0, 0, 0, [], 0, ⟨0⟩, ⟨0⟩⟩

theorem settings_round_trip_shipped : ∃ fuel, ∀ more, fuel ≤ more →
    readConfig more zeroConfig ⟨7⟩ ⟨-1⟩ (document (fileOf shippedConfig)) =
      some (.read shippedConfig) :=
  settings_round_trip shippedConfig zeroConfig ⟨7⟩ ⟨-1⟩ (fileOf shippedConfig)
    (fileOf_listed shippedConfig) rfl

end RoundTrip

section Broken
variable {reader : Reader} {events : List YamlEvent}

def Unfinished (events : List YamlEvent) : Prop := ∀ event ∈ events, event ≠ .failed ∧ event ≠ .streamEnd

theorem readScalar_error_end (unfinished : Unfinished events) (key : String) :
    (readScalar key { reader with parser := events ++ [.failed] } =
        readScalar key { reader with parser := events ++ [.streamEnd] }) ∨
    ∃ (next : Reader) (rest : List YamlEvent), Unfinished rest ∧
      readScalar key { reader with parser := events ++ [.failed] } =
        .inl { next with parser := rest ++ [.failed] } ∧
      readScalar key { reader with parser := events ++ [.streamEnd] } =
        .inl { next with parser := rest ++ [.streamEnd] } := by
  rcases events with _ | ⟨first, rest⟩
  · exact Or.inl rfl
  · obtain ⟨⟨noError, noEnd⟩, later⟩ := List.forall_mem_cons.mp unfinished
    cases first with
    | failed => exact absurd rfl noError
    | streamEnd => exact absurd rfl noEnd
    | other =>
      exact Or.inr ⟨{ reader with latestSection := some key, keyDangles := true, loopCount := 0 }, rest,
        later, rfl, rfl⟩
    | scalar value =>
      cases inside : reader.latestSection with
      | none =>
        left
        simp only [readScalar, nextValue, List.cons_append, yamlParserParse]
      | some name =>
        refine Or.inr ⟨{ reader with
          config := assignKeyValue reader.config name key value.toList
          keyDangles := false
          loopCount := 0 }, rest, later, ?_, ?_⟩ <;>
          simp only [readScalar, nextValue, List.cons_append, yamlParserParse, inside]

theorem turn_error_end (unfinished : Unfinished events) :
    (turn { reader with parser := events ++ [.failed] } =
        turn { reader with parser := events ++ [.streamEnd] }) ∨
    ∃ (next : Reader) (rest : List YamlEvent), Unfinished rest ∧
      turn { reader with parser := events ++ [.failed] } =
        .inl { next with parser := rest ++ [.failed] } ∧
      turn { reader with parser := events ++ [.streamEnd] } =
        .inl { next with parser := rest ++ [.streamEnd] } := by
  by_cases few : 20 < reader.loopCount + 1
  · left
    rcases events with _ | ⟨_ | _ | _ | _, rest⟩ <;>
      simp only [turn, List.nil_append, List.cons_append, yamlParserParse, finish, if_pos few]
  · rcases events with _ | ⟨first, rest⟩
    · exact Or.inl rfl
    · obtain ⟨⟨noError, noEnd⟩, later⟩ := List.forall_mem_cons.mp unfinished
      cases first with
      | failed => exact absurd rfl noError
      | streamEnd => exact absurd rfl noEnd
      | other =>
        refine Or.inr ⟨{ reader with loopCount := reader.loopCount + 1 }, rest, later, ?_, ?_⟩ <;>
          simp only [turn, List.cons_append, yamlParserParse, if_neg few]
      | scalar key =>
        rcases readScalar_error_end later key with same | ⟨next, rest, more, failing, ending⟩
        · left
          simp only [turn, List.cons_append, yamlParserParse, if_neg few]
          exact same
        · refine Or.inr ⟨next, rest, more, ?_, ?_⟩
          · simp only [turn, List.cons_append, yamlParserParse, if_neg few]
            exact failing
          · simp only [turn, List.cons_append, yamlParserParse, if_neg few]
            exact ending

theorem error_reads_as_end (unfinished : Unfinished events) (fuel : Nat) :
    readLoop fuel { reader with parser := events ++ [.failed] } =
      readLoop fuel { reader with parser := events ++ [.streamEnd] } := by
  induction fuel generalizing reader events with
  | zero => rfl
  | succ fuel ih =>
    rcases turn_error_end unfinished with same | ⟨next, rest, more, failing, ending⟩
    · rw [readLoop, readLoop, same]
    · rw [readLoop_again failing, readLoop_again ending]
      exact ih more

/-- After an error or the end of the stream the parser only returns events of no type. -/
theorem loop_exhausted (turns : Nat) (reader : Reader) (empty : reader.parser = [])
    (left : reader.loopCount + turns = 20) : readLoop (turns + 1) reader = some .interrupted := by
  induction turns generalizing reader with
  | zero =>
    apply readLoop_stop
    simp only [turn, empty, yamlParserParse]
    rw [if_pos (by omega)]
  | succ turns ih =>
    have again : turn reader =
        .inl { reader with loopCount := reader.loopCount + 1, parser := [] } := by
      simp only [turn, empty, yamlParserParse]
      rw [if_neg (by omega)]
    rw [readLoop_again again]
    exact ih _ rfl (by dsimp only; omega)

theorem loop_key (few : reader.loopCount < 20) (key : String) :
    readLoop 22 { reader with parser := [.scalar key, .failed] } = some .interrupted := by
  have again : turn { reader with parser := [.scalar key, .failed] } =
      .inl { reader with
        latestSection := some key
        keyDangles := true
        loopCount := 0
        parser := [] } := by
    simp only [turn, yamlParserParse, readScalar, nextValue]
    rw [if_neg (by omega)]
  rw [readLoop_again again]
  exact loop_exhausted 20 _ rfl rfl

end Broken

/-- A file with two levels is read as its assignments one after the other. An error between two
    sections, or in a section between two entries, is taken for the end; one right after a key or
    the name of a section ends the process. -/
theorem document_outcome (config : Config) (clientAction serverAction : ActionType)
    (sections : List Section) (part : Section) (key : String) :
    ∃ fuel, ∀ more, fuel ≤ more →
      readConfig more config clientAction serverAction (document sections) =
        some (settled (newActions config clientAction serverAction) sections) ∧
      readConfig more config clientAction serverAction (continued sections [.failed]) =
        some (settled (newActions config clientAction serverAction) sections) ∧
      readConfig more config clientAction serverAction
          (continued sections (part.opened [.failed])) =
        some (settled (newActions config clientAction serverAction) (sections ++ [part])) ∧
      readConfig more config clientAction serverAction (continued sections [.scalar key, .failed]) =
        some .interrupted ∧
      readConfig more config clientAction serverAction
          (continued sections (part.opened [.scalar key, .failed])) =
        some .interrupted := by
  unfold readConfig
  generalize newActions config clientAction serverAction = config
  obtain ⟨fuel, complete⟩ := document_reads config sections
  obtain ⟨between, _, _, -, betweenReads⟩ := read_sections config sections [.failed]
  obtain ⟨inside, _, _, -, insideReads⟩ := read_opened config sections part [.failed]
  obtain ⟨named, _, count, few, namedReads⟩ :=
    read_sections config sections [.scalar key, .failed]
  obtain ⟨keyed, _, count', few', keyedReads⟩ :=
    read_opened config sections part [.scalar key, .failed]
  refine ⟨fuel + (between + 1) + (inside + 1) + (named + 22) + (keyed + 22),
    fun more enough => ⟨complete more (by omega), ?_, ?_, ?_, ?_⟩⟩
  · exact readLoop_mono (betweenReads 1) (by omega)
  · exact readLoop_mono (insideReads 1) (by omega)
  · have ends := (namedReads 22).trans (@loop_key ⟨_, _, _, count, []⟩
      (by dsimp only; omega) key)
    exact readLoop_mono ends (by omega)
  · have ends := (keyedReads 22).trans (@loop_key ⟨_, _, _, count', []⟩
      (by dsimp only; omega) key)
    exact readLoop_mono ends (by omega)

/-- Whatever the parser returns, read_config ends, and it ends in the same way for an error as for
    an end of the stream in its place. -/
theorem read_config_ends (config : Config) (clientAction serverAction : ActionType)
    (events : List YamlEvent) (unfinished : Unfinished events) :
    (∃ fuel outcome, readConfig fuel config clientAction serverAction events = some outcome) ∧
    ∃ fuel outcome,
      readConfig fuel config clientAction serverAction (events ++ [.failed]) = some outcome ∧
      readConfig fuel config clientAction serverAction (events ++ [.streamEnd]) = some outcome := by
  unfold readConfig
  generalize newActions config clientAction serverAction = config
  constructor
  · exact ⟨_, readLoop_ends (opening config events) (Nat.lt_succ_self _)⟩
  · obtain ⟨outcome, ended⟩ :=
      readLoop_ends (opening config (events ++ [.failed])) (Nat.lt_succ_self _)
    exact ⟨_, outcome, ended, (@error_reads_as_end (opening config events) events unfinished _).symm.trans
      ended⟩

theorem read_config_ends_shipped :
    (∃ fuel outcome,
      readConfig fuel shippedConfig ⟨7⟩ ⟨-1⟩ [.other, .scalar "client"] = some outcome) ∧
    ∃ fuel outcome,
      readConfig fuel shippedConfig ⟨7⟩ ⟨-1⟩ ([.other, .scalar "client"] ++ [.failed]) =
        some outcome ∧
      readConfig fuel shippedConfig ⟨7⟩ ⟨-1⟩ ([.other, .scalar "client"] ++ [.streamEnd]) =
        some outcome :=
  read_config_ends shippedConfig ⟨7⟩ ⟨-1⟩ [.other, .scalar "client"] (by simp [Unfinished])

end RealMQ.SettingsFile
