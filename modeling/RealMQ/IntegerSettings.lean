import RealMQ.CoreConfig

/- convert_string_to_int and assign_key_value of common/core/config.c. Sections and keys are
   only compared with literals; an int has 32 bits. -/
namespace RealMQ.IntegerSettings
open CStrings

structure ActionType where
  sleepStartingTime : Int32

structure Config extends CoreConfig.Config where
  numThreads : Int32
  numMessages : Int32
  useJson : Bool
  useMsgPerMinute : Bool
  msgPerMinute : Int32
  saveIntervalSeconds : Int32
  messageSize : Int32
  statsFolderPath : CString
  signalMsgTimeout : Int32
  clientAction : ActionType
  serverAction : ActionType

def convertStringToInt (value : CString) : Int32 :=
  let num := strtol value
  if num.endptr ≠ [] ∨ num.erange = true then -1 else num.result.toInt32

def assignGeneral (config : Config) (key : String) (value : CString) : Config :=
  if key = "main_address" then { config with mainAddress := value }
  else if key = "responder_address" then { config with responderAddress := value }
  else if key = "num_threads" then { config with numThreads := convertStringToInt value }
  else if key = "num_messages" then { config with numMessages := convertStringToInt value }
  else if key = "use_json" then { config with useJson := decide (value = "true".toList) }
  else if key = "save_interval_seconds" then
    { config with saveIntervalSeconds := convertStringToInt value }
  else if key = "stats_folder_path" then { config with statsFolderPath := value }
  else if key = "use_msg_per_minute" then
    { config with useMsgPerMinute := decide (value = "true".toList) }
  else if key = "msg_per_minute" then { config with msgPerMinute := convertStringToInt value }
  else if key = "message_size" then { config with messageSize := convertStringToInt value }
  else if key = "protocol" then { config with protocol := value }
  else if key = "signal_msg_timeout" then { config with signalMsgTimeout := convertStringToInt value }
  else config

def assignAction (action : ActionType) (key : String) (value : CString) : ActionType :=
  if key = "sleep_starting_time" then { action with sleepStartingTime := convertStringToInt value }
  else action

def assignKeyValue (config : Config) (latestSection key : String) (value : CString) : Config :=
  if latestSection = "general" then assignGeneral config key value
  else if latestSection = "client" then
    { config with clientAction := assignAction config.clientAction key value }
  else if latestSection = "server" then
    { config with serverAction := assignAction config.serverAction key value }
  else config

inductive Setting where
  | numThreads
  | numMessages
  | saveIntervalSeconds
  | msgPerMinute
  | messageSize
  | signalMsgTimeout
  | clientSleepStartingTime
  | serverSleepStartingTime

def Setting.latestSection : Setting → String
  | .clientSleepStartingTime => "client"
  | .serverSleepStartingTime => "server"
  | _ => "general"

def Setting.key : Setting → String
  | .numThreads => "num_threads"
  | .numMessages => "num_messages"
  | .saveIntervalSeconds => "save_interval_seconds"
  | .msgPerMinute => "msg_per_minute"
  | .messageSize => "message_size"
  | .signalMsgTimeout => "signal_msg_timeout"
  | .clientSleepStartingTime => "sleep_starting_time"
  | .serverSleepStartingTime => "sleep_starting_time"

def Setting.stored (config : Config) : Setting → Int32
  | .numThreads => config.numThreads
  | .numMessages => config.numMessages
  | .saveIntervalSeconds => config.saveIntervalSeconds
  | .msgPerMinute => config.msgPerMinute
  | .messageSize => config.messageSize
  | .signalMsgTimeout => config.signalMsgTimeout
  | .clientSleepStartingTime => config.clientAction.sleepStartingTime
  | .serverSleepStartingTime => config.serverAction.sleepStartingTime

def Setting.store (config : Config) (value : Int32) : Setting → Config
  | .numThreads => { config with numThreads := value }
  | .numMessages => { config with numMessages := value }
  | .saveIntervalSeconds => { config with saveIntervalSeconds := value }
  | .msgPerMinute => { config with msgPerMinute := value }
  | .messageSize => { config with messageSize := value }
  | .signalMsgTimeout => { config with signalMsgTimeout := value }
  | .clientSleepStartingTime => { config with clientAction := ⟨value⟩ }
  | .serverSleepStartingTime => { config with serverAction := ⟨value⟩ }

def FitsInt (v : Int) : Prop := -2 ^ 31 ≤ v ∧ v < 2 ^ 31

instance (v : Int) : Decidable (FitsInt v) := instDecidableAnd

/-- The number that the text denotes, or -1 where it denotes none that fits. -/
structure ExactOrRejected (value : CString) (result : Int32) : Prop where
  exact : ∀ v, Denotes value v → FitsInt v → result.toInt = v
  rejected : (¬ ∃ v, Denotes value v ∧ FitsInt v) → result = -1

/-- A numeral too long for an int but not for a long, with other low bits than -1. -/
def Truncated (value : CString) : Prop :=
  ∃ v, Denotes value v ∧ FitsLong v ∧ ¬ FitsInt v ∧ (v + 1) % 2 ^ 32 ≠ 0

section Assignment
variable (config : Config) (setting : Setting)

theorem assign_own (value : CString) :
    assignKeyValue config setting.latestSection setting.key value =
      setting.store config (convertStringToInt value) := by
  cases setting <;>
    simp only [assignKeyValue, assignGeneral, assignAction, Setting.latestSection, Setting.key,
      Setting.store, String.reduceEq, ↓reduceIte]

theorem stored_store (value : Int32) : setting.stored (setting.store config value) = value := by
  cases setting <;> rfl

end Assignment

section Conversion
variable {value : CString} {v : Int}

theorem convert_other (other : (strtol value).endptr ≠ []) : convertStringToInt value = -1 := by
  unfold convertStringToInt
  exact if_pos (Or.inl other)

theorem convert_long (nonempty : value ≠ []) (denotes : Denotes value v) (long : FitsLong v) :
    (convertStringToInt value).toInt = v.bmod (2 ^ 32) := by
  obtain ⟨atEnd, reads⟩ := (denotes_iff nonempty).mp denotes
  rw [← reads] at long ⊢
  have accepted : ¬ ((strtol value).endptr ≠ [] ∨ (strtol value).erange = true) := by
    unfold strtol
    simp [atEnd, long]
  unfold convertStringToInt
  dsimp only
  rw [if_neg accepted, Int64.toInt_toInt32, strtol_result long]

theorem convert_longer (nonempty : value ≠ []) (denotes : Denotes value v) (longer : ¬ FitsLong v) :
    convertStringToInt value = -1 := by
  obtain ⟨-, reads⟩ := (denotes_iff nonempty).mp denotes
  rw [← reads] at longer
  have erange : (strtol value).erange = true := decide_eq_true longer
  unfold convertStringToInt
  exact if_pos (Or.inr erange)

theorem denotes_unique (nonempty : value ≠ []) {w : Int} (denotes : Denotes value v)
    (denotes' : Denotes value w) : v = w :=
  ((denotes_iff nonempty).mp denotes).2.symm.trans ((denotes_iff nonempty).mp denotes').2

theorem minus_one_iff (result : Int32) : result = -1 ↔ result.toInt = -1 := by
  rw [← Int32.toInt_inj]
  rfl

theorem truncated_minus_one_iff : v.bmod (2 ^ 32) = -1 ↔ (v + 1) % 2 ^ 32 = 0 := by
  rw [Int.bmod_def]
  split <;> push_cast at * <;> omega

theorem truncated_exact (fits : FitsInt v) : v.bmod (2 ^ 32) = v := by
  obtain ⟨low, high⟩ := fits
  exact Int.bmod_eq_of_le (by omega) (by omega)

theorem fits_long (fits : FitsInt v) : FitsLong v := by
  obtain ⟨low, high⟩ := fits
  exact ⟨by omega, by omega⟩

theorem exact_or_rejected_numeral (nonempty : value ≠ []) (denotes : Denotes value v)
    (result : Int32) :
    ExactOrRejected value result ↔ (FitsInt v → result.toInt = v) ∧ (¬ FitsInt v → result = -1) := by
  constructor
  · intro right
    constructor
    · exact right.exact v denotes
    · intro outside
      apply right.rejected
      rintro ⟨w, denotes', fits⟩
      exact outside (denotes_unique nonempty denotes denotes' ▸ fits)
  · intro right
    constructor
    · intro w denotes' fits
      obtain rfl := denotes_unique nonempty denotes denotes'
      exact right.1 fits
    · intro none
      exact right.2 fun fits => none ⟨v, denotes, fits⟩

theorem truncated_numeral (nonempty : value ≠ []) (denotes : Denotes value v) :
    Truncated value ↔ FitsLong v ∧ ¬ FitsInt v ∧ (v + 1) % 2 ^ 32 ≠ 0 := by
  constructor
  · intro truncated
    obtain ⟨w, denotes', conditions⟩ := truncated
    obtain rfl := denotes_unique nonempty denotes denotes'
    exact conditions
  · intro conditions
    exact ⟨v, denotes, conditions⟩

theorem exact_or_rejected_iff (nonempty : value ≠ []) :
    ExactOrRejected value (convertStringToInt value) ↔ ¬ Truncated value := by
  by_cases numeral : ∃ v, Denotes value v
  · obtain ⟨v, denotes⟩ := numeral
    rw [exact_or_rejected_numeral nonempty denotes, truncated_numeral nonempty denotes]
    by_cases long : FitsLong v
    · rw [minus_one_iff, convert_long nonempty denotes long, truncated_minus_one_iff]
      have exact := @truncated_exact v
      tauto
    · have small : ¬ FitsInt v := fun fits => long (fits_long fits)
      have rejected := convert_longer nonempty denotes long
      tauto
  · have other : (strtol value).endptr ≠ [] := by
      intro atEnd
      exact numeral ⟨_, (denotes_iff nonempty).mpr ⟨atEnd, rfl⟩⟩
    refine iff_of_true ?_ ?_
    · constructor
      · intro v denotes
        exact absurd ⟨v, denotes⟩ numeral
      · intro _
        exact convert_other other
    · rintro ⟨v, denotes, -⟩
      exact numeral ⟨v, denotes⟩

end Conversion

/-- What is converted and what is stored is right for every text except for numerals that fit in
    a long only. -/
theorem integer_settings_iff (value : CString) (nonempty : value ≠ []) :
    (ExactOrRejected value (convertStringToInt value) ∧
      ∀ (config : Config) (setting : Setting), ExactOrRejected value
        (setting.stored (assignKeyValue config setting.latestSection setting.key value))) ↔
      ¬ Truncated value := by
  rw [← exact_or_rejected_iff nonempty]
  constructor
  · intro right
    exact right.1
  · intro right
    refine ⟨right, fun config setting => ?_⟩
    rw [assign_own, stored_store]
    exact right

theorem integer_settings_twelve :
    (ExactOrRejected [' ', '+', '1', '2'] (convertStringToInt [' ', '+', '1', '2']) ∧
      ∀ (config : Config) (setting : Setting), ExactOrRejected [' ', '+', '1', '2']
        (setting.stored (assignKeyValue config setting.latestSection setting.key
          [' ', '+', '1', '2']))) ↔
      ¬ Truncated [' ', '+', '1', '2'] :=
  integer_settings_iff [' ', '+', '1', '2'] (List.cons_ne_nil _ _)

/-- 2^32 is neither rejected nor exact: it becomes 0. -/
theorem two_to_the_32_becomes_zero :
    ¬ ∀ value : CString, value ≠ [] → ExactOrRejected value (convertStringToInt value) := by
  intro always
  have right := always "4294967296".toList (by decide)
  have denotes : Denotes "4294967296".toList 4294967296 :=
    .numeral [] .absent "4294967296".toList (by simp) (by decide) (by simp)
  have zero := convert_long (by decide) denotes (by decide)
  have rejected := ((exact_or_rejected_numeral (by decide) denotes _).mp right).2 (by decide)
  rw [minus_one_iff, zero] at rejected
  exact absurd rejected (by decide)

end RealMQ.IntegerSettings
