import RealMQ.SettingsFile
import RealMQ.Foundation.Ownership

/- The start of both programs once the settings are read: print_configuration of core/config.c and
   the addresses of the sockets that main opens, with their memory. A cell is none where its byte
   is NUL. Allocations succeed, and over tcp and udp every socket can be opened; fresh blocks are
   taken as zeroed, since nothing reads them before they are written. -/
namespace RealMQ.StartUp
open CStrings IntegerSettings Heaps
open CoreConfig (AddressType addressOf fullAddress)

abbrev Memory := Heap (Option Char)

/-- blocked: the thread waits for g_ip_address_mutex, which it has itself. refused: the process
    ends with the SIGINT of get_zmq_type or an assertion of create_socket. -/
inductive Stop where
  | blocked
  | undefined
  | refused
  deriving DecidableEq

def orUndefined {α : Type} : Option α → Except Stop α
  | none => .error .undefined
  | some x => .ok x

def write (memory : Memory) (pointer : Pointer) (text : CString) : Option Memory :=
  pointer.bind fun p => (memory.block p).bind fun content =>
    if text.length < content.length then
      some (alter memory p (some (text.map some ++ none :: content.drop (text.length + 1))))
    else none

def snprintf (memory : Memory) (pointer : Pointer) (n : Nat) (text : CString) : Option Memory :=
  write memory pointer (text.take (n - 1))

def textAt (memory : Memory) (pointer : Pointer) : Option CString :=
  (cells memory pointer).bind fun content =>
    if none ∈ content then some (content.takeWhile Option.isSome).reduceOption else none

def printed (memory : Memory) : Pointer → Option CString
  | none => some "(null)".toList
  | some p => textAt memory (some p)

structure Globals where
  memory : Memory
  gIpAddress : Pointer
  locked : Bool

def getAddress (config : CoreConfig.Config) (addressType : AddressType) (globals : Globals) :
    Except Stop (Globals × Pointer) :=
  if globals.locked then .error .blocked
  else
    (orUndefined (free globals.memory globals.gIpAddress)).bind fun memory =>
    let gIpAddress := some memory.next
    let memory := allocate memory (List.replicate 64 none)
    match addressOf config addressType with
    | none => (orUndefined (free memory gIpAddress)).map fun memory => (⟨memory, none, true⟩, none)
    | some address =>
      let written := fullAddress config address
      (orUndefined (snprintf memory gIpAddress 64 written)).bind fun memory =>
        if 64 ≤ written.length then
          (orUndefined (free memory gIpAddress)).map fun memory => (⟨memory, none, true⟩, none)
        else .ok (⟨memory, gIpAddress, false⟩, gIpAddress)

/-- The product of two ints must be an int. -/
def totalMessages (config : Config) : Option Int32 :=
  if FitsInt (config.numThreads.toInt * config.numMessages.toInt) then
    some (Int32.ofInt (config.numThreads.toInt * config.numMessages.toInt))
  else none

def yesNo (flag : Bool) : CString := if flag then "yes".toList else "no".toList

def ruler : CString := "------------------------------------------------\n".toList

def configurationText (qosEnable : Bool) (config : Config) (mainAddress responderAddress : CString)
    (total : Int32) : CString :=
  "\n".toList ++ ruler ++ "Configuration:\n".toList ++
  "Address Main/Responder: ".toList ++ mainAddress ++ ", ".toList ++ responderAddress ++
  "\nNumber of threads: ".toList ++ signedDecimal config.numThreads ++
  "\nNumber of messages (x thread): ".toList ++ signedDecimal config.numMessages ++
  " (size ".toList ++ signedDecimal config.messageSize ++
  " Bytes)\nTotal messages: ".toList ++ signedDecimal total ++
  "\nUse messages per minute: ".toList ++ yesNo config.useMsgPerMinute ++
  " (".toList ++ signedDecimal config.msgPerMinute ++
  " msg/min)\nUse JSON: ".toList ++ yesNo config.useJson ++
  "\nSave interval: ".toList ++ signedDecimal config.saveIntervalSeconds ++
  " s\nStats filepath: ".toList ++ config.statsFolderPath ++
  "\nClient/Server sleep starting time: ".toList ++
  signedDecimal config.clientAction.sleepStartingTime ++ "/".toList ++
  signedDecimal config.serverAction.sleepStartingTime ++ " ms\n".toList ++ ruler ++
  "PROTOCOL: ".toList ++ config.protocol ++ "\nQOS: ".toList ++ yesNo qosEnable ++ "\n".toList ++
  ruler ++ "\n".toList

/-- A format that is defined without arguments. -/
def plain : CString → Bool
  | [] => true
  | '%' :: '%' :: rest => plain rest
  | '%' :: _ => false
  | _ :: rest => plain rest

/-- The last part of print_configuration. The logger takes the text for a format. -/
def logConfiguration (qosEnable : Bool) (config : Config)
    (configuration mainAddress responderAddress : Pointer) (memory : Memory) : Option Memory :=
  (textAt memory mainAddress).bind fun mainText =>
  (textAt memory responderAddress).bind fun responderText =>
  (totalMessages config).bind fun total =>
  (snprintf memory configuration 1024
    (configurationText qosEnable config mainText responderText total)).bind fun memory =>
  (textAt memory configuration).bind fun format =>
  if plain format then
    (free memory mainAddress).bind fun memory =>
    (free memory responderAddress).bind fun memory => free memory configuration
  else none

def printAddress (config : CoreConfig.Config) (addressType : AddressType) (n : Nat)
    (target : Pointer) (globals : Globals) : Except Stop Globals :=
  (getAddress config addressType globals).bind fun (globals, address) =>
  (orUndefined ((printed globals.memory address).bind (snprintf globals.memory target n))).map
    fun memory => { globals with memory := memory }

/-- The two buffers have 32 bytes each, whatever snprintf is told. -/
def printConfiguration (qosEnable : Bool) (config : Config) (globals : Globals) :
    Except Stop Globals :=
  let configuration := globals.memory.next
  let memory := allocate globals.memory (List.replicate 1024 none)
  let mainAddress := memory.next
  let memory := allocate memory (List.replicate 32 none)
  let responderAddress := memory.next
  let memory := allocate memory (List.replicate 32 none)
  (printAddress config.toConfig .mainAddress 65 (some mainAddress)
    { globals with memory := memory }).bind fun globals =>
  (printAddress config.toConfig .responderAddress 64 (some responderAddress) globals).bind
    fun globals =>
  (orUndefined (logConfiguration qosEnable config (some configuration) (some mainAddress)
    (some responderAddress) globals.memory)).map fun memory => { globals with memory := memory }

def Handled (config : CoreConfig.Config) : Prop :=
  config.protocol = "tcp".toList ∨ config.protocol = "udp".toList

instance (config : CoreConfig.Config) : Decidable (Handled config) := instDecidableOr

/-- create_socket reads the text of its address before the next one is composed. The address is
    asked for first; C leaves the order of the arguments of create_socket open. -/
def openSockets (config : CoreConfig.Config) :
    List AddressType → Globals → Except Stop (Globals × List CString)
  | [], globals => .ok (globals, [])
  | addressType :: rest, globals =>
    (getAddress config addressType globals).bind fun (globals, address) =>
    (orUndefined (printed globals.memory address)).bind fun connection =>
    if Handled config then
      (openSockets config rest globals).map fun (globals, connections) =>
        (globals, connection :: connections)
    else .error .refused

def startUp (qosEnable : Bool) (config : Config) (sockets : List AddressType) (globals : Globals) :
    Except Stop (Globals × List CString) :=
  (printConfiguration qosEnable config globals).bind (openSockets config.toConfig sockets)

def releaseAddress (globals : Globals) : Option Memory := free globals.memory globals.gIpAddress

abbrev Blocks := Multiset (Nat × List (Option Char))

def padded (n : Nat) (text : CString) : List (Option Char) :=
  text.map some ++ List.replicate (n - text.length) none

section Texts
variable {memory : Memory} {frame : Blocks} {p n : Nat} {text : CString}

theorem padded_write (fits : text.length < n) :
    text.map some ++ none :: (List.replicate n none).drop (text.length + 1) = padded n text := by
  obtain ⟨room, size⟩ : ∃ room, n - text.length = room + 1 := ⟨n - text.length - 1, by omega⟩
  have left : n - (text.length + 1) = room := by omega
  rw [padded, size, List.replicate_succ, List.drop_replicate, left]

theorem write_owned (owns : Owns memory ({(p, List.replicate n none)} + frame))
    (fits : text.length < n) : ∃ after, write memory (some p) text = some after ∧
      Owns after ({(p, padded n text)} + frame) := by
  refine ⟨_, ?_, owns_alter owns (padded n text)⟩
  unfold write
  rw [Option.bind_some, owned_block owns, Option.bind_some, List.length_replicate, if_pos fits,
    padded_write fits]

theorem write_outside (owns : Owns memory ({(p, List.replicate n none)} + frame))
    (long : n ≤ text.length) : write memory (some p) text = none := by
  unfold write
  rw [Option.bind_some, owned_block owns, Option.bind_some, List.length_replicate, if_neg (by omega)]

theorem text_padded (room : Nat) (text : CString) :
    ((text.map some ++ List.replicate room none).takeWhile Option.isSome).reduceOption = text := by
  induction text with
  | nil =>
    cases room <;> rfl
  | cons c text ih =>
    have rest := congrArg (List.cons c) ih
    simpa using rest

theorem textAt_owned {blocks : Blocks} (owns : Owns memory blocks)
    (member : (p, padded n text) ∈ blocks) (fits : text.length < n) :
    textAt memory (some p) = some text := by
  have terminated : none ∈ padded n text := by
    unfold padded
    apply List.mem_append_right
    exact List.mem_replicate.mpr ⟨by omega, rfl⟩
  unfold textAt
  rw [owned_member owns member, Option.bind_some, if_pos terminated, padded, text_padded]

theorem textAt_first (owns : Owns memory ({(p, padded n text)} + frame)) (fits : text.length < n) :
    textAt memory (some p) = some text :=
  textAt_owned owns (Multiset.mem_add.mpr (Or.inl (Multiset.mem_singleton_self _))) fits

end Texts

def shareOf : Pointer → List (Option Char) → Blocks
  | none, _ => 0
  | some p, content => {(p, content)}

structure Ready (frame : Blocks) (globals : Globals) : Prop where
  unlocked : globals.locked = false
  owned : ∃ content, Owns globals.memory (shareOf globals.gIpAddress content + frame)

def nullText : CString := "(null)".toList

section Addresses
variable {config : CoreConfig.Config} {addressType : AddressType} {address : CString}
  {globals : Globals} {memory : Memory} {frame : Blocks} {p q n : Nat}

theorem ready_free (ready : Ready frame globals) :
    ∃ after, free globals.memory globals.gIpAddress = some after ∧ Owns after frame := by
  obtain ⟨content, owns⟩ := ready.owned
  cases pointer : globals.gIpAddress with
  | none =>
    rw [pointer, shareOf, zero_add] at owns
    exact ⟨globals.memory, rfl, owns⟩
  | some p =>
    rw [pointer] at owns
    exact owns_free owns

theorem ready_allocate (ready : Ready frame globals) (content : List (Option Char)) :
    Ready ({(globals.memory.next, content)} + frame)
      { globals with memory := allocate globals.memory content } := by
  obtain ⟨text, owns⟩ := ready.owned
  refine ⟨ready.unlocked, text, ?_⟩
  rw [add_left_comm]
  exact owns_allocate owns

theorem getAddress_short (ready : Ready frame globals)
    (known : addressOf config addressType = some address)
    (short : (fullAddress config address).length < 64) : ∃ memory p,
    getAddress config addressType globals = .ok (⟨memory, some p, false⟩, some p) ∧
      Owns memory ({(p, padded 64 (fullAddress config address))} + frame) := by
  obtain ⟨cleared, freed, owns⟩ := ready_free ready
  obtain ⟨memory, written, owned⟩ := write_owned (owns_allocate owns) short
  refine ⟨memory, cleared.next, ?_, owned⟩
  have whole : snprintf (allocate cleared (List.replicate 64 none)) (some cleared.next) 64
      (fullAddress config address) = some memory := by
    rw [snprintf, List.take_of_length_le (by omega), written]
  unfold getAddress
  rw [if_neg (by rw [ready.unlocked]; exact Bool.false_ne_true), freed, known]
  simp only [orUndefined, Except.bind]
  rw [whole]
  dsimp only
  rw [if_neg (by omega)]

theorem getAddress_long (ready : Ready frame globals)
    (known : addressOf config addressType = some address)
    (long : 64 ≤ (fullAddress config address).length) : ∃ memory,
    getAddress config addressType globals = .ok (⟨memory, none, true⟩, none) ∧
      Owns memory frame := by
  obtain ⟨cleared, freed, owns⟩ := ready_free ready
  have cut : ((fullAddress config address).take 63).length < 64 := by
    rw [List.length_take]
    omega
  obtain ⟨between, written, owned⟩ := write_owned (owns_allocate owns) cut
  obtain ⟨memory, last, final⟩ := owns_free owned
  refine ⟨memory, ?_, final⟩
  have part : snprintf (allocate cleared (List.replicate 64 none)) (some cleared.next) 64
      (fullAddress config address) = some between := written
  unfold getAddress
  rw [if_neg (by rw [ready.unlocked]; exact Bool.false_ne_true), freed, known]
  simp only [orUndefined, Except.bind]
  rw [part]
  dsimp only
  rw [if_pos long, last]
  rfl

theorem getAddress_locked (locked : globals.locked = true) :
    getAddress config addressType globals = .error .blocked := if_pos locked

theorem print_short (ready : Ready ({(q, List.replicate 32 none)} + frame) globals)
    (known : addressOf config addressType = some address)
    (short : (fullAddress config address).length < 32) (enough : 32 < n) : ∃ after,
    printAddress config addressType n (some q) globals = .ok after ∧
      Ready ({(q, padded 32 (fullAddress config address))} + frame) after := by
  obtain ⟨memory, p, composed, owns⟩ := getAddress_short ready known (by omega)
  have reads : printed memory (some p) = some (fullAddress config address) :=
    textAt_first owns (by omega)
  rw [add_left_comm] at owns
  obtain ⟨after, written, owned⟩ := write_owned owns short
  rw [add_left_comm] at owned
  refine ⟨⟨after, some p, false⟩, ?_, rfl, padded 64 (fullAddress config address), owned⟩
  unfold printAddress
  rw [composed]
  simp only [Except.bind]
  rw [reads, Option.bind_some, snprintf, List.take_of_length_le (by omega), written]
  rfl

theorem print_outside (ready : Ready ({(q, List.replicate 32 none)} + frame) globals)
    (known : addressOf config addressType = some address)
    (long : 32 ≤ (fullAddress config address).length)
    (short : (fullAddress config address).length < 64) (enough : 32 < n) :
    printAddress config addressType n (some q) globals = .error .undefined := by
  obtain ⟨memory, p, composed, owns⟩ := getAddress_short ready known short
  have reads : printed memory (some p) = some (fullAddress config address) :=
    textAt_first owns short
  rw [add_left_comm] at owns
  have outside : write memory (some q) ((fullAddress config address).take (n - 1)) = none := by
    apply write_outside owns
    rw [List.length_take]
    omega
  unfold printAddress
  rw [composed]
  simp only [Except.bind]
  rw [reads, Option.bind_some, snprintf, outside]
  rfl

theorem print_null (ready : Ready ({(q, List.replicate 32 none)} + frame) globals)
    (known : addressOf config addressType = some address)
    (long : 64 ≤ (fullAddress config address).length) (enough : 32 < n) : ∃ after,
    printAddress config addressType n (some q) globals = .ok after ∧ after.locked = true ∧
      Owns after.memory ({(q, padded 32 nullText)} + frame) := by
  obtain ⟨memory, composed, owns⟩ := getAddress_long ready known long
  have size : nullText.length = 6 := rfl
  have shown : printed memory none = some nullText := rfl
  obtain ⟨after, written, owned⟩ := write_owned owns (show nullText.length < 32 by omega)
  refine ⟨⟨after, none, true⟩, ?_, rfl, owned⟩
  unfold printAddress
  rw [composed]
  simp only [Except.bind]
  rw [shown, Option.bind_some, snprintf, List.take_of_length_le (by omega), written]
  rfl

theorem print_locked (locked : globals.locked = true) {target : Pointer} :
    printAddress config addressType n target globals = .error .blocked := by
  unfold printAddress
  rw [getAddress_locked locked]
  rfl

end Addresses

/-- The total is an int, and the part of the text that is kept has no conversion in it. -/
def Reports (qosEnable : Bool) (config : Config) (mainText responderText : CString) : Prop :=
  FitsInt (config.numThreads.toInt * config.numMessages.toInt) ∧
    plain ((configurationText qosEnable config mainText responderText
      (Int32.ofInt (config.numThreads.toInt * config.numMessages.toInt))).take 1023) = true

instance (qosEnable : Bool) (config : Config) (mainText responderText : CString) :
    Decidable (Reports qosEnable config mainText responderText) := instDecidableAnd

section Printing
variable {qosEnable : Bool} {config : Config} {mainText responderText : CString}
  {globals : Globals} {memory : Memory} {frame : Blocks} {c m r : Nat}

def buffers (c m r : Nat) (mainText responderText : CString) : Blocks :=
  {(m, padded 32 mainText)} + ({(r, padded 32 responderText)} + {(c, List.replicate 1024 none)})

theorem log_configuration (owns : Owns memory (buffers c m r mainText responderText + frame))
    (first : mainText.length < 32) (second : responderText.length < 32) :
    (Reports qosEnable config mainText responderText ∧ ∃ after,
      logConfiguration qosEnable config (some c) (some m) (some r) memory = some after ∧
        Owns after frame) ∨
    ¬ Reports qosEnable config mainText responderText ∧
      logConfiguration qosEnable config (some c) (some m) (some r) memory = none := by
  have readMain : textAt memory (some m) = some mainText :=
    textAt_owned owns (by simp only [buffers, Multiset.mem_add, Multiset.mem_singleton, true_or])
      first
  have readResponder : textAt memory (some r) = some responderText :=
    textAt_owned owns (by simp only [buffers, Multiset.mem_add, Multiset.mem_singleton, true_or,
      or_true]) second
  unfold logConfiguration totalMessages
  rw [readMain, Option.bind_some, readResponder, Option.bind_some]
  by_cases fits : FitsInt (config.numThreads.toInt * config.numMessages.toInt)
  · rw [if_pos fits, Option.bind_some]
    generalize shown : (configurationText qosEnable config mainText responderText
      (Int32.ofInt (config.numThreads.toInt * config.numMessages.toInt))).take 1023 = format
    have short : format.length < 1024 := by
      rw [← shown, List.length_take]
      omega
    have apart : Owns memory ({(c, List.replicate 1024 none)} +
        ({(m, padded 32 mainText)} + ({(r, padded 32 responderText)} + frame))) := by
      convert owns using 1
      unfold buffers
      abel
    obtain ⟨filled, written, owned⟩ := write_owned apart short
    have readFormat : textAt filled (some c) = some format :=
      textAt_first owned short
    have kept : snprintf memory (some c) 1024 (configurationText qosEnable config mainText
        responderText (Int32.ofInt (config.numThreads.toInt * config.numMessages.toInt))) =
          some filled := by
      rw [← written, ← shown]
      rfl
    rw [kept, Option.bind_some, readFormat, Option.bind_some]
    by_cases literal : plain format = true
    · left
      rw [add_left_comm] at owned
      obtain ⟨one, freedMain, left⟩ := owns_free owned
      rw [add_left_comm] at left
      obtain ⟨two, freedResponder, last⟩ := owns_free left
      obtain ⟨after, freed, final⟩ := owns_free last
      refine ⟨⟨fits, by rw [shown, literal]⟩, after, ?_, final⟩
      rw [if_pos literal, freedMain, Option.bind_some, freedResponder, Option.bind_some, freed]
    · right
      refine ⟨?_, if_neg literal⟩
      rintro ⟨-, same⟩
      rw [shown] at same
      exact literal same
  · right
    refine ⟨fun reports => fits reports.1, ?_⟩
    rw [if_neg fits, Option.bind_none]

theorem ready_swap {first second : Blocks} (ready : Ready (first + (second + frame)) globals) :
    Ready (second + (first + frame)) globals := by
  rw [add_left_comm]
  exact ready

def mainConnection (config : Config) : CString := fullAddress config.toConfig config.mainAddress

def responderConnection (config : Config) : CString :=
  fullAddress config.toConfig config.responderAddress

def RestOutcome (qosEnable : Bool) (config : Config) (mainText : CString) (frame : Blocks)
    (result : Except Stop Globals) : Prop :=
  ((responderConnection config).length < 32 ∧
    (Reports qosEnable config mainText (responderConnection config) ∧
        (∃ after, result = .ok after ∧ Ready frame after) ∨
      ¬ Reports qosEnable config mainText (responderConnection config) ∧
        result = .error .undefined)) ∨
  (32 ≤ (responderConnection config).length ∧ (responderConnection config).length < 64 ∧
    result = .error .undefined) ∨
  64 ≤ (responderConnection config).length ∧
    (Reports qosEnable config mainText nullText ∧
        (∃ after, result = .ok after ∧ after.locked = true) ∨
      ¬ Reports qosEnable config mainText nullText ∧ result = .error .undefined)

theorem print_rest (ready : Ready ({(r, List.replicate 32 none)} + ({(m, padded 32 mainText)} +
      ({(c, List.replicate 1024 none)} + frame))) globals)
    (first : mainText.length < 32) {result : Except Stop Globals}
    (rest : result = (printAddress config.toConfig .responderAddress 64 (some r) globals).bind
      fun globals => (orUndefined (logConfiguration qosEnable config (some c) (some m) (some r)
        globals.memory)).map fun memory => { globals with memory := memory }) :
    RestOutcome qosEnable config mainText frame result := by
  have known : addressOf config.toConfig .responderAddress = some config.responderAddress := rfl
  have order : ∀ text, ({(r, padded 32 text)} + ({(m, padded 32 mainText)} +
      ({(c, List.replicate 1024 none)} + frame)) : Blocks) =
        buffers c m r mainText text + frame := by
    intro text
    unfold buffers
    abel
  rcases Nat.lt_or_ge (responderConnection config).length 32 with short | long
  · left
    refine ⟨short, ?_⟩
    obtain ⟨after, done, unlocked, content, owns⟩ := print_short ready known short
      (show 32 < 64 by omega)
    rw [order, add_left_comm] at owns
    rw [done] at rest
    rcases @log_configuration qosEnable config _ _ _ _ _ _ _ owns first short with
      ⟨reports, memory, logged, owned⟩ | ⟨silent, failed⟩
    · refine Or.inl ⟨reports, { after with memory := memory }, ?_, unlocked, content, owned⟩
      rw [rest]
      simp only [Except.bind]
      rw [logged]
      rfl
    · refine Or.inr ⟨silent, ?_⟩
      rw [rest]
      simp only [Except.bind]
      rw [failed]
      rfl
  right
  rcases Nat.lt_or_ge (responderConnection config).length 64 with short | longer
  · refine Or.inl ⟨long, short, ?_⟩
    rw [rest, print_outside ready known long short (by omega)]
    rfl
  · refine Or.inr ⟨longer, ?_⟩
    obtain ⟨after, done, locked, owns⟩ := print_null ready known longer (show 32 < 64 by omega)
    rw [order] at owns
    rw [done] at rest
    have size : nullText.length < 32 := by decide
    rcases @log_configuration qosEnable config _ _ _ _ _ _ _ owns first size with
      ⟨reports, memory, logged, owned⟩ | ⟨silent, failed⟩
    · refine Or.inl ⟨reports, { after with memory := memory }, ?_, locked⟩
      rw [rest]
      simp only [Except.bind]
      rw [logged]
      rfl
    · refine Or.inr ⟨silent, ?_⟩
      rw [rest]
      simp only [Except.bind]
      rw [failed]
      rfl

theorem print_cases (qosEnable : Bool) (config : Config) (ready : Ready frame globals) :
    (64 ≤ (mainConnection config).length ∧
      printConfiguration qosEnable config globals = .error .blocked) ∨
    (32 ≤ (mainConnection config).length ∧ (mainConnection config).length < 64 ∧
      printConfiguration qosEnable config globals = .error .undefined) ∨
    (mainConnection config).length < 32 ∧ RestOutcome qosEnable config (mainConnection config) frame
      (printConfiguration qosEnable config globals) := by
  have known : addressOf config.toConfig .mainAddress = some config.mainAddress := rfl
  have allocated := ready_swap (ready_allocate (ready_allocate (ready_allocate ready
    (List.replicate 1024 none)) (List.replicate 32 none)) (List.replicate 32 none))
  rcases Nat.lt_or_ge (mainConnection config).length 32 with short | long
  · obtain ⟨between, done, filled⟩ := print_short allocated known short (show 32 < 65 by omega)
    refine Or.inr (Or.inr ⟨short, print_rest (ready_swap filled) short ?_⟩)
    unfold printConfiguration
    dsimp only
    rw [done]
    rfl
  rcases Nat.lt_or_ge (mainConnection config).length 64 with short | longer
  · have failed := print_outside allocated known long short (show 32 < 65 by omega)
    refine Or.inr (Or.inl ⟨long, short, ?_⟩)
    unfold printConfiguration
    dsimp only
    rw [failed]
    rfl
  · obtain ⟨between, done, locked, -⟩ := print_null allocated known longer (show 32 < 65 by omega)
    refine Or.inl ⟨longer, ?_⟩
    unfold printConfiguration
    dsimp only
    rw [done]
    simp only [Except.bind]
    rw [print_locked locked]

end Printing

section Sockets
variable {config : CoreConfig.Config} {globals : Globals} {frame : Blocks}
  {sockets : List AddressType}

def connections (config : CoreConfig.Config) (sockets : List AddressType) : List CString :=
  sockets.filterMap fun addressType => (addressOf config addressType).map (fullAddress config)

theorem sockets_open (handled : Handled config) (ready : Ready frame globals)
    (known : ∀ addressType ∈ sockets, ∃ address, addressOf config addressType = some address ∧
      (fullAddress config address).length < 64) : ∃ after,
    openSockets config sockets globals = .ok (after, connections config sockets) ∧
      Ready frame after := by
  induction sockets generalizing globals with
  | nil => exact ⟨globals, rfl, ready⟩
  | cons addressType sockets ih =>
    rw [List.forall_mem_cons] at known
    obtain ⟨⟨address, here, short⟩, later⟩ := known
    obtain ⟨memory, p, composed, owns⟩ := getAddress_short ready here short
    have reads : printed memory (some p) = some (fullAddress config address) :=
      textAt_first owns short
    have next : Ready frame ⟨memory, some p, false⟩ := ⟨rfl, _, owns⟩
    obtain ⟨after, opened, final⟩ := ih next later
    refine ⟨after, ?_, final⟩
    unfold openSockets connections
    rw [composed]
    simp only [Except.bind]
    rw [reads]
    simp only [orUndefined]
    rw [if_pos handled, opened, List.filterMap_cons, here]
    rfl

theorem sockets_refused (unhandled : ¬ Handled config) (ready : Ready frame globals)
    (known : ∀ addressType ∈ sockets, ∃ address, addressOf config addressType = some address ∧
      (fullAddress config address).length < 64) (opens : sockets ≠ []) :
    openSockets config sockets globals = .error .refused := by
  cases sockets with
  | nil => exact absurd rfl opens
  | cons addressType sockets =>
    obtain ⟨address, here, short⟩ := known addressType List.mem_cons_self
    obtain ⟨memory, p, composed, owns⟩ := getAddress_short ready here short
    have reads : printed memory (some p) = some (fullAddress config address) :=
      textAt_first owns short
    unfold openSockets
    rw [composed]
    simp only [Except.bind]
    rw [reads]
    exact if_neg unhandled

theorem sockets_blocked (locked : globals.locked = true) (opens : sockets ≠ []) :
    openSockets config sockets globals = .error .blocked := by
  cases sockets with
  | nil => exact absurd rfl opens
  | cons addressType sockets =>
    unfold openSockets
    rw [getAddress_locked locked]
    rfl

end Sockets

theorem addresses_known {config : Config} {sockets : List AddressType}
    (valid : ∀ addressType ∈ sockets, addressType = .mainAddress ∨ addressType = .responderAddress)
    (first : (mainConnection config).length < 32) (second : (responderConnection config).length < 32) :
    ∀ addressType ∈ sockets, ∃ address, addressOf config.toConfig addressType = some address ∧
      (fullAddress config.toConfig address).length < 64 := by
  intro addressType member
  unfold mainConnection at first
  unfold responderConnection at second
  rcases valid addressType member with rfl | rfl
  · exact ⟨config.mainAddress, rfl, by omega⟩
  · exact ⟨config.responderAddress, rfl, by omega⟩

theorem start_stopped {qosEnable : Bool} {config : Config} {sockets : List AddressType}
    {globals : Globals} {stop : Stop}
    (failed : printConfiguration qosEnable config globals = .error stop) :
    startUp qosEnable config sockets globals = .error stop := by
  unfold startUp
  rw [failed]
  rfl

def opening (memory : Memory) : Globals := ⟨memory, none, false⟩

example : ¬ Reports true { SettingsFile.shippedConfig with statsFolderPath := "../100%".toList }
    (mainConnection SettingsFile.shippedConfig) (responderConnection SettingsFile.shippedConfig) := by
  decide +kernel

end RealMQ.StartUp
