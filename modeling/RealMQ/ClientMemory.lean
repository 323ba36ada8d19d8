import RealMQ.ArrayOwnership
import RealMQ.ClientThread

/- The memory of src/realmq_client.c: the steps of ClientThread as they allocate, copy and free. A
   text that is composed or received on the stack is given as it is, whether or not it fits its
   buffer there; a variable whose address is passed on is a block while it is in scope. -/
namespace RealMQ.ClientMemory
open CStrings DynamicArrays DiffFromArrays ElementMemory Heaps

def createElement (memory : Memory) (msgId : UInt64) (now : Int64) (content : CString) :
    Option (Memory × Pointer) :=
  let msg := some memory.next
  let memory := allocate memory [.unset, .unset, .unset]
  (store memory msg 0 (.word msgId)).bind fun memory =>
  (store (allocate memory (textCells content)) msg 1 (.address (some memory.next))).bind fun memory =>
  (store memory msg 2 (.time now)).map fun memory => (memory, msg)

def marshalMessage (memory : Memory) (msg : Pointer) : Option (Memory × Pointer) :=
  (readMessage memory msg).map fun value =>
    (allocate memory (textCells (Marshalling.marshalMessage value)), some memory.next)

/-- The loop over the tokens of str; value is a variable of its body. -/
def addTokens (str : Pointer) : List CString → Memory → ArrayObject → Option (Memory × ArrayObject)
  | [], memory, array => some (memory, array)
  | token :: tokens, memory, array =>
      (cells memory str).bind fun _ =>
      let value := some memory.next
      (addToDynamicArray sizeofUint64 (allocate memory [.word (strtoull token)]) array value).bind
        fun (memory, array) => (free memory value).bind fun memory => addTokens str tokens memory array

/-- The block of the struct comes with the array. -/
def unmarshalUint64Array (memory : Memory) (buffer : CString) :
    Option (Memory × Pointer × ArrayObject) :=
  let struct := some memory.next
  let (memory, array) := initDynamicArray (allocate memory []) 10
  let str := some memory.next
  let memory := allocate memory (textCells buffer)
  (textAt memory str).bind fun text =>
  (addTokens str (strtok '|' text) memory array).bind fun (memory, array) =>
  (free memory str).map fun memory => (memory, struct, array)

def checkMessageTimeout (memory : Memory) (array : ArrayObject) (index : Nat) (now timeout : Int64) :
    Option Bool :=
  let timeout := if timeout = 0 then 2000 else timeout
  (elementAt sizeofMessage memory array index).map fun msg =>
    decide (timeout < (now - msg.timestamp) / 1000)

structure DiffObject where
  memory : Memory
  firstArray : ArrayObject
  missedCount : Nat
  resent : List CString

def removeFirst (msgId : UInt64) (st : DiffObject) : Option DiffObject :=
  (removeElementById sizeofMessage st.memory st.firstArray msgId true true).map
    fun (_, memory, firstArray) => { st with memory := memory, firstArray := firstArray }

def resend (i : Nat) (st : DiffObject) : Option DiffObject :=
  (marshalMessage st.memory (st.firstArray.slots.data i)).bind fun (memory, msgBuffer) =>
  (textAt memory msgBuffer).bind fun text =>
  (free memory msgBuffer).map fun memory =>
    { st with memory := memory, resent := st.resent ++ [text] }

def diffStep (clock : Nat → Int64) (secondArray : ArrayObject) (i : Nat) (st : DiffObject) :
    Option DiffObject :=
  (elementAt sizeofMessage st.memory st.firstArray i).bind fun msg =>
  (removeElementById sizeofUint64 st.memory secondArray msg.id true false).bind fun (index, _) =>
    match index with
    | none =>
        (checkMessageTimeout st.memory st.firstArray i (clock i) 0).bind fun timeout =>
          if timeout then
            let counted := { st with missedCount := st.missedCount + 1 }
            if i < st.firstArray.slots.size then (resend i counted).bind (removeFirst msg.id)
            else some counted
          else some st
    | some _ => removeFirst msg.id st

def diffLoop (clock : Nat → Int64) (secondArray : ArrayObject) : Nat → DiffObject → Option DiffObject
  | 0, st => some st
  | n + 1, st => (diffStep clock secondArray n st).bind (diffLoop clock secondArray n)

structure ClientObject where
  memory : Memory
  atomicMsgId : UInt64
  gArray : ArrayObject
  gMissedCount : Nat
  transmitted : List CString
  responding : Bool

def startClient (memory : Memory) : ClientObject :=
  let (memory, gArray) := initDynamicArray memory 100000
  ⟨memory, 0, gArray, 0, [], true⟩

def sendMessage (now : Int64) (content : CString) (client : ClientObject) : Option ClientObject :=
  let msgId := client.atomicMsgId + 1
  (createElement client.memory msgId now content).bind fun (memory, msg) =>
  (addToDynamicArray sizeofMessage memory client.gArray msg).bind fun (memory, gArray) =>
  (marshalMessage memory msg).bind fun (memory, msgBuffer) =>
  (textAt memory msgBuffer).bind fun text =>
  (free memory msgBuffer).bind fun memory =>
  (releaseMessage memory msg).map fun memory =>
    { client with
      memory := memory
      atomicMsgId := msgId
      gArray := gArray
      transmitted := client.transmitted ++ [text] }

def respond (clock : Nat → Int64) (buffer : CString) (client : ClientObject) : Option ClientObject :=
  if buffer = ClientThread.stopText then some { client with responding := false }
  else
    (unmarshalUint64Array client.memory buffer).bind fun (memory, struct, newArray) =>
    (diffLoop clock newArray client.gArray.slots.size ⟨memory, client.gArray, 0, []⟩).bind fun st =>
    (releaseDynamicArray sizeofUint64 st.memory newArray).bind fun memory =>
    (free memory struct).map fun memory =>
      { client with
        memory := memory
        gArray := st.firstArray
        gMissedCount := client.gMissedCount + st.missedCount
        transmitted := client.transmitted ++ st.resent }

def step (client : ClientObject) : ClientThread.Action → Option ClientObject
  | .send now content => sendMessage now content client
  | .heartbeat =>
      some { client with transmitted := client.transmitted ++ [ClientThread.heartbeatText] }
  | .stop =>
      if client.gArray.slots.size = 0 then
        some { client with transmitted := client.transmitted ++ [ClientThread.stopText] }
      else none
  | .respond clock buffer => if client.responding then respond clock buffer client else none

section Texts
variable {memory : Memory} {frame : Blocks}

theorem createElement_stored (owns : Owns memory frame) (msgId : UInt64) (now : Int64)
    (content : CString) : ∃ after p own,
      createElement memory msgId now content = some (after, some p) ∧
      StoredMessage p ⟨msgId, some content, now⟩ own ∧ Owns after (own + frame) := by
  have made : Owns (allocate memory [.unset, .unset, .unset])
      ({(memory.next, [.unset, .unset, .unset])} + frame) := owns_allocate owns
  obtain ⟨first, named, owned⟩ := @owns_store _ _ _ _ 0 _ made (.word msgId) (by simp)
  have roomy : Owns (allocate first (textCells content))
      ({(memory.next, [.word msgId, .unset, .unset])} +
        ({(first.next, textCells content)} + frame)) := by
    rw [add_left_comm]
    exact owns_allocate owned
  obtain ⟨second, filled, pointed⟩ := @owns_store _ _ _ _ 1 _ roomy (.address (some first.next))
    (by simp)
  obtain ⟨last, dated, final⟩ := @owns_store _ _ _ _ 2 _ pointed (.time now) (by simp)
  refine ⟨last, memory.next, _, ?_, ⟨content, first.next, rfl, rfl⟩, ?_⟩
  · unfold createElement
    dsimp only
    rw [named, Option.bind_some, filled, Option.bind_some, dated, Option.map_some]
  · rw [add_assoc]
    exact final

theorem marshalMessage_stored {msg : Message} {p : Nat} {own : Blocks}
    (stored : StoredMessage p msg own) (owns : Owns memory (own + frame)) :
    marshalMessage memory (some p) =
        some (allocate memory (textCells (Marshalling.marshalMessage msg)), some memory.next) := by
  unfold marshalMessage
  rw [readMessage_stored stored owns, Option.map_some]

theorem holds_tokens {str : Nat} {content : List Cell} {tokens : List CString} {array : ArrayObject}
    {values : DynamicArray UInt64}
    (holds : Holds sizeofUint64 memory array values ({(str, content)} + frame)) :
    ∃ after filled, addTokens (some str) tokens memory array = some (after, filled) ∧
      Holds sizeofUint64 after filled (addAll values (tokens.map strtoull))
        ({(str, content)} + frame) := by
  induction tokens generalizing memory array values with
  | nil => exact ⟨memory, array, rfl, holds⟩
  | cons token tokens ih =>
    obtain ⟨objects, own, describes, owns⟩ := holds_frame.mp holds
    have value := holds_allocate holds [.word (strtoull token)]
    have copies : CopiesFrom sizeofUint64 (some memory.next) (strtoull token)
        ({(memory.next, [.word (strtoull token)])} + ({(str, content)} + frame)) :=
      copies_stored rfl _
    obtain ⟨between, longer, added, held⟩ := holds_add copies value
    obtain ⟨next, freed, kept⟩ := holds_free held
    obtain ⟨after, filled, rest, final⟩ := ih kept
    refine ⟨after, filled, ?_, final⟩
    unfold addTokens
    rw [owned_cells owns, Option.bind_some]
    dsimp only
    rw [added, Option.bind_some]
    dsimp only
    rw [freed, Option.bind_some, rest]

theorem holds_unmarshal (owns : Owns memory frame) (buffer : CString) :
    ∃ after struct array, unmarshalUint64Array memory buffer = some (after, some struct, array) ∧
      Holds sizeofUint64 after array (Marshalling.unmarshalUint64Array buffer)
        ({(struct, [])} + frame) := by
  have empty := @holds_init _ sizeofUint64 _ _ _ (@owns_allocate _ _ _ [] owns) 10
  have copied := holds_allocate empty (textCells buffer)
  obtain ⟨objects, own, describes, owned⟩ := holds_frame.mp copied
  obtain ⟨between, array, added, held⟩ := @holds_tokens _ _ _ _ (strtok '|' buffer) _ _ copied
  obtain ⟨after, freed, final⟩ := holds_free held
  refine ⟨after, memory.next, array, ?_, final⟩
  unfold unmarshalUint64Array
  dsimp only
  rw [textAt_owned owned, Option.bind_some, added, Option.bind_some]
  dsimp only
  rw [freed, Option.map_some]

end Texts

section Diff
variable {clock : Nat → Int64} {secondArray : ArrayObject} {values : DynamicArray UInt64}
  {objects : List (Nat × Blocks)} {second frame : Blocks} {object : DiffObject} {st : DiffState}
  {i : Nat}

structure Matches (second frame : Blocks) (object : DiffObject) (st : DiffState) : Prop where
  holds : Holds sizeofMessage object.memory object.firstArray st.firstArray (second + frame)
  missed : object.missedCount = st.missedCount
  resent : object.resent = st.resent.map Marshalling.marshalMessage

theorem removeFirst_matches (agree : Matches second frame object st) (msgId : UInt64) :
    ∃ after, removeFirst msgId object = some after ∧ Matches second frame after
      { st with firstArray := (ElementRemoval.removeElementById st.firstArray msgId true true).2 } := by
  obtain ⟨memory, shorter, removed, holds⟩ := holds_remove agree.holds msgId true true
  refine ⟨{ object with memory := memory, firstArray := shorter }, ?_,
    ⟨holds, agree.missed, agree.resent⟩⟩
  unfold removeFirst
  rw [removed, Option.map_some]

theorem resend_matches (agree : Matches second frame object st) (bound : i < st.firstArray.size) :
    ∃ after, resend i object = some after ∧ Matches second frame after
      { st with resent := st.resent ++ [st.firstArray.data i] } := by
  have msg : readMessage object.memory (object.firstArray.slots.data i) =
      some (st.firstArray.data i) := holds_pointer agree.holds bound
  have buffered := holds_allocate agree.holds
    (textCells (Marshalling.marshalMessage (st.firstArray.data i)))
  obtain ⟨objects, own, describes, owned⟩ := holds_frame.mp buffered
  obtain ⟨memory, freed, final⟩ := holds_free buffered
  refine ⟨{ object with
    memory := memory
    resent := object.resent ++ [Marshalling.marshalMessage (st.firstArray.data i)] }, ?_,
    ⟨final, agree.missed, ?_⟩⟩
  · unfold resend marshalMessage
    rw [msg, Option.map_some, Option.bind_some]
    dsimp only
    rw [textAt_owned owned, Option.bind_some, freed, Option.map_some]
  · rw [agree.resent, List.map_append, List.map_singleton]

theorem search_second (describes : Describes sizeofUint64 secondArray values objects second)
    (agree : Matches second frame object st) (msgId : UInt64) :
    ∃ after, removeElementById sizeofUint64 object.memory secondArray msgId true false =
      some ((ElementRemoval.removeElementById values msgId true false).1, after) := by
  obtain ⟨own, blocks, -, owns⟩ := holds_frame.mp agree.holds
  have holds : Holds sizeofUint64 object.memory secondArray values (blocks + frame) :=
    ⟨objects, second, describes, owns⟩
  obtain ⟨memory, same, found, -⟩ := holds_remove holds msgId true false
  exact ⟨(memory, same), found⟩

theorem timeout_matches (agree : Matches second frame object st) (bound : i < st.firstArray.size)
    (now timeout : Int64) : checkMessageTimeout object.memory object.firstArray i now timeout =
      some (DiffFromArrays.checkMessageTimeout st.firstArray i now timeout) := by
  unfold checkMessageTimeout
  dsimp only
  rw [holds_element agree.holds bound]
  rfl

theorem diffStep_matches (describes : Describes sizeofUint64 secondArray values objects second)
    (agree : Matches second frame object st) (bound : i < st.firstArray.size) :
    ∃ next after, DiffFromArrays.diffStep (working clock) values i st = some next ∧
      diffStep clock secondArray i object = some after ∧ i ≤ next.firstArray.size ∧
      Matches second frame after next := by
  obtain ⟨rest, searched⟩ := search_second describes agree (st.firstArray.data i).id
  have size := holds_size agree.holds
  have shorter := remove_here_size bound
  have opened : diffStep clock secondArray i object =
      match (ElementRemoval.removeElementById values (st.firstArray.data i).id true false).1 with
      | none =>
          if DiffFromArrays.checkMessageTimeout st.firstArray i (clock i) 0 then
            (resend i { object with missedCount := object.missedCount + 1 }).bind
              (removeFirst (st.firstArray.data i).id)
          else some object
      | some _ => removeFirst (st.firstArray.data i).id object := by
    unfold diffStep
    rw [holds_element agree.holds bound, Option.bind_some, searched, Option.bind_some,
      timeout_matches agree bound, size, if_pos bound]
    rfl
  rcases diffStep_cases clock values bound with ⟨absent, young, eq⟩ | ⟨absent, old, eq⟩ | ⟨present, eq⟩
  · refine ⟨st, object, eq, ?_, by omega, agree⟩
    have early : DiffFromArrays.checkMessageTimeout st.firstArray i (clock i) 0 = false := young
    rw [opened, ElementRemoval.remove_index_none.mpr absent]
    dsimp only
    rw [early]
    rfl
  · have counted : Matches second frame { object with missedCount := object.missedCount + 1 }
        { st with missedCount := st.missedCount + 1 } :=
      ⟨agree.holds, congrArg (· + 1) agree.missed, agree.resent⟩
    obtain ⟨sent, again, between⟩ := resend_matches counted bound
    obtain ⟨after, removed, final⟩ := removeFirst_matches between (st.firstArray.data i).id
    refine ⟨_, after, eq, ?_, by dsimp only; omega, final⟩
    have timeout : DiffFromArrays.checkMessageTimeout st.firstArray i (clock i) 0 = true := old
    rw [opened, ElementRemoval.remove_index_none.mpr absent]
    dsimp only
    rw [if_pos timeout, again, Option.bind_some, removed]
  · obtain ⟨after, removed, final⟩ := removeFirst_matches agree (st.firstArray.data i).id
    refine ⟨_, after, eq, ?_, by dsimp only; omega, final.holds, final.missed, final.resent⟩
    cases answer : (ElementRemoval.removeElementById values (st.firstArray.data i).id true false).1 with
    | none => exact absurd present (ElementRemoval.remove_index_none.mp answer)
    | some index =>
      rw [opened, answer]
      exact removed

theorem diffLoop_matches (clock : Nat → Int64)
    (describes : Describes sizeofUint64 secondArray values objects second) {n : Nat}
    (agree : Matches second frame object st) (bound : n ≤ st.firstArray.size) :
    ∃ last after, DiffFromArrays.diffLoop (working clock) values n st = some last ∧
      diffLoop clock secondArray n object = some after ∧ Matches second frame after last := by
  induction n generalizing object st with
  | zero => exact ⟨st, object, rfl, rfl, agree⟩
  | succ n ih =>
    obtain ⟨next, between, value, first, room, related⟩ :=
      @diffStep_matches clock _ _ _ _ _ _ _ n describes agree (by omega)
    obtain ⟨last, after, values, rest, final⟩ := ih related room
    refine ⟨last, after, ?_, ?_, final⟩
    · rw [DiffFromArrays.diffLoop, value, Option.bind_some, values]
    · rw [diffLoop, first, Option.bind_some, rest]

end Diff

section Runs
variable {memory : Memory} {frame : Blocks} {object : ClientObject} {client : ClientThread.Client}

/-- The client in memory, beside the blocks that were live before it. -/
structure Represents (frame : Blocks) (client : ClientThread.Client) (object : ClientObject) :
    Prop where
  holds : Holds sizeofMessage object.memory object.gArray client.gArray frame
  counter : object.atomicMsgId = client.atomicMsgId
  missed : object.gMissedCount = client.gMissedCount
  transmitted : object.transmitted = client.transmitted
  responding : object.responding = client.responding
  valid : WellFormed client.gArray

theorem represents_start (owns : Owns memory frame) :
    Represents frame ClientThread.startClient (startClient memory) :=
  ⟨holds_init owns 100000, rfl, rfl, rfl, rfl, wellFormed_init (by decide)⟩

theorem represents_send (represents : Represents frame client object) (now : Int64)
    (content : CString) : ∃ after, sendMessage now content object = some after ∧
      Represents frame (ClientThread.sendMessage now content client) after := by
  obtain ⟨objects, own, describes, owns⟩ := represents.holds
  obtain ⟨created, msg, blocks, made, stored, owned⟩ :=
    createElement_stored owns (object.atomicMsgId + 1) now content
  have beside : Holds sizeofMessage created object.gArray client.gArray (blocks + frame) :=
    holds_frame.mpr ⟨objects, own, describes, owned⟩
  obtain ⟨added, gArray, kept, holds⟩ := holds_add (copies_stored stored frame) beside
  obtain ⟨pending, share, pended, apart⟩ := holds_frame.mp holds
  have buffered := holds_allocate holds
    (textCells (Marshalling.marshalMessage ⟨object.atomicMsgId + 1, some content, now⟩))
  obtain ⟨others, rest, -, text⟩ := holds_frame.mp buffered
  obtain ⟨freed, gone, again⟩ := holds_free buffered
  obtain ⟨left, ours, last, separate⟩ := holds_frame.mp again
  obtain ⟨after, released, final⟩ := releaseMessage_stored stored separate
  refine ⟨{ object with
      memory := after
      atomicMsgId := object.atomicMsgId + 1
      gArray := gArray
      transmitted := object.transmitted ++
        [Marshalling.marshalMessage ⟨object.atomicMsgId + 1, some content, now⟩] }, ?_, ?_⟩
  · unfold sendMessage
    dsimp only
    rw [made, Option.bind_some]
    dsimp only
    rw [kept, Option.bind_some]
    dsimp only
    rw [marshalMessage_stored stored apart, Option.bind_some]
    dsimp only
    rw [textAt_owned text, Option.bind_some, gone, Option.bind_some, released, Option.map_some]
  · rw [represents.counter] at last
    refine ⟨⟨left, ours, last, final⟩, ?_, represents.missed, ?_, represents.responding,
      wellFormed_add _ represents.valid⟩
    · simp only [ClientThread.sendMessage, represents.counter]
    · simp only [ClientThread.sendMessage, represents.counter, represents.transmitted]

theorem represents_respond (represents : Represents frame client object) (clock : Nat → Int64)
    (buffer : CString) {next : ClientThread.Client}
    (moved : ClientThread.respond clock buffer client = some next) :
    ∃ after, respond clock buffer object = some after ∧ Represents frame next after := by
  unfold respond
  rcases ClientThread.respond_cases clock buffer client with
    ⟨stop, eq⟩ | ⟨other, st, diff, accounted, eq⟩
  · obtain rfl := Option.some.inj (eq.symm.trans moved)
    rw [if_pos stop]
    exact ⟨_, rfl, represents.holds, represents.counter, represents.missed, represents.transmitted,
      rfl, represents.valid⟩
  · obtain rfl := Option.some.inj (eq.symm.trans moved)
    rw [if_neg other]
    obtain ⟨objects, own, describes, owns⟩ := represents.holds
    obtain ⟨received, struct, newArray, made, named, blocks, second, owned⟩ :=
      holds_unmarshal owns buffer
    -- while the arrays are compared, the new one and its struct are the frame of g_array
    have agree : Matches blocks ({(struct, [])} + frame) ⟨received, object.gArray, 0, []⟩
        ⟨client.gArray, 0, [], []⟩ := by
      refine ⟨⟨objects, own, describes, ?_⟩, rfl, rfl⟩
      convert owned using 1
      abel
    obtain ⟨last, compared, value, run, final⟩ := diffLoop_matches clock second agree le_rfl
    obtain rfl := Option.some.inj (value.symm.trans diff)
    obtain ⟨pending, share, left, apart⟩ := holds_frame.mp final.holds
    have done : Holds sizeofUint64 compared.memory newArray
        (Marshalling.unmarshalUint64Array buffer) ({(struct, [])} + (share + frame)) := by
      refine ⟨named, blocks, second, ?_⟩
      convert apart using 1
      abel
    obtain ⟨emptied, released, struct_left⟩ := holds_release done
    obtain ⟨after, freed, kept⟩ := owns_free struct_left
    rw [← holds_size represents.holds] at run
    refine ⟨{ object with
      memory := after
      gArray := compared.firstArray
      gMissedCount := object.gMissedCount + compared.missedCount
      transmitted := object.transmitted ++ compared.resent }, ?_,
      ⟨pending, share, left, kept⟩, represents.counter, ?_, ?_, represents.responding,
      accounted.valid represents.valid⟩
    · rw [made, Option.bind_some]
      dsimp only
      rw [run, Option.bind_some, released, Option.bind_some, freed, Option.map_some]
    · rw [represents.missed, final.missed]
    · rw [represents.transmitted, final.resent]

theorem represents_step {action : ClientThread.Action} {next : ClientThread.Client}
    (represents : Represents frame client object)
    (moved : ClientThread.step client action = some next) :
    ∃ after, step object action = some after ∧ Represents frame next after := by
  cases action with
  | send now content =>
    obtain rfl := Option.some.inj moved
    exact represents_send represents now content
  | heartbeat =>
    obtain rfl := Option.some.inj moved
    refine ⟨_, rfl, represents.holds, represents.counter, represents.missed, ?_,
      represents.responding, represents.valid⟩
    simp only [ClientThread.sendHeartbeat, represents.transmitted]
  | stop =>
    simp only [ClientThread.step, ClientThread.sendStop] at moved
    simp only [step, holds_size represents.holds]
    split at moved
    · obtain rfl := Option.some.inj moved
      rename_i empty
      rw [if_pos empty]
      refine ⟨_, rfl, represents.holds, represents.counter, represents.missed, ?_,
        represents.responding, represents.valid⟩
      simp only [represents.transmitted]
    · cases moved
  | respond clock buffer =>
    simp only [ClientThread.step] at moved
    simp only [step, represents.responding]
    split at moved
    · rename_i responding
      rw [if_pos responding]
      exact represents_respond represents clock buffer moved
    · cases moved

/-- Whatever the threads do, no access is outside a live block, each pending message has two
    blocks and nothing else is left behind, and main can release all of it. -/
theorem client_memory (memory : Memory) (actions : List ClientThread.Action)
    (client : ClientThread.Client)
    (run : Runs.run ClientThread.step ClientThread.startClient actions = some client) :
    ∃ object, Runs.run step (startClient memory) actions = some object ∧
      object.transmitted = client.transmitted ∧ object.gMissedCount = client.gMissedCount ∧
      (readArray sizeofMessage object.memory object.gArray).map toList =
        some (toList client.gArray) ∧
      object.gArray.slots.overrun = false ∧
      liveBlocks object.memory = liveBlocks memory + 1 + 2 * client.gArray.size ∧
      ∃ after, releaseDynamicArray sizeofMessage object.memory object.gArray = some after ∧
        after.block = memory.block := by
  obtain ⟨frame, owns⟩ := exists_owns memory
  obtain ⟨object, matched, represents⟩ :=
    Runs.run_lockstep (fun _ _ _ _ => represents_step) (represents_start owns) run
  obtain ⟨read, reads, same⟩ := holds_read represents.holds
  obtain ⟨after, released, left⟩ := holds_release represents.holds
  obtain ⟨objects, own, describes, owned⟩ := represents.holds
  refine ⟨object, matched, represents.transmitted, represents.missed, ?_, ?_, ?_, after, released,
    same_owned left owns⟩
  · rw [reads, Option.map_some, same]
  · rw [describes.overrun]
    exact represents.valid.inside
  · rw [live_owned owned, live_owned owns, Multiset.card_add, described_card describes]
    exact (Nat.add_comm _ _).trans (Nat.add_assoc _ _ _).symm

theorem client_memory_gap :
    ∃ object, Runs.run step (startClient noBlocks) ClientThread.gapRun = some object ∧
      liveBlocks object.memory = 5 ∧
      ∃ after, releaseDynamicArray sizeofMessage object.memory object.gArray = some after ∧
        after.block = noBlocks.block := by
  obtain ⟨object, run, -, -, -, -, live, released⟩ := client_memory noBlocks ClientThread.gapRun _ rfl
  exact ⟨object, run, live, released⟩

end Runs

end RealMQ.ClientMemory
