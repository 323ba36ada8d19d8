import RealMQ.SegmentMemory

/- The memory of src/realmq_server.c in the QoS build: server_thread as it allocates, copies and
   frees, with every outcome of the mallocs in send_ids and of the malloc of a message. The blocks
   of json-c and the stack, with the buffer that zmq_receive fills, are not part of it. -/
namespace RealMQ.ServerMemory
open BufferSegments CStrings DynamicArrays ElementMemory Heaps SegmentMemory ServerThread StatsFiles

/-- malloc of the Message and strdup of the buffer, which is freed again; the content is a second
    strdup, and stays NULL without a second separator. -/
def unmarshalMessage (memory : Memory) (buffer : CString) : Option (Memory × Pointer) :=
  let msg := some memory.next
  let memory := allocate memory [.unset, .unset, .unset]
  let content := some memory.next
  let memory := allocate memory (textCells buffer)
  (textAt memory content).bind fun text =>
  let value := Marshalling.unmarshalMessage text
  (store memory msg 0 (.word value.id)).bind fun memory =>
  (store memory msg 2 (.time value.timestamp)).bind fun memory =>
  (match value.content with
    | none => store memory msg 1 (.address none)
    | some rest =>
        store (allocate memory (textCells rest)) msg 1 (.address (some memory.next))).bind
    fun memory => (free memory content).map fun memory => (memory, msg)

/-- handed holds the texts without the results of the sends. -/
structure ServerObject where
  memory : Memory
  gArray : ArrayObject
  stats : Stats
  countMsg : Nat
  receivedMessages : Int64
  handed : List CString
  running : Bool

def startServer (memory : Memory) : ServerObject :=
  let (memory, gArray) := initDynamicArray memory 100000
  ⟨memory, gArray, initJsonMessages, 0, 0, [], true⟩

def flush (outcome : Outcome) (server : ServerObject) : Option ServerObject :=
  (sendIds outcome.alloc server.memory server.gArray).map fun (texts, memory, gArray) =>
    { server with memory := memory, gArray := gArray, handed := server.handed ++ texts }

def receiveMessage (recvTime : Int64) (buffer : CString) (server : ServerObject) :
    Option ServerObject :=
  (unmarshalMessage server.memory buffer).bind fun (memory, msg) =>
  (readMessage memory msg).bind fun value =>
  (addToDynamicArray sizeofUint64 memory server.gArray msg).bind fun (memory, gArray) =>
  (wordAt memory msg 0).bind fun id =>
  (releaseMessage memory msg).map fun memory =>
    { server with
      memory := memory
      gArray := gArray
      stats := processJsonMessage recvTime value server.stats
      countMsg := server.countMsg + 1
      receivedMessages := maxReceived server.receivedMessages id }

def receive (outcome : Outcome) (buffer : CString) (server : ServerObject) : Option ServerObject :=
  match dispatch buffer with
  | .stop => (flush outcome server).map fun flushed => { flushed with running := false }
  | .start => some server
  | .heartbeat => flush outcome server
  | .message =>
      if outcome.alloc 0 then receiveMessage outcome.recvTime buffer server else some server

def serverThread : List (Outcome × CString) → ServerObject → Option ServerObject
  | [], server => some server
  | (outcome, buffer) :: arrivals, server =>
      (receive outcome buffer server).bind fun next =>
        if next.running then serverThread arrivals next else some next

def OwnedMessage (p : Nat) (msg : Message) (own : Blocks) : Prop :=
  StoredMessage p msg own ∨
    (msg.content = none ∧ own = {(p, messageCells msg.id none msg.timestamp)})

section Messages
variable {memory : Memory} {p : Nat} {msg : Message} {own frame : Blocks}

theorem unmarshalMessage_owned (owns : Owns memory frame) (buffer : CString) :
    ∃ after p own, unmarshalMessage memory buffer = some (after, some p) ∧
      OwnedMessage p (Marshalling.unmarshalMessage buffer) own ∧ Owns after (own + frame) := by
  have made : Owns (allocate memory [.unset, .unset, .unset])
      ({(memory.next, [.unset, .unset, .unset])} + frame) := owns_allocate owns
  have copied := @owns_allocate _ _ _ (textCells buffer) made
  have text := textAt_owned copied
  rw [add_left_comm] at copied
  generalize value : Marshalling.unmarshalMessage buffer = msg
  obtain ⟨first, named, owned⟩ := @owns_store _ _ _ _ 0 _ copied (.word msg.id) (by simp)
  obtain ⟨second, dated, filled⟩ := @owns_store _ _ _ _ 2 _ owned (.time msg.timestamp) (by simp)
  unfold unmarshalMessage
  dsimp only
  rw [text, Option.bind_some, value, named, Option.bind_some, dated, Option.bind_some]
  cases content : msg.content with
  | none =>
    obtain ⟨third, pointed, bare⟩ := @owns_store _ _ _ _ 1 _ filled (.address none) (by simp)
    rw [add_left_comm] at bare
    obtain ⟨after, freed, left⟩ := owns_free bare
    exact ⟨after, memory.next, _, by rw [pointed, Option.bind_some, freed, Option.map_some],
      Or.inr ⟨content, rfl⟩, left⟩
  | some rest =>
    have longer := @owns_allocate _ _ _ (textCells rest) filled
    rw [add_left_comm] at longer
    obtain ⟨third, pointed, whole⟩ :=
      @owns_store _ _ _ _ 1 _ longer (.address (some second.next)) (by simp)
    have arranged : Owns third ({((allocate memory [.unset, .unset, .unset]).next, textCells buffer)} +
        ({(memory.next, messageCells msg.id (some second.next) msg.timestamp)} +
          {(second.next, textCells rest)} + frame)) := by
      convert whole using 1
      simp only [messageCells, List.set_cons_zero, List.set_cons_succ]
      abel
    obtain ⟨after, freed, left⟩ := owns_free arranged
    exact ⟨after, memory.next, _, by dsimp only; rw [pointed, Option.bind_some, freed, Option.map_some],
      Or.inl ⟨rest, second.next, content, rfl⟩, left⟩

theorem message_head (owned : OwnedMessage p msg own) :
    ∃ cells rest, cells[0]? = some (Cell.word msg.id) ∧ own = {(p, cells)} + rest := by
  rcases owned with ⟨text, content, -, rfl⟩ | ⟨-, rfl⟩
  · exact ⟨_, _, rfl, rfl⟩
  · exact ⟨_, 0, rfl, (add_zero _).symm⟩

theorem readMessage_owned (owned : OwnedMessage p msg own) (owns : Owns memory (own + frame)) :
    readMessage memory (some p) = some msg := by
  rcases owned with stored | ⟨bare, rfl⟩
  · exact readMessage_stored stored owns
  · obtain ⟨id, content, timestamp⟩ := msg
    dsimp only at bare
    subst bare
    unfold readMessage
    rw [wordAt_owned owns rfl, Option.bind_some, addressAt_owned owns rfl, Option.bind_some,
      timeAt_owned owns rfl, Option.bind_some]

theorem copies_message (owned : OwnedMessage p msg own) (frame : Blocks) :
    CopiesFrom sizeofUint64 (some p) msg.id (own + frame) := by
  intro memory other owns
  obtain ⟨content, rest, head, rfl⟩ := message_head owned
  have source : Owns memory ({(p, content)} + (other + (rest + frame))) := by
    convert owns using 1
    abel
  exact ⟨_, memory.next, _, copyWord_owned source head, rfl, owns_allocate owns⟩

theorem releaseMessage_owned (owned : OwnedMessage p msg own) (owns : Owns memory (own + frame)) :
    ∃ after, releaseMessage memory (some p) = some after ∧ Owns after frame := by
  rcases owned with stored | ⟨bare, rfl⟩
  · exact releaseMessage_stored stored owns
  · obtain ⟨after, freed, left⟩ := owns_free owns
    refine ⟨after, ?_, left⟩
    unfold releaseMessage
    dsimp only
    rw [addressAt_owned owns rfl, Option.bind_some, freed]

end Messages

section Runs
variable {memory : Memory} {frame : Blocks} {object : ServerObject} {server : Server}

/-- The server in memory, beside the blocks that were live before it. -/
structure Represents (frame : Blocks) (server : Server) (object : ServerObject) : Prop where
  holds : Holds sizeofUint64 object.memory object.gArray server.gArray frame
  stats : object.stats = server.stats
  count : object.countMsg = server.countMsg
  received : object.receivedMessages = server.receivedMessages
  handed : object.handed = server.handed.map Prod.fst
  running : object.running = server.running
  valid : WellFormed server.gArray

theorem represents_start (owns : Owns memory frame) :
    Represents frame ServerThread.startServer (startServer memory) :=
  ⟨holds_init owns 100000, rfl, rfl, rfl, rfl, rfl, wellFormed_init (by decide)⟩

theorem flush_frees (represents : Represents frame server object) (outcome : Outcome) :
    (Frees outcome.alloc server.gArray → ∃ after, flush outcome object = some after ∧
      Represents frame (server.flush outcome) after) ∧
    (¬ Frees outcome.alloc server.gArray → flush outcome object = none) := by
  obtain ⟨frees, twice⟩ := sendIds_owned outcome.alloc outcome.sent represents.holds
  constructor
  · intro safe
    obtain ⟨after, emptied, sent, holds⟩ := frees safe
    refine ⟨{ object with
        memory := after
        gArray := emptied
        handed := object.handed ++
          (ServerThread.sendIds outcome.alloc outcome.sent server.gArray).1.map Prod.fst },
      by rw [flush, sent, Option.map_some], holds, represents.stats, represents.count,
      represents.received, ?_, represents.running, wellFormed_clean represents.valid⟩
    simp only [Server.flush, List.map_append, represents.handed]
  · intro again
    rw [flush, twice again, Option.map_none]

theorem receiveMessage_frees (represents : Represents frame server object) (recvTime : Int64)
    (buffer : CString) : ∃ after, receiveMessage recvTime buffer object = some after ∧
      Represents frame
        { server with
          stats := processJsonMessage recvTime (Marshalling.unmarshalMessage buffer) server.stats
          gArray := DynamicArrays.addToDynamicArray server.gArray
            (Marshalling.unmarshalMessage buffer).id
          countMsg := server.countMsg + 1
          receivedMessages :=
            maxReceived server.receivedMessages (Marshalling.unmarshalMessage buffer).id } after := by
  obtain ⟨objects, own, describes, owns⟩ := represents.holds
  obtain ⟨made, msg, blocks, unmarshalled, owned, received⟩ := unmarshalMessage_owned owns buffer
  have read := readMessage_owned owned received
  have beside : Holds sizeofUint64 made object.gArray server.gArray (blocks + frame) :=
    holds_frame.mpr ⟨objects, own, describes, received⟩
  obtain ⟨added, gArray, kept, holds⟩ := holds_add (copies_message owned frame) beside
  obtain ⟨pending, share, pended, apart⟩ := holds_frame.mp holds
  obtain ⟨content, rest, head, split⟩ := message_head owned
  have id : wordAt added (some msg) 0 = some (Marshalling.unmarshalMessage buffer).id := by
    apply wordAt_owned _ head
    · exact rest + (share + frame)
    · rwa [split, add_assoc] at apart
  obtain ⟨after, released, final⟩ := releaseMessage_owned owned apart
  refine ⟨{ object with
      memory := after
      gArray := gArray
      stats := processJsonMessage recvTime (Marshalling.unmarshalMessage buffer) object.stats
      countMsg := object.countMsg + 1
      receivedMessages :=
        maxReceived object.receivedMessages (Marshalling.unmarshalMessage buffer).id }, ?_,
    ⟨pending, share, pended, final⟩, ?_, ?_, ?_, represents.handed, represents.running,
    wellFormed_add _ represents.valid⟩
  · unfold receiveMessage
    rw [unmarshalled, Option.bind_some]
    dsimp only
    rw [read, Option.bind_some, kept, Option.bind_some]
    dsimp only
    rw [id, Option.bind_some, released, Option.map_some]
  · simp only [represents.stats]
  · simp only [represents.count]
  · simp only [represents.received]

def flushes (buffer : CString) : Prop := dispatch buffer = .stop ∨ dispatch buffer = .heartbeat

theorem receive_frees (represents : Represents frame server object)
    (outcome : Outcome) (buffer : CString) :
    ((flushes buffer → Frees outcome.alloc server.gArray) →
      ∃ after, receive outcome buffer object = some after ∧
        Represents frame (ServerThread.receive outcome buffer server) after) ∧
    (¬ (flushes buffer → Frees outcome.alloc server.gArray) →
      receive outcome buffer object = none) := by
  obtain ⟨frees, twice⟩ := flush_frees represents outcome
  unfold receive ServerThread.receive flushes
  cases kind : dispatch buffer with
  | stop =>
    simp only [true_or, true_implies]
    constructor
    · intro safe
      obtain ⟨after, flushed, final⟩ := frees safe
      exact ⟨{ after with running := false }, by rw [flushed, Option.map_some], final.holds,
        final.stats, final.count, final.received, final.handed, rfl, final.valid⟩
    · intro again
      rw [twice again, Option.map_none]
  | start =>
    refine ⟨fun _ => ⟨object, rfl, represents⟩, fun never => absurd ?_ never⟩
    simp
  | heartbeat =>
    simp only [or_true, true_implies]
    exact ⟨frees, twice⟩
  | message =>
    refine ⟨fun _ => ?_, fun never => absurd (by simp) never⟩
    dsimp only
    by_cases allocated : outcome.alloc 0 = true
    · rw [if_pos allocated, if_pos allocated]
      exact receiveMessage_frees represents outcome.recvTime buffer
    · rw [if_neg allocated, if_neg allocated]
      exact ⟨object, rfl, represents⟩

def AllFree : List (Outcome × CString) → Server → Prop
  | [], _ => True
  | (outcome, buffer) :: arrivals, server =>
      (flushes buffer → Frees outcome.alloc server.gArray) ∧
        ((ServerThread.receive outcome buffer server).running = true →
          AllFree arrivals (ServerThread.receive outcome buffer server))

theorem serverThread_frees (represents : Represents frame server object)
    (arrivals : List (Outcome × CString)) :
    (AllFree arrivals server → ∃ after, serverThread arrivals object = some after ∧
      Represents frame (ServerThread.serverThread arrivals server) after) ∧
    (¬ AllFree arrivals server → serverThread arrivals object = none) := by
  induction arrivals generalizing server object with
  | nil => exact ⟨fun _ => ⟨object, rfl, represents⟩, fun never => absurd trivial never⟩
  | cons arrival arrivals ih =>
    obtain ⟨outcome, buffer⟩ := arrival
    obtain ⟨frees, twice⟩ := receive_frees represents outcome buffer
    unfold AllFree serverThread ServerThread.serverThread
    by_cases here : flushes buffer → Frees outcome.alloc server.gArray
    · obtain ⟨next, received, related⟩ := frees here
      rw [received, Option.bind_some, related.running]
      dsimp only
      by_cases running : (ServerThread.receive outcome buffer server).running = true
      · rw [if_pos running, if_pos running]
        obtain ⟨good, bad⟩ := ih related
        exact ⟨fun all => good (all.2 running), fun fails => bad fun all => fails ⟨here, fun _ => all⟩⟩
      · rw [if_neg running, if_neg running]
        exact ⟨fun _ => ⟨next, rfl, related⟩,
          fun fails => absurd ⟨here, fun goes => absurd goes running⟩ fails⟩
    · rw [twice here]
      exact ⟨fun all => absurd all.1 here, fun _ => rfl⟩

theorem succeeding_frees (arrivals : List (Outcome × CString)) (server : Server)
    (succeed : ∀ arrival ∈ arrivals, ∀ k, arrival.1.alloc k = true) : AllFree arrivals server := by
  induction arrivals generalizing server with
  | nil => trivial
  | cons arrival arrivals ih =>
    refine ⟨fun _ => Or.inr (Or.inr (Or.inr ?_)), fun _ => ih _ ?_⟩
    · exact fun k _ _ => succeed arrival List.mem_cons_self k
    · exact fun later member => succeed later (List.mem_cons_of_mem _ member)

/-- server_thread is defined until a malloc of a segment fails; otherwise it sends what the values
    say, keeps one block for each id, and main can release all of it. -/
theorem server_memory (memory : Memory) (arrivals : List (Outcome × CString)) :
    let server := ServerThread.serverThread arrivals ServerThread.startServer
    ((∀ arrival ∈ arrivals, ∀ k, arrival.1.alloc k = true) →
      AllFree arrivals ServerThread.startServer) ∧
    (¬ AllFree arrivals ServerThread.startServer →
      serverThread arrivals (startServer memory) = none) ∧
    (AllFree arrivals ServerThread.startServer → ∃ object,
      serverThread arrivals (startServer memory) = some object ∧
      object.handed = server.handed.map Prod.fst ∧ object.stats = server.stats ∧
      (readArray sizeofUint64 object.memory object.gArray).map toList = some (toList server.gArray) ∧
      object.gArray.slots.overrun = false ∧
      liveBlocks object.memory = liveBlocks memory + 1 + server.gArray.size ∧
      ∃ after, releaseDynamicArray sizeofUint64 object.memory object.gArray = some after ∧
        after.block = memory.block) := by
  intro server
  obtain ⟨frame, owns⟩ := exists_owns memory
  obtain ⟨good, bad⟩ := serverThread_frees (represents_start owns) arrivals
  refine ⟨succeeding_frees arrivals _, bad, ?_⟩
  intro all
  obtain ⟨object, run, represents⟩ := good all
  obtain ⟨read, reads, same⟩ := holds_read represents.holds
  obtain ⟨after, released, left⟩ := holds_release represents.holds
  obtain ⟨objects, own, describes, owned⟩ := represents.holds
  refine ⟨object, run, represents.handed, represents.stats, ?_, ?_, ?_, after, released,
    same_owned left owns⟩
  · rw [reads, Option.map_some, same]
  · rw [describes.overrun]
    exact represents.valid.inside
  · rw [live_owned owned, live_owned owns, Multiset.card_add, described_card describes]
    exact (Nat.add_comm _ _).trans ((Nat.add_assoc _ _ _).symm.trans (by rw [show
      sizeofUint64.blocks = 1 from rfl, Nat.one_mul]))

/-- One id, and a heartbeat whose malloc of the first segment fails: the table is freed twice. -/
example : (serverThread
    [(⟨0, fun _ => true, fun _ => true⟩, "1|5|x".toList),
      (⟨0, fun k => k ≠ 2, fun _ => true⟩, "HB".toList)] (startServer noBlocks)).isNone = true := rfl

end Runs

end RealMQ.ServerMemory
