import RealMQ.BufferSegments
import RealMQ.StatsFiles

/- src/realmq_server.c in the QoS build: the dispatch of server_thread and the
   acknowledgements of send_ids. handed is not a variable of the source: it lists the
   texts given to zmq_send_group on the responder radio, each with the result of the send. -/
namespace RealMQ.ServerThread
open CStrings DynamicArrays Marshalling BufferSegments NextFit StatsFiles

inductive Datagram where
  | stop
  | start
  | heartbeat
  | message
  deriving DecidableEq

def dispatch (buffer : CString) : Datagram :=
  if strncmpEq buffer "STOP".toList 4 then .stop
  else if strncmpEq buffer "START".toList 5 then .start
  else if strncmpEq buffer "HB".toList 2 then .heartbeat
  else .message

theorem dispatch_digit {c : Char} (s : CString) (digit : c.isDigit = true) :
    dispatch (c :: s) = .message := by
  have other : ∀ x : Char, ∀ t n, x.isDigit = false → strncmpEq (c :: s) (x :: t) (n + 1) = false := by
    intro x t n letter
    simp only [strncmpEq, List.take_succ_cons]
    apply decide_eq_false
    intro same
    obtain ⟨rfl, -⟩ := List.cons.inj same
    simp [digit] at letter
  have stop := other 'S' "TOP".toList 3 (by decide)
  have start := other 'S' "TART".toList 4 (by decide)
  have heartbeat := other 'H' "B".toList 1 (by decide)
  unfold dispatch
  rw [if_neg (by simpa using stop), if_neg (by simpa using start), if_neg (by simpa using heartbeat)]

theorem dispatch_marshal (msg : Message) {n : Nat} (pos : 0 < n) (junk : CString) :
    dispatch ((marshalMessage msg).take n ++ junk) = .message := by
  obtain ⟨c, s, text, digit⟩ := decimal_head_digit msg.id.toNat
  obtain ⟨n, rfl⟩ : ∃ m, n = m + 1 := ⟨n - 1, by omega⟩
  simp only [marshalMessage, idText, text, List.cons_append, List.take_succ_cons]
  exact dispatch_digit _ digit

theorem message_codec (msg : Message) (sendable : Sendable msg) :
    unmarshalMessage (marshalMessage msg) = msg ∧
      (∀ other, Sendable other → marshalMessage other = marshalMessage msg → other = msg) ∧
      ∀ n junk, 0 < n → dispatch ((marshalMessage msg).take n ++ junk) = .message := by
  refine ⟨unmarshal_marshal sendable, ?_, fun n junk pos => dispatch_marshal msg pos junk⟩
  intro other valid same
  rw [← unmarshal_marshal valid, same, unmarshal_marshal sendable]

theorem message_codec_bars :
    let msg : Message := ⟨18446744073709551615, some "STOP|a||b".toList, 9223372036854775807⟩
    unmarshalMessage (marshalMessage msg) = msg ∧
      (∀ other, Sendable other → marshalMessage other = marshalMessage msg → other = msg) ∧
      ∀ n junk, 0 < n → dispatch ((marshalMessage msg).take n ++ junk) = .message :=
  message_codec _ ⟨rfl, by decide⟩

def wakeup : CString := "WAKEUP".toList

/-- The array is emptied whatever became of the sends. After a failed malloc of a segment the
    source frees the table twice, which only the memory level has. -/
def sendIds (alloc sent : Nat → Bool) (gArray : DynamicArray UInt64) :
    List (CString × Bool) × DynamicArray UInt64 :=
  let segmentsArray := marshalAndSplit shippedSegmentSize alloc gArray
  let texts := (segmentsArray.segments.take segmentsArray.count).map BufferSegment.data
  let texts := if segmentsArray.count = 0 then texts ++ [wakeup] else texts
  (texts.zipIdx.map fun p => (p.1, sent p.2), (cleanAllElements gArray).2)

structure Server where
  gArray : DynamicArray UInt64
  stats : Stats
  countMsg : Nat
  receivedMessages : Int64
  handed : List (CString × Bool)
  running : Bool

def startServer : Server :=
  { gArray := initDynamicArray UInt64 100000
    stats := initJsonMessages
    countMsg := 0
    receivedMessages := 0
    handed := []
    running := true }

/-- MAX compares a long long with a uint64_t, hence unsigned. -/
def maxReceived (receivedMessages : Int64) (id : UInt64) : Int64 :=
  if id < receivedMessages.toUInt64 then receivedMessages else id.toInt64

structure Outcome where
  recvTime : Int64
  alloc : Nat → Bool
  sent : Nat → Bool

def Server.flush (outcome : Outcome) (server : Server) : Server :=
  let result := sendIds outcome.alloc outcome.sent server.gArray
  { server with handed := server.handed ++ result.1, gArray := result.2 }

def receive (outcome : Outcome) (buffer : CString) (server : Server) : Server :=
  match dispatch buffer with
  | .stop => { server.flush outcome with running := false }
  | .start => server
  | .heartbeat => server.flush outcome
  | .message =>
      if outcome.alloc 0 then
        let msg := unmarshalMessage buffer
        { server with
          stats := processJsonMessage outcome.recvTime msg server.stats
          gArray := addToDynamicArray server.gArray msg.id
          countMsg := server.countMsg + 1
          receivedMessages := maxReceived server.receivedMessages msg.id }
      else server

def serverThread : List (Outcome × CString) → Server → Server
  | [], server => server
  | (outcome, buffer) :: arrivals, server =>
      let next := receive outcome buffer server
      if next.running then serverThread arrivals next else next

def dataId (buffer : CString) : Option UInt64 :=
  if dispatch buffer = .message then some (unmarshalMessage buffer).id else none

def receivedIds (buffers : List CString) : List UInt64 := buffers.filterMap dataId

def acknowledged (handed : List (CString × Bool)) : List UInt64 :=
  (handed.map Prod.fst).filter (· ≠ wakeup) |>.flatMap fun text => toList (unmarshalUint64Array text)

def accounted (server : Server) : List UInt64 := acknowledged server.handed ++ toList server.gArray

theorem dataId_text (id : UInt64) (rest : CString) : dataId (idText id ++ '|' :: rest) = some id := by
  obtain ⟨c, s, text, digit⟩ := decimal_head_digit id.toNat
  have data : dispatch (idText id ++ '|' :: rest) = .message := by
    rw [idText, text]
    exact dispatch_digit _ digit
  rw [dataId, if_pos data, unmarshal_id]

theorem dataId_marshal (msg : Message) : dataId (marshalMessage msg) = some msg.id :=
  dataId_text msg.id _

theorem acknowledged_append (front back : List (CString × Bool)) :
    acknowledged (front ++ back) = acknowledged front ++ acknowledged back := by
  simp [acknowledged]

theorem zipIdx_texts (texts : List CString) (sent : Nat → Bool) :
    (texts.zipIdx.map fun p => (p.1, sent p.2)).map Prod.fst = texts := by
  rw [List.map_map]
  exact List.zipIdx_map_fst 0 texts

theorem joinIds_ne_wakeup (list : List UInt64) : joinIds list ≠ wakeup :=
  joinIds_ne (x := 'W') (by decide) list

section Flush
variable (sent : Nat → Bool) (gArray : DynamicArray UInt64)

@[simp] theorem sendIds_clears (alloc : Nat → Bool) :
    toList (sendIds alloc sent gArray).2 = [] := rfl

@[simp] theorem sendIds_size (alloc : Nat → Bool) : (sendIds alloc sent gArray).2.size = 0 := rfl

theorem sendIds_empty (alloc : Nat → Bool) (empty : gArray.size = 0) :
    (sendIds alloc sent gArray).1 = [(wakeup, sent 0)] := by
  simp [sendIds, marshalAndSplit, marshalUint64Array, empty, emptySegmentArray]

theorem sendIds_texts (nonempty : gArray.size ≠ 0) :
    ((sendIds (fun _ => true) sent gArray).1).map Prod.fst =
      (pack (fits shippedSegmentSize) (toList gArray)).map joinIds := by
  have single : ∀ x ∈ ids gArray, (idText x).length ≤ shippedSegmentSize :=
    fun x _ => idText_short (by decide) x
  have filled : toList gArray ≠ [] := toList_ne_nil nonempty
  simp only [sendIds, zipIdx_texts, marshalAndSplit_eq_pack nonempty single, ids_values,
    List.length_eq_zero_iff, pack_ne_nil filled, if_false]
  rw [List.take_of_length_le (by simp), List.map_map]
  rfl

theorem acknowledged_texts {handed : List (CString × Bool)} {groups : List (List UInt64)}
    (texts : handed.map Prod.fst = groups.map joinIds) : acknowledged handed = groups.flatten := by
  have kept : (groups.map joinIds).filter (· ≠ wakeup) = groups.map joinIds := by
    apply List.filter_eq_self.mpr
    intro text member
    obtain ⟨g, -, rfl⟩ := List.mem_map.mp member
    simpa using joinIds_ne_wakeup g
  rw [acknowledged, texts, kept, List.flatMap_map]
  simp [unmarshal_joinIds, List.flatMap_id']

theorem sendIds_honest {text : CString}
    (member : text ∈ (sendIds (fun _ => true) sent gArray).1.map Prod.fst) :
    text.length ≤ shippedSegmentSize ∧
      ∀ x ∈ ids (unmarshalUint64Array text), x ∈ toList gArray ∨ x = 0 := by
  by_cases empty : gArray.size = 0
  · rw [sendIds_empty sent gArray _ empty, List.map_singleton, List.mem_singleton] at member
    subst text
    exact ⟨(by decide : wakeup.length ≤ shippedSegmentSize),
      fun x inside => Or.inr (by simpa using show x ∈ [0] from inside)⟩
  · rw [sendIds_texts sent gArray empty] at member
    obtain ⟨g, group, rfl⟩ := List.mem_map.mp member
    have short := @pack_fits _ (fits shippedSegmentSize) (toList gArray) (fun x _ => by
      have := decimal_u64_length x
      simp only [fits, joinIds_singleton, idText, shippedSegmentSize, decide_eq_true_eq]
      omega) g group
    refine ⟨by simpa [fits] using short, ?_⟩
    intro x inside
    rw [ids_values, unmarshal_joinIds] at inside
    left
    rw [← @pack_flatten _ (fits shippedSegmentSize) (toList gArray)]
    exact List.mem_flatten_of_mem group inside

theorem acknowledged_sendIds :
    acknowledged (sendIds (fun _ => true) sent gArray).1 = toList gArray := by
  by_cases empty : gArray.size = 0
  · have none : toList gArray = [] := List.length_eq_zero_iff.mp (by rw [toList_length, empty])
    rw [sendIds_empty sent gArray _ empty, none]
    simp [acknowledged]
  · rw [acknowledged_texts (sendIds_texts sent gArray empty), pack_flatten]

end Flush

def Allocates (outcome : Outcome) : Prop := outcome.alloc = fun _ => true

theorem accounted_flush {outcome : Outcome} (allocates : Allocates outcome) (server : Server) :
    accounted (server.flush outcome) = accounted server := by
  simp only [accounted, Server.flush, acknowledged_append, sendIds_clears, List.append_nil]
  rw [show outcome.alloc = fun _ => true from allocates, acknowledged_sendIds]

theorem accounted_receive {outcome : Outcome} (allocates : Allocates outcome) (buffer : CString)
    (server : Server) :
    accounted (receive outcome buffer server) = accounted server ++ (dataId buffer).toList := by
  unfold receive dataId
  cases kind : dispatch buffer with
  | stop => simpa [accounted] using accounted_flush allocates server
  | start => simp
  | heartbeat => simpa using accounted_flush allocates server
  | message => simp [accounted, show outcome.alloc = fun _ => true from allocates]

theorem receive_cases {outcome : Outcome} (allocates : Allocates outcome) (buffer : CString)
    (server : Server) :
    let next := receive outcome buffer server
    (dataId buffer = none ∧ toList next.gArray = toList server.gArray ∧
      next.handed = server.handed) ∨
    (dataId buffer = none ∧ toList next.gArray = [] ∧
      next.handed = server.handed ++ (sendIds (fun _ => true) outcome.sent server.gArray).1) ∨
    (∃ id, dataId buffer = some id ∧ toList next.gArray = toList server.gArray ++ [id] ∧
      next.handed = server.handed) := by
  have alloc : outcome.alloc = fun _ => true := allocates
  unfold receive dataId
  cases kind : dispatch buffer with
  | stop => exact Or.inr (Or.inl ⟨by simp, by simp [Server.flush], by simp [Server.flush, alloc]⟩)
  | start => exact Or.inl ⟨by simp, rfl, rfl⟩
  | heartbeat =>
    exact Or.inr (Or.inl ⟨by simp, by simp [Server.flush], by simp [Server.flush, alloc]⟩)
  | message => exact Or.inr (Or.inr
    ⟨(unmarshalMessage buffer).id, by simp, by simp [alloc], by simp [alloc]⟩)

theorem running_receive (outcome : Outcome) (buffer : CString) (server : Server) :
    (receive outcome buffer server).running =
      (server.running && decide (dispatch buffer ≠ .stop)) := by
  unfold receive
  cases kind : dispatch buffer with
  | stop => simp
  | start => simp
  | heartbeat => simp [Server.flush]
  | message => dsimp only; split <;> simp

theorem serverThread_cons {outcome : Outcome} {buffer : CString}
    {arrivals : List (Outcome × CString)} {server : Server} (running : server.running = true) :
    (dispatch buffer = .stop ∧
      serverThread ((outcome, buffer) :: arrivals) server = receive outcome buffer server) ∨
    (dispatch buffer ≠ .stop ∧ (receive outcome buffer server).running = true ∧
      serverThread ((outcome, buffer) :: arrivals) server =
        serverThread arrivals (receive outcome buffer server)) := by
  have flag := running_receive outcome buffer server
  rw [running, Bool.true_and] at flag
  by_cases stop : dispatch buffer = .stop
  · left
    refine ⟨stop, ?_⟩
    rw [serverThread, if_neg (by simp [flag, stop])]
  · right
    have go : (receive outcome buffer server).running = true := by simp [flag, stop]
    refine ⟨stop, go, ?_⟩
    rw [serverThread, if_pos go]

def handledBuffers (arrivals : List (Outcome × CString)) : List CString :=
  (arrivals.map Prod.snd).takeWhile (dispatch · ≠ .stop)

theorem accounted_serverThread {arrivals : List (Outcome × CString)} {server : Server}
    (allocates : ∀ a ∈ arrivals, Allocates a.1) (running : server.running = true) :
    accounted (serverThread arrivals server) =
      accounted server ++ receivedIds (handledBuffers arrivals) := by
  induction arrivals generalizing server with
  | nil => simp [serverThread, handledBuffers, receivedIds]
  | cons arrival arrivals ih =>
    obtain ⟨outcome, buffer⟩ := arrival
    have first : Allocates outcome := allocates _ List.mem_cons_self
    have step := accounted_receive first buffer server
    rcases @serverThread_cons outcome buffer arrivals server running with ⟨stop, eq⟩ | ⟨go, up, eq⟩
    · rw [eq, step]
      simp [stop, handledBuffers, receivedIds, dataId]
    · have rest := ih (fun a member => allocates a (List.mem_cons_of_mem _ member)) up
      rw [eq, rest, step]
      simp [handledBuffers, go, receivedIds, List.filterMap_cons]
      cases dataId buffer <;> simp

theorem stop_clears (outcome : Outcome) {buffer : CString} (server : Server)
    (stop : dispatch buffer = .stop) : (receive outcome buffer server).gArray.size = 0 := by
  simp [receive, stop, Server.flush]

theorem stopped_clears {arrivals : List (Outcome × CString)} {server : Server}
    (running : server.running = true) (stopped : (serverThread arrivals server).running = false) :
    (serverThread arrivals server).gArray.size = 0 := by
  induction arrivals generalizing server with
  | nil => simp [serverThread, running] at stopped
  | cons arrival arrivals ih =>
    obtain ⟨outcome, buffer⟩ := arrival
    rcases @serverThread_cons outcome buffer arrivals server running with ⟨stop, eq⟩ | ⟨-, up, eq⟩
    · rw [eq]
      exact stop_clears outcome server stop
    · rw [eq] at stopped ⊢
      exact ih up stopped

/-- The acknowledgements handed over so far, then the array, are the ids received. -/
theorem ack_stream_faithful (arrivals : List (Outcome × CString))
    (allocates : ∀ a ∈ arrivals, Allocates a.1) :
    let server := serverThread arrivals startServer
    acknowledged server.handed ++ toList server.gArray = receivedIds (handledBuffers arrivals) ∧
      (∀ msg, dataId (marshalMessage msg) = some msg.id) ∧
      (∀ outcome buffer, dispatch buffer = .heartbeat → server.gArray.size = 0 →
        (receive outcome buffer server).handed = server.handed ++ [(wakeup, outcome.sent 0)]) ∧
      (∀ outcome buffer, dispatch buffer = .stop →
        (receive outcome buffer server).gArray.size = 0) ∧
      (server.running = false → server.gArray.size = 0) := by
  intro server
  have stream := accounted_serverThread allocates (show startServer.running = true from rfl)
  refine ⟨stream, dataId_marshal, ?_, fun outcome buffer stop => stop_clears outcome server stop,
    stopped_clears rfl⟩
  intro outcome buffer heartbeat empty
  simp [receive, heartbeat, Server.flush, sendIds_empty _ _ _ empty]

theorem ack_stream_faithful_short :
    let good : Outcome := ⟨0, fun _ => true, fun _ => true⟩
    let arrivals := [(good, "START".toList), (good, "7|0|x".toList), (good, "HB".toList),
      (good, "HB".toList), (good, "STOP".toList)]
    let server := serverThread arrivals startServer
    acknowledged server.handed ++ toList server.gArray = receivedIds (handledBuffers arrivals) ∧
      (∀ msg, dataId (marshalMessage msg) = some msg.id) ∧
      (∀ outcome buffer, dispatch buffer = .heartbeat → server.gArray.size = 0 →
        (receive outcome buffer server).handed = server.handed ++ [(wakeup, outcome.sent 0)]) ∧
      (∀ outcome buffer, dispatch buffer = .stop →
        (receive outcome buffer server).gArray.size = 0) ∧
      (server.running = false → server.gArray.size = 0) :=
  ack_stream_faithful _ (by simp [Allocates])

end RealMQ.ServerThread
