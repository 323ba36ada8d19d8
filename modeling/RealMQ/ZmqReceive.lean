import RealMQ.QosProtocol
import RealMQ.Foundation.Buffers

/- zmq_receive of common/core/zhelpers.c with everything that zmq_recv may report, and the two
   loops that call it. zmq_recv copies at most len bytes, returns the full length of the
   message also when it is longer, and -1 for an error. -/
namespace RealMQ.ZmqReceive
open CStrings Buffers ServerThread ClientThread

inductive Errno where
  | eagain
  | other (code : Nat)
  deriving DecidableEq

inductive Reception where
  | failed (errno : Errno)
  | message (bytes : CString)
  deriving DecidableEq

def zmqRecv (reception : Reception) (len : Nat) (buffer : Buffer Char) : Int × Buffer Char :=
  match reception with
  | .failed _ => (-1, buffer)
  | .message bytes => (bytes.length, copyAt buffer 0 (bytes.take len))

def zmqReceive (reception : Reception) (bufferSize : Nat) (buffer : Buffer Char) :
    Int × Buffer Char :=
  let received := zmqRecv reception (bufferSize - 1) buffer
  let rc := received.1
  if rc = -1 ∧ reception = .failed .eagain then (-1, received.2)
  else (rc, write received.2 rc nul)

def serverTurn (outcome : Outcome) (rc : Int) (text : CString) (server : Server) : Server :=
  if rc = -1 then server else receive outcome text server

def responderTurn (clock : Nat → Int64) (rc : Int) (text : CString) (client : Client) :
    Option Client :=
  if rc = -1 then some client else respond clock text client

def Unused (rc : Int) : Prop :=
  (∀ outcome server text text', serverTurn outcome rc text server = serverTurn outcome rc text' server) ∧
    ∀ clock client text text', responderTurn clock rc text client = responderTurn clock rc text' client

/-- What a caller may rely on: no write outside the buffer, and a terminated text in it unless
    the result is -1. -/
structure StaysInside (reception : Reception) (bufferSize : Nat) (garbage : Int → Char) : Prop where
  inside : Inside (zmqReceive reception bufferSize (fresh garbage)).2 bufferSize
  text : ((zmqReceive reception bufferSize (fresh garbage)).1 = -1 ∧
      Unused (zmqReceive reception bufferSize (fresh garbage)).1) ∨
    ∃ bytes, reception = .message bytes ∧
      Holds (zmqReceive reception bufferSize (fresh garbage)).2 0
        (bytes.take (bufferSize - 1) ++ [nul])

section Messages
variable {bytes : CString} {bufferSize : Nat} {buffer : Buffer Char}

theorem zmqReceive_message : zmqReceive (.message bytes) bufferSize buffer =
    ((bytes.length : Int),
      write (copyAt buffer 0 (bytes.take (bufferSize - 1))) bytes.length nul) := by
  unfold zmqReceive zmqRecv
  dsimp only
  rw [if_neg]
  rintro ⟨-, impossible⟩
  cases impossible

theorem zmqReceive_timeout : zmqReceive (.failed .eagain) bufferSize buffer = (-1, buffer) := by
  unfold zmqReceive zmqRecv
  dsimp only
  rw [if_pos ⟨rfl, rfl⟩]

theorem zmqReceive_error (code : Nat) :
    zmqReceive (.failed (.other code)) bufferSize buffer = (-1, write buffer (-1) nul) := by
  unfold zmqReceive zmqRecv
  dsimp only
  rw [if_neg]
  rintro ⟨-, impossible⟩
  cases impossible

theorem unused_error : Unused (-1) := by
  constructor
  · intro outcome server text text'
    rfl
  · intro clock client text text'
    rfl

theorem holds_short (short : bytes.length < bufferSize) :
    Holds (zmqReceive (.message bytes) bufferSize buffer).2 0 (bytes ++ [nul]) := by
  rw [zmqReceive_message, List.take_of_length_le (by omega)]
  apply holds_write_end
  · exact holds_copy buffer 0 bytes
  · omega

theorem holds_cut :
    Holds (zmqReceive (.message bytes) bufferSize buffer).2 0 (bytes.take (bufferSize - 1)) := by
  rw [zmqReceive_message]
  apply holds_write_apart
  · exact holds_copy buffer 0 _
  · simp only [List.length_take]
    omega

/-- What a loop reads in its buffer is what the protocol allows it to read. -/
theorem buffered_of_reads {text : CString} (free : nul ∉ bytes) (ends : nul ∉ text)
    (reads : Holds (zmqReceive (.message bytes) bufferSize buffer).2 0 (text ++ [nul])) :
    QosProtocol.buffered bufferSize bytes text = true := by
  unfold QosProtocol.buffered
  split
  · rename_i short
    have whole := @holds_short bytes bufferSize buffer short
    have front := holds_prefix reads (holds_left whole) free
    have back := holds_prefix whole (holds_left reads) ends
    rw [decide_eq_true_eq]
    exact back.eq_of_length_le front.length_le
  · rw [List.isPrefixOf_iff_prefix]
    apply holds_prefix reads holds_cut
    intro member
    exact free (List.mem_of_mem_take member)

end Messages

/-- zmq_receive keeps its promise exactly for a timeout and for messages that leave room for
    the terminator. -/
theorem zmq_receive_inside_iff (reception : Reception) (bufferSize : Nat) (garbage : Int → Char)
    (positive : 1 ≤ bufferSize) :
    StaysInside reception bufferSize garbage ↔ reception = .failed .eagain ∨
      ∃ bytes, reception = .message bytes ∧ bytes.length < bufferSize := by
  constructor
  · rintro ⟨inside, -⟩
    cases reception with
    | failed errno =>
      cases errno with
      | eagain => exact Or.inl rfl
      | other code =>
        rw [zmqReceive_error, inside_write_iff] at inside
        omega
    | message bytes =>
      rw [zmqReceive_message, inside_write_iff] at inside
      exact Or.inr ⟨bytes, rfl, by omega⟩
  · rintro (rfl | ⟨bytes, rfl, short⟩)
    · constructor
      · rw [zmqReceive_timeout]
        exact inside_fresh garbage bufferSize
      · rw [zmqReceive_timeout]
        exact Or.inl ⟨rfl, unused_error⟩
    · constructor
      · rw [zmqReceive_message, inside_write_iff, inside_copy_iff (le_refl 0)]
        refine ⟨⟨inside_fresh garbage bufferSize, ?_⟩, by omega, by omega⟩
        intro _
        simp only [List.length_take]
        omega
      · refine Or.inr ⟨bytes, rfl, ?_⟩
        rw [List.take_of_length_le (by omega)]
        exact holds_short short

theorem zmq_receive_inside_wakeup :
    StaysInside (.message wakeup) 2048 (fun _ => 'x') ↔ Reception.message wakeup = .failed .eagain ∨
      ∃ bytes, Reception.message wakeup = .message bytes ∧ bytes.length < 2048 :=
  zmq_receive_inside_iff (.message wakeup) 2048 (fun _ => 'x') (by decide)

/-- A datagram of 1024 bytes in the buffer of server_thread. -/
theorem full_datagram_leaves_buffer :
    ¬ ∀ (reception : Reception) (bufferSize : Nat) (garbage : Int → Char), 1 ≤ bufferSize →
      StaysInside reception bufferSize garbage := by
  intro always
  obtain ⟨inside, -⟩ := always (.message (List.replicate 1024 'a')) 1024 (fun _ => 'x') (by decide)
  rw [zmqReceive_message, inside_write_iff, List.length_replicate] at inside
  exact absurd inside.2.2 (by decide)

end RealMQ.ZmqReceive
