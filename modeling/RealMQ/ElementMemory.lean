import RealMQ.Foundation.Ownership
import RealMQ.ElementRemoval

/- The arrays of common/qos/dynamic_array.c as they lie in memory: the block of pointers, and the
   blocks of the elements, which add_to_dynamic_array copies and remove_element_by_id,
   clean_all_elements and release_dynamic_array free. Allocations succeed; what is undefined in C
   has no result. -/
namespace RealMQ.ElementMemory
open CStrings DynamicArrays ElementRemoval Heaps Slots

/-- unset until it is written. -/
inductive Cell where
  | unset
  | word (value : UInt64)
  | time (value : Int64)
  | address (pointer : Pointer)
  | char (c : Char)

abbrev Memory := Heap Cell

abbrev Blocks := Multiset (Nat × List Cell)

def textCells (text : CString) : List Cell := text.map .char ++ [.char nul]

def wordAt (memory : Memory) (pointer : Pointer) (i : Nat) : Option UInt64 :=
  match load memory pointer i with
  | some (.word value) => some value
  | _ => none

def timeAt (memory : Memory) (pointer : Pointer) (i : Nat) : Option Int64 :=
  match load memory pointer i with
  | some (.time value) => some value
  | _ => none

def addressAt (memory : Memory) (pointer : Pointer) (i : Nat) : Option Pointer :=
  match load memory pointer i with
  | some (.address target) => some target
  | _ => none

def Cell.text : Cell → Option Char
  | .char c => some c
  | _ => none

def textAt (memory : Memory) (pointer : Pointer) : Option CString :=
  (cells memory pointer).bind fun content => content.dropLast.mapM Cell.text

def duplicate (memory : Memory) (pointer : Pointer) : Option (Memory × Pointer) :=
  (cells memory pointer).map fun content => (allocate memory content, some memory.next)

/-- What element_size chooses: how an element is read, copied and released, and the blocks that
    one element has. -/
structure ElementSize (α : Type) where
  read : Memory → Pointer → Option α
  copy : Memory → Pointer → Option (Memory × Pointer)
  release : Memory → Pointer → Option Memory
  Stored : Nat → α → Blocks → Prop
  blocks : Nat
  card_stored : ∀ {p x own}, Stored p x own → own.card = blocks
  read_stored : ∀ {memory p x own frame}, Stored p x own → Owns memory (own + frame) →
    read memory (some p) = some x
  copy_stored : ∀ {memory p x own frame}, Stored p x own → Owns memory (own + frame) →
    ∃ after q new, copy memory (some p) = some (after, some q) ∧ Stored q x new ∧
      Owns after (new + (own + frame))
  release_stored : ∀ {memory p x own frame}, Stored p x own → Owns memory (own + frame) →
    ∃ after, release memory (some p) = some after ∧ Owns after frame

def readWord (memory : Memory) (pointer : Pointer) : Option UInt64 := wordAt memory pointer 0

def copyWord (memory : Memory) (pointer : Pointer) : Option (Memory × Pointer) :=
  (wordAt memory pointer 0).map fun value => (allocate memory [.word value], some memory.next)

def messageCells (id : UInt64) (content : Pointer) (timestamp : Int64) : List Cell :=
  [.word id, .address content, .time timestamp]

def readMessage (memory : Memory) (pointer : Pointer) : Option Message :=
  (wordAt memory pointer 0).bind fun id =>
  (addressAt memory pointer 1).bind fun content =>
  (timeAt memory pointer 2).bind fun timestamp =>
    match content with
    | none => some ⟨id, none, timestamp⟩
    | some _ => (textAt memory content).map fun text => ⟨id, some text, timestamp⟩

def copyMessage (memory : Memory) (pointer : Pointer) : Option (Memory × Pointer) :=
  (duplicate memory pointer).bind fun (memory, copy) =>
  (addressAt memory pointer 1).bind fun content =>
  (duplicate memory content).bind fun (memory, text) =>
  (store memory copy 1 (.address text)).map fun memory => (memory, copy)

def releaseMessage (memory : Memory) (pointer : Pointer) : Option Memory :=
  match pointer with
  | none => some memory
  | some _ =>
      (addressAt memory pointer 1).bind fun content =>
        match content with
        | none => free memory pointer
        | some _ =>
            (free memory content).bind fun memory =>
            (store memory pointer 1 (.address none)).bind fun memory => free memory pointer

def StoredWord (p : Nat) (value : UInt64) (own : Blocks) : Prop := own = {(p, [.word value])}

def StoredMessage (p : Nat) (msg : Message) (own : Blocks) : Prop :=
  ∃ text content, msg.content = some text ∧
    own = {(p, messageCells msg.id (some content) msg.timestamp)} + {(content, textCells text)}

section Elements
variable {memory : Memory} {p : Nat} {own frame : Blocks} {content : List Cell} {i : Nat}

theorem wordAt_owned {value : UInt64} (owns : Owns memory ({(p, content)} + frame))
    (here : content[i]? = some (.word value)) : wordAt memory (some p) i = some value := by
  unfold wordAt
  rw [owns_load owns, here]

theorem timeAt_owned {value : Int64} (owns : Owns memory ({(p, content)} + frame))
    (here : content[i]? = some (.time value)) : timeAt memory (some p) i = some value := by
  unfold timeAt
  rw [owns_load owns, here]

theorem addressAt_owned {target : Pointer} (owns : Owns memory ({(p, content)} + frame))
    (here : content[i]? = some (.address target)) : addressAt memory (some p) i = some target := by
  unfold addressAt
  rw [owns_load owns, here]

theorem mapM_text (text : CString) : (text.map Cell.char).mapM Cell.text = some text := by
  induction text with
  | nil => rfl
  | cons c text ih =>
    rw [List.map_cons, List.mapM_cons, ih]
    rfl

theorem textAt_cells {text : CString} {pointer : Pointer}
    (here : cells memory pointer = some (textCells text)) : textAt memory pointer = some text := by
  unfold textAt
  rw [here, Option.bind_some, textCells, List.dropLast_concat, mapM_text]

theorem textAt_owned {text : CString} (owns : Owns memory ({(p, textCells text)} + frame)) :
    textAt memory (some p) = some text := textAt_cells (owned_cells owns)

theorem duplicate_owned (owns : Owns memory ({(p, content)} + frame)) :
    duplicate memory (some p) = some (allocate memory content, some memory.next) ∧
      Owns (allocate memory content) ({(memory.next, content)} + ({(p, content)} + frame)) := by
  refine ⟨?_, owns_allocate owns⟩
  unfold duplicate
  rw [owned_cells owns, Option.map_some]

theorem copyWord_owned {value : UInt64} (owns : Owns memory ({(p, content)} + frame))
    (here : content[0]? = some (.word value)) :
    copyWord memory (some p) = some (allocate memory [.word value], some memory.next) := by
  unfold copyWord
  rw [wordAt_owned owns here, Option.map_some]

theorem readMessage_stored {msg : Message} (stored : StoredMessage p msg own)
    (owns : Owns memory (own + frame)) : readMessage memory (some p) = some msg := by
  obtain ⟨text, c, some_text, rfl⟩ := stored
  rw [add_assoc] at owns
  have content : Owns memory ({(c, textCells text)} +
      ({(p, messageCells msg.id (some c) msg.timestamp)} + frame)) := by
    rwa [add_left_comm]
  unfold readMessage
  rw [wordAt_owned owns rfl, Option.bind_some, addressAt_owned owns rfl, Option.bind_some,
    timeAt_owned owns rfl, Option.bind_some]
  dsimp only
  rw [textAt_owned content, Option.map_some, ← some_text]

theorem copyMessage_stored {msg : Message} (stored : StoredMessage p msg own)
    (owns : Owns memory (own + frame)) :
    ∃ after q new, copyMessage memory (some p) = some (after, some q) ∧ StoredMessage q msg new ∧
      Owns after (new + (own + frame)) := by
  obtain ⟨text, c, some_text, rfl⟩ := stored
  rw [add_assoc] at owns
  obtain ⟨copied, first⟩ := duplicate_owned owns
  have content : Owns (allocate memory (messageCells msg.id (some c) msg.timestamp))
      ({(c, textCells text)} + ({(memory.next, messageCells msg.id (some c) msg.timestamp)} +
        ({(p, messageCells msg.id (some c) msg.timestamp)} + frame))) := by
    convert first using 1
    abel
  have message : Owns (allocate memory (messageCells msg.id (some c) msg.timestamp))
      ({(p, messageCells msg.id (some c) msg.timestamp)} +
        ({(memory.next, messageCells msg.id (some c) msg.timestamp)} +
          ({(c, textCells text)} + frame))) := by
    convert first using 1
    abel
  obtain ⟨texted, second⟩ := duplicate_owned content
  have target : Owns (allocate (allocate memory (messageCells msg.id (some c) msg.timestamp))
      (textCells text)) ({(memory.next, messageCells msg.id (some c) msg.timestamp)} +
        ({(memory.next + 1, textCells text)} + ({(c, textCells text)} +
          ({(p, messageCells msg.id (some c) msg.timestamp)} + frame)))) := by
    convert second using 1
    rw [add_left_comm]
    congr 1
    rw [add_left_comm]
  obtain ⟨after, stored, final⟩ := @owns_store _ _ _ _ 1 _ target (.address (some (memory.next + 1)))
    (by simp [messageCells])
  refine ⟨after, memory.next, _, ?_, ⟨text, memory.next + 1, some_text, rfl⟩, ?_⟩
  · unfold copyMessage
    rw [copied, Option.bind_some]
    dsimp only
    rw [addressAt_owned message rfl, Option.bind_some, texted, Option.bind_some]
    dsimp only
    rw [show (allocate memory (messageCells msg.id (some c) msg.timestamp)).next = memory.next + 1
      from rfl, stored, Option.map_some]
  · convert final using 1
    simp only [messageCells, List.set_cons_succ, List.set_cons_zero]
    abel

theorem releaseMessage_stored {msg : Message} (stored : StoredMessage p msg own)
    (owns : Owns memory (own + frame)) :
    ∃ after, releaseMessage memory (some p) = some after ∧ Owns after frame := by
  obtain ⟨text, c, some_text, rfl⟩ := stored
  rw [add_assoc] at owns
  have content : Owns memory ({(c, textCells text)} +
      ({(p, messageCells msg.id (some c) msg.timestamp)} + frame)) := by
    rwa [add_left_comm]
  obtain ⟨first, freed, owned⟩ := owns_free content
  obtain ⟨second, stored, cleared⟩ := @owns_store _ _ _ _ 1 _ owned (.address none) (by
    simp [messageCells])
  obtain ⟨last, released, rest⟩ := owns_free cleared
  refine ⟨last, ?_, rest⟩
  unfold releaseMessage
  dsimp only
  rw [addressAt_owned owns rfl, Option.bind_some]
  dsimp only
  rw [freed, Option.bind_some, stored, Option.bind_some, released]

end Elements

def sizeofUint64 : ElementSize UInt64 where
  read := readWord
  copy := copyWord
  release := free
  Stored := StoredWord
  blocks := 1
  card_stored := by
    rintro p value _ rfl
    rfl
  read_stored := by
    rintro memory p value _ frame rfl owns
    exact wordAt_owned owns rfl
  copy_stored := by
    rintro memory p value _ frame rfl owns
    exact ⟨_, memory.next, _, copyWord_owned owns rfl, rfl, owns_allocate owns⟩
  release_stored := by
    rintro memory p value _ frame rfl owns
    exact owns_free owns

def sizeofMessage : ElementSize Message where
  read := readMessage
  copy := copyMessage
  release := releaseMessage
  Stored := StoredMessage
  blocks := 2
  card_stored := by
    rintro p msg _ ⟨text, content, -, rfl⟩
    rfl
  read_stored := readMessage_stored
  copy_stored := copyMessage_stored
  release_stored := releaseMessage_stored

structure ArrayObject where
  slots : DynamicArray Pointer
  data : Pointer

section Arrays
variable {α : Type} (size : ElementSize α) (memory : Memory) (array : ArrayObject)

def initDynamicArray (initialCapacity : Nat) : Memory × ArrayObject :=
  (allocate memory [], ⟨⟨fun _ => none, 0, initialCapacity, false⟩, some memory.next⟩)

def resizeDynamicArray : Option (Memory × ArrayObject) :=
  (free memory array.data).map fun freed =>
    (allocate freed [], ⟨DynamicArrays.resizeDynamicArray array.slots, some freed.next⟩)

def addElement (newElement : Pointer) : Option (Memory × ArrayObject) :=
  (cells memory array.data).map fun _ =>
    (memory, { array with slots := DynamicArrays.addElement array.slots newElement })

def addToDynamicArray (element : Pointer) : Option (Memory × ArrayObject) :=
  (if array.slots.size = array.slots.capacity then resizeDynamicArray memory array
    else some (memory, array)).bind fun (memory, array) =>
  (size.copy memory element).bind fun (memory, newElement) => addElement memory array newElement

def elementAt (i : Nat) : Option α :=
  (cells memory array.data).bind fun _ => size.read memory (array.slots.data i)

def readArray [Element α] : Option (DynamicArray α) :=
  ((List.range array.slots.size).mapM (elementAt size memory array)).map fun elements =>
    ⟨fun i => elements.getD i default, array.slots.size, array.slots.capacity, array.slots.overrun⟩

def removeElementById [Element α] (msgId : UInt64) (useInterpolationSearch removeElement : Bool) :
    Option (Option Nat × Memory × ArrayObject) :=
  (readArray size memory array).bind fun values =>
    match lookup values msgId useInterpolationSearch with
    | none => some (none, memory, array)
    | some index =>
        if removeElement then
          (size.release memory (array.slots.data index)).map fun memory =>
            (some index, memory,
              { array with
                slots := { shiftLeft array.slots index (array.slots.size - 1 - index) with
                  size := array.slots.size - 1 } })
        else some (some index, memory, array)

def releaseElements : Option Memory :=
  forLoop (fun i memory => size.release memory (array.slots.data i)) array.slots.size memory

def cleanAllElements : Option (Memory × ArrayObject) :=
  (releaseElements size memory array).map fun memory =>
    (memory, { array with slots := { array.slots with size := 0 } })

def releaseDynamicArray : Option Memory :=
  (releaseElements size memory array).bind fun memory => free memory array.data

end Arrays

/-- The array in memory stands for these values; own are its blocks, objects the elements with
    theirs. -/
structure Describes {α : Type} (size : ElementSize α) (array : ArrayObject) (values : DynamicArray α)
    (objects : List (Nat × Blocks)) (own : Blocks) : Prop where
  data : ∃ p, array.data = some p ∧ own = {(p, [])} + (objects.map Prod.snd).sum
  pointers : toList array.slots = objects.map fun object => some object.1
  stored : List.Forall₂ (fun object x => size.Stored object.1 x object.2) objects (toList values)
  capacity : array.slots.capacity = values.capacity
  overrun : array.slots.overrun = values.overrun

section Described
variable {α : Type} {size : ElementSize α} {memory : Memory} {array : ArrayObject}
  {values : DynamicArray α} {objects : List (Nat × Blocks)} {own frame : Blocks} {i : Nat}

theorem described_length (describes : Describes size array values objects own) :
    objects.length = array.slots.size ∧ objects.length = values.size := by
  have pointers := congrArg List.length describes.pointers
  have stored := describes.stored.length_eq
  rw [toList_length, List.length_map] at pointers
  rw [toList_length] at stored
  exact ⟨pointers.symm, stored⟩

theorem described_card (describes : Describes size array values objects own) :
    own.card = 1 + size.blocks * values.size := by
  obtain ⟨p, -, rfl⟩ := describes.data
  have each : ∀ (objects : List (Nat × Blocks)) (xs : List α),
      List.Forall₂ (fun object x => size.Stored object.1 x object.2) objects xs →
      ((objects.map Prod.snd).sum).card = size.blocks * objects.length := by
    intro objects xs all
    induction all with
    | nil => rfl
    | cons first _ ih =>
      rw [List.map_cons, List.sum_cons, Multiset.card_add, size.card_stored first, ih,
        List.length_cons, Nat.mul_succ, Nat.add_comm]
  rw [Multiset.card_add, Multiset.card_singleton, each _ _ describes.stored,
    (described_length describes).2]

theorem described_data (describes : Describes size array values objects own)
    (owns : Owns memory (own + frame)) : cells memory array.data = some [] := by
  obtain ⟨p, data, rfl⟩ := describes.data
  rw [data]
  rw [add_assoc] at owns
  exact owned_cells owns

theorem described_element (describes : Describes size array values objects own)
    (bound : i < values.size) : ∃ p share, objects[i]? = some (p, share) ∧
      array.slots.data i = some p ∧ size.Stored p (values.data i) share := by
  obtain ⟨first, second⟩ := described_length describes
  have inside : i < objects.length := by omega
  refine ⟨objects[i].1, objects[i].2, List.getElem?_eq_getElem inside, ?_, ?_⟩
  · have here : (toList array.slots)[i]? = some (some objects[i].1) := by
      rw [describes.pointers, List.getElem?_map, List.getElem?_eq_getElem inside]
      rfl
    rw [toList, window_getElem? _ _ _ (by omega)] at here
    exact Option.some.inj here
  · have stored := describes.stored.get inside (by rw [toList_length]; exact bound)
    simpa [toList, window_getElem] using stored

theorem split_objects (p : Nat) {share : Blocks} {object : Nat} (here : objects[i]? = some (object, share)) :
    ({(p, [])} + (objects.map Prod.snd).sum : Blocks) =
      share + ({(p, [])} + ((objects.eraseIdx i).map Prod.snd).sum) := by
  obtain ⟨inside, eq⟩ := List.getElem?_eq_some_iff.mp here
  have perm := (List.getElem_cons_eraseIdx_perm inside).map Prod.snd
  rw [List.map_cons, eq] at perm
  rw [← perm.sum_eq, List.sum_cons]
  abel

end Described

end RealMQ.ElementMemory
