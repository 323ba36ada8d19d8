import RealMQ.StringManip
import RealMQ.Foundation.Buffers

/- The payload of a message in client_thread: an array of config.message_size bytes, sprintf
   of a prefix, random_string for the rest and strcat. -/
namespace RealMQ.ClientPayload
open CStrings StringManip Buffers

def messagePrefix (threadNum countMsg : Int32) : CString :=
  "Thread ".toList ++ signedDecimal threadNum ++ " - Message ".toList ++
    signedDecimal countMsg ++ " - ".toList

/-- config.message_size - current_len, an int and an unsigned long, as the argument of
    random_string. -/
def randomSize (messageSize : Int32) (currentLen : Nat) : UInt32 :=
  (messageSize.toInt64.toUInt64 - UInt64.ofNat currentLen).toUInt32

def payload (rand : Rand) (messageSize threadNum countMsg : Int32) (garbage : Int → Char) :
    Text nul :=
  let message := put nul (fresh garbage) (messagePrefix threadNum countMsg)
  strcat message (randomString rand (randomSize messageSize message.text.length))

structure Fits (rand : Rand) (messageSize threadNum countMsg : Int32) (garbage : Int → Char) :
    Prop where
  inside : Inside (payload rand messageSize threadNum countMsg garbage).memory
    messageSize.toInt.toNat
  unwrapped : (messagePrefix threadNum countMsg).length ≤ messageSize.toInt

theorem randomSize_of_le {messageSize : Int32} {currentLen : Nat}
    (room : currentLen ≤ messageSize.toInt) :
    ((randomSize messageSize currentLen).toNat : Int) = messageSize.toInt - currentLen := by
  have upper := messageSize.toInt_lt
  have wide := toUInt64_of_nonneg (t := messageSize.toInt64) (by rw [Int32.toInt_toInt64]; omega)
  rw [Int32.toInt_toInt64] at wide
  have len : (UInt64.ofNat currentLen).toNat = currentLen := UInt64.toNat_ofNat_of_lt' (by unfold UInt64.size; omega)
  have difference := UInt64.toNat_sub_of_le messageSize.toInt64.toUInt64 (UInt64.ofNat currentLen)
    (by rw [UInt64.le_iff_toNat_le]; omega)
  unfold randomSize
  rw [UInt64.toNat_toUInt32]
  omega

variable (rand : Rand) (messageSize threadNum countMsg : Int32) (garbage : Int → Char)

theorem payload_length (room : (messagePrefix threadNum countMsg).length ≤ messageSize.toInt) :
    ((payload rand messageSize threadNum countMsg garbage).text.length : Int) =
      messageSize.toInt := by
  have size := randomSize_of_le room
  unfold payload
  simp only [text_strcat, text_put, List.length_append, randomString_length, Nat.cast_add]
  omega

theorem payload_overruns (room : (messagePrefix threadNum countMsg).length ≤ messageSize.toInt) :
    ¬ Inside (payload rand messageSize threadNum countMsg garbage).memory
      messageSize.toInt.toNat := by
  intro inside
  have length := payload_length rand messageSize threadNum countMsg garbage room
  unfold payload at inside length
  rw [inside_strcat_iff] at inside
  simp only [text_strcat, List.length_append, Nat.cast_add] at length
  omega

/-- Either the prefix is longer than the array and the subtraction wraps, or the terminator is
    written behind the array. -/
theorem payload_never_fits : ¬ Fits rand messageSize threadNum countMsg garbage := by
  rintro ⟨inside, unwrapped⟩
  exact payload_overruns rand messageSize threadNum countMsg garbage unwrapped inside

/-- A configured size of 1024 bytes, of which the terminator is the 1025th. -/
theorem payload_of_1024_overruns :
    ¬ ∀ (rand : Rand) (messageSize threadNum countMsg : Int32) (garbage : Int → Char),
      1 ≤ messageSize → Fits rand messageSize threadNum countMsg garbage := by
  intro always
  let rand : Rand := ⟨fun _ => 0, fun k => ⟨k, le_refl k, by decide⟩⟩
  have fits := always rand 1024 1 0 (fun _ => 'x') (by decide)
  exact payload_overruns rand 1024 1 0 (fun _ => 'x') fits.unwrapped fits.inside

end RealMQ.ClientPayload
