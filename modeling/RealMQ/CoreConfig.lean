import RealMQ.CStrings
import RealMQ.Foundation.Locks

/- get_address of common/core/config.c. -/
namespace RealMQ.CoreConfig
open CStrings Locks

inductive Mutex where
  | gIpAddressMutex
  | messageIdsMutex
  | gArrayMutex
  deriving DecidableEq

structure Config where
  mainAddress : CString
  responderAddress : CString
  protocol : CString

/-- An argument of a C enumeration may be any number. -/
inductive AddressType where
  | mainAddress
  | responderAddress
  | other (value : Nat)
  deriving DecidableEq

def addressOf (config : Config) : AddressType → Option CString
  | .mainAddress => some config.mainAddress
  | .responderAddress => some config.responderAddress
  | .other _ => none

def fullAddress (config : Config) (address : CString) : CString :=
  config.protocol ++ "://".toList ++ address

/-- The returned pointer is also the new g_ip_address. -/
def getAddress (config : Config) (alloc : Bool) (addressType : AddressType) (held : Finset Mutex) :
    Option (Option CString × Finset Mutex) :=
  (lock held .gIpAddressMutex).map fun held =>
    if alloc = false then (none, held)
    else
      match addressOf config addressType with
      | none => (none, held)
      | some address =>
          if 64 ≤ (fullAddress config address).length then (none, held)
          else (some (fullAddress config address), unlock held .gIpAddressMutex)

def Composes (config : Config) (alloc : Bool) (addressType : AddressType) : Prop :=
  alloc = true ∧ ∃ address, addressOf config addressType = some address ∧
    (fullAddress config address).length < 64

section Calls
variable {config : Config} {alloc : Bool} {addressType : AddressType} {held : Finset Mutex}

theorem getAddress_composes (free : .gIpAddressMutex ∉ held) (good : Composes config alloc addressType) :
    ∃ text, getAddress config alloc addressType held = some (some text, held) := by
  obtain ⟨rfl, address, known, short⟩ := good
  refine ⟨fullAddress config address, ?_⟩
  simp only [getAddress, lock_free free, Option.map_some, known, unlock_insert free]
  rw [if_neg Bool.noConfusion, if_neg (by omega)]

theorem getAddress_keeps (free : .gIpAddressMutex ∉ held)
    (bad : ¬ Composes config alloc addressType) :
    getAddress config alloc addressType held = some (none, insert .gIpAddressMutex held) := by
  simp only [getAddress, lock_free free, Option.map_some]
  cases alloc with
  | false => rw [if_pos rfl]
  | true =>
    rw [if_neg Bool.noConfusion]
    cases known : addressOf config addressType with
    | none => rfl
    | some address =>
      have long : 64 ≤ (fullAddress config address).length := by
        by_contra short
        exact bad ⟨rfl, address, known, by omega⟩
      dsimp only
      rw [if_pos long]

end Calls

end RealMQ.CoreConfig
