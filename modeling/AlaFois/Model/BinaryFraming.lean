import AlaFois.Lib.JsMap
import AlaFois.Lib.TypedArray

/-!
# Frames with a type

A binary frame is one byte with the type of the message and after it the data. `ProtobufWsAdapter`
splits the frames it receives and calls the handler of the type.
-/

namespace AlaFois

/-! ### `message.ts` and `buffer.ts` -/

/-- `none` is a `RangeError`; the byte is the type modulo 256. -/
def packMessage (type : Nat) (data : Uint8Array) : Option Uint8Array :=
  let message := Uint8Array.zeros (data.length + 1)
  match message.set (Uint8Array.ofList [UInt8.ofNat type]) 0 with
  | none => none
  | some message => message.set data 1

structure UnpackedMessage where
  type : Nat
  data : Uint8Array

/-- `none` is the `RangeError` of `getUint8`, or the one of the view behind the type. -/
def unpackMessage (message : List UInt8) : Option UnpackedMessage :=
  match message[0]? with
  | none => none
  | some type =>
    match Uint8Array.ofBuffer message 1 with
    | none => none
    | some data => some ⟨type.toNat, data⟩

def bufferToArrayBuffer (buffer : Uint8Array) : List UInt8 :=
  let view := Uint8Array.zeros buffer.length
  ((List.range buffer.length).foldl (fun view i => view.put i ((buffer.get i).getD 0)) view).buffer

/-! ### The handlers -/

inductive PropertyKey
  | string (name : String)
  | symbol (id : Nat)
deriving DecidableEq

/-- The `message` of a handler, which may be any value; of an object, and of a number that is no
integer below 10^21, what counts is its text. -/
inductive HandlerMessage
  | number (value : Int)
  | string (value : String)
  | symbol (id : Nat)
  | other (text : String)
deriving DecidableEq

/-- The property that `acc[handler.message]` names. -/
def HandlerMessage.propertyKey : HandlerMessage → PropertyKey
  | .number value => .string value.repr
  | .string value => .string value
  | .symbol id => .symbol id
  | .other text => .string text

/-- `MessageMappingProperties`; of the callbacks only the names matter here. -/
structure MessageHandler (C : Type*) where
  message : HandlerMessage
  callback : C
deriving DecidableEq

namespace ProtobufWsAdapter

variable {C E V O : Type*}

def mapHandlers (handlers : List (MessageHandler C)) : JsMap PropertyKey C :=
  handlers.foldl (fun acc handler => acc.set handler.message.propertyKey handler.callback)
    JsMap.empty

/-- The callbacks that are called and with what, and the observable, where `none` is `EMPTY`. -/
structure Bound (C O : Type*) where
  calls : List (C × Uint8Array)
  observable : Option O

/-- What is thrown is caught, and the result is `EMPTY`. A type without a callback throws too, when
`undefined` is called. -/
def bindMessageHandler (call : C → Uint8Array → Except E V) (transform : V → Except E O)
    (buffer : Uint8Array) (handlersMap : JsMap PropertyKey C) : Bound C O :=
  match unpackMessage (bufferToArrayBuffer buffer) with
  | none => ⟨[], none⟩
  | some unpackedMessage =>
    match handlersMap.get (.string unpackedMessage.type.repr) with
    | none => ⟨[], none⟩
    | some callback =>
      match call callback unpackedMessage.data with
      | .error _ => ⟨[(callback, unpackedMessage.data)], none⟩
      | .ok value =>
        match transform value with
        | .error _ => ⟨[(callback, unpackedMessage.data)], none⟩
        | .ok observable => ⟨[(callback, unpackedMessage.data)], some observable⟩

end ProtobufWsAdapter

end AlaFois
