import Mathlib
import AlaFois.Model.BinaryFraming

/-!
# Frames are split where they were put together

The copy of a frame has its bytes, the first of them is the type, and the view behind it has the
data. In the table of handlers a later one takes the place of an earlier one of the same name, and
numbers with the same name are the same.
-/

namespace AlaFois

/-! ### Packing and unpacking -/

lemma packMessage_eq (type : Nat) (data : Uint8Array) :
    ∃ frame, packMessage type data = some frame ∧ frame.bytes = UInt8.ofNat type :: data.bytes := by
  obtain ⟨message, hmessage⟩ : ∃ message, (Uint8Array.zeros (data.length + 1)).set
      (Uint8Array.ofList [UInt8.ofNat type]) 0 = some message := ⟨_, if_pos (by simp)⟩
  have hhead : message.bytes = UInt8.ofNat type :: List.replicate data.length 0 := by
    rw [Uint8Array.bytes_set hmessage]
    simp [List.replicate_succ]
  obtain ⟨frame, hframe⟩ : ∃ frame, message.set data 1 = some frame := by
    refine ⟨_, if_pos ?_⟩
    rw [← Uint8Array.length_bytes message, hhead]
    simp [Nat.add_comm]
  refine ⟨frame, ?_, ?_⟩
  · rw [packMessage, hmessage]
    exact hframe
  · rw [Uint8Array.bytes_set hframe, hhead]
    simp [Nat.add_comm]

/-- The loop copies every byte. -/
lemma bufferToArrayBuffer_eq (buffer : Uint8Array) : bufferToArrayBuffer buffer = buffer.bytes := by
  have hcopy : bufferToArrayBuffer buffer =
      ((Uint8Array.zeros buffer.length).copy buffer 0 buffer.length).buffer := by
    simp [bufferToArrayBuffer, Uint8Array.copy]
  have hwhole : ((Uint8Array.zeros buffer.length).copy buffer 0 buffer.length).Whole :=
    (Uint8Array.whole_ofList _).copy buffer 0 buffer.length
  rw [hcopy, ← hwhole.bytes_eq, Uint8Array.bytes_copy (Nat.le_refl _) (by simp)]
  simp

lemma unpackMessage_nil : unpackMessage [] = none := rfl

lemma unpackMessage_cons (type : UInt8) (data : List UInt8) :
    ∃ view, unpackMessage (type :: data) = some ⟨type.toNat, view⟩ ∧ view.bytes = data := by
  obtain ⟨view, hview⟩ : ∃ view, Uint8Array.ofBuffer (type :: data) 1 = some view :=
    ⟨_, dif_pos (by simp)⟩
  refine ⟨view, ?_, Uint8Array.bytes_ofBuffer hview⟩
  simp [unpackMessage, hview]

/-- A frame with a type packs to itself. -/
lemma packMessage_unpackMessage {frame : List UInt8} (h : frame ≠ []) :
    ∃ message packed, unpackMessage frame = some message ∧
      packMessage message.type message.data = some packed ∧ packed.bytes = frame := by
  obtain ⟨type, data, rfl⟩ := List.exists_cons_of_ne_nil h
  obtain ⟨view, hunpack, hview⟩ := unpackMessage_cons type data
  obtain ⟨packed, hpack, hbytes⟩ := packMessage_eq type.toNat view
  refine ⟨_, packed, hunpack, hpack, ?_⟩
  rw [hbytes, hview, UInt8.ofNat_toNat]

/-! ### The table of handlers -/

/-- The message of a handler is this type: the number, or its text. -/
def HandlerMessage.RegisteredFor (type : Nat) : HandlerMessage → Prop
  | .number value => value = type
  | .string text | .other text => text = type.repr
  | .symbol _ => False

instance (type : Nat) : DecidablePred (HandlerMessage.RegisteredFor type)
  | .number value => inferInstanceAs (Decidable (value = type))
  | .string text | .other text => inferInstanceAs (Decidable (text = type.repr))
  | .symbol _ => isFalse id

lemma HandlerMessage.propertyKey_eq_iff {type : Nat} {message : HandlerMessage} :
    message.propertyKey = .string type.repr ↔ message.RegisteredFor type := by
  cases message with
  | number value =>
    rw [propertyKey, PropertyKey.string.injEq]
    exact Int.repr_inj (b := type)
  | string text => exact PropertyKey.string.injEq _ _ ▸ Iff.rfl
  | symbol id => simp [propertyKey, RegisteredFor]
  | other text => exact PropertyKey.string.injEq _ _ ▸ Iff.rfl

namespace ProtobufWsAdapter

variable {C E V O : Type*}

/-- The handler for this type that was registered last. -/
def lastHandler (type : Nat) (handlers : List (MessageHandler C)) : Option (MessageHandler C) :=
  (handlers.filter fun handler => handler.message.RegisteredFor type).getLast?

lemma get_mapHandlers (type : Nat) (handlers : List (MessageHandler C)) :
    (mapHandlers handlers).get (.string type.repr) =
      (lastHandler type handlers).map MessageHandler.callback := by
  induction handlers using List.reverseRecOn with
  | nil => rfl
  | append_singleton handlers handler ih =>
    have hset : mapHandlers (handlers ++ [handler]) =
        (mapHandlers handlers).set handler.message.propertyKey handler.callback := by
      simp [mapHandlers]
    rw [hset, JsMap.get_set, lastHandler, List.filter_append]
    by_cases hfor : handler.message.RegisteredFor type
    · rw [if_pos (HandlerMessage.propertyKey_eq_iff.mpr hfor).symm]
      simp [hfor]
    · rw [if_neg fun h => hfor (HandlerMessage.propertyKey_eq_iff.mp h.symm), ih]
      simp [hfor, lastHandler]

variable (call : C → Uint8Array → Except E V) (transform : V → Except E O)

/-- A frame without a byte throws, and so nothing is called. -/
lemma bindMessageHandler_nil {buffer : Uint8Array} (h : buffer.bytes = [])
    (handlersMap : JsMap PropertyKey C) :
    bindMessageHandler call transform buffer handlersMap = ⟨[], none⟩ := by
  rw [bindMessageHandler, bufferToArrayBuffer_eq, h, unpackMessage_nil]

/-- What becomes of a value that a callback has returned or thrown. -/
def observed : Except E V → Option O
  | .error _ => none
  | .ok value => (transform value).toOption

lemma bindMessageHandler_cons {buffer : Uint8Array} {type : UInt8} {data : List UInt8}
    (h : buffer.bytes = type :: data) (handlers : List (MessageHandler C)) :
    ∃ view : Uint8Array, view.bytes = data ∧
      bindMessageHandler call transform buffer (mapHandlers handlers) =
        match lastHandler type.toNat handlers with
        | none => ⟨[], none⟩
        | some handler => ⟨[(handler.callback, view)],
            observed transform (call handler.callback view)⟩ := by
  obtain ⟨view, hunpack, hview⟩ := unpackMessage_cons type data
  refine ⟨view, hview, ?_⟩
  rw [bindMessageHandler, bufferToArrayBuffer_eq, h, hunpack]
  simp only [get_mapHandlers]
  cases lastHandler type.toNat handlers with
  | none => rfl
  | some handler =>
    dsimp only [Option.map_some]
    cases call handler.callback view with
    | error e => rfl
    | ok value =>
      cases htransform : transform value with
      | error e => simp [htransform, observed, Except.toOption]
      | ok observable => simp [htransform, observed, Except.toOption]

/-- A packed message, whatever its data and wherever the frame lies in the buffer that arrives, is
given to the handler for its type that was registered last, and to none if there is none. A frame
that is not empty packs to itself, and an empty one calls nothing and gives `EMPTY`. -/
theorem framing_exact :
    (∀ type ≤ 255, ∀ (data : Uint8Array) (handlers : List (MessageHandler C)),
      ∃ frame, packMessage type data = some frame ∧ ∀ buffer : Uint8Array,
        buffer.bytes = frame.bytes → ∃ view : Uint8Array, view.bytes = data.bytes ∧
          bindMessageHandler call transform buffer (mapHandlers handlers) =
            match lastHandler type handlers with
            | none => ⟨[], none⟩
            | some handler => ⟨[(handler.callback, view)],
                observed transform (call handler.callback view)⟩) ∧
    (∀ frame : List UInt8, frame ≠ [] → ∃ message packed, unpackMessage frame = some message ∧
      packMessage message.type message.data = some packed ∧ packed.bytes = frame) ∧
    ∀ buffer : Uint8Array, buffer.bytes = [] → ∀ handlersMap : JsMap PropertyKey C,
      bindMessageHandler call transform buffer handlersMap = ⟨[], none⟩ := by
  refine ⟨fun type htype data handlers => ?_, fun frame h => packMessage_unpackMessage h,
    fun buffer h => bindMessageHandler_nil call transform h⟩
  obtain ⟨frame, hpack, hbytes⟩ := packMessage_eq type data
  refine ⟨frame, hpack, fun buffer hbuffer => ?_⟩
  have htoNat : (UInt8.ofNat type).toNat = type := by
    rw [UInt8.toNat_ofNat']
    exact Nat.mod_eq_of_lt (Nat.lt_succ_of_le htype)
  have hbound := bindMessageHandler_cons call transform (hbuffer.trans hbytes) handlers
  rwa [htoNat] at hbound

/-- Two handlers for one type, the later one under its text, and one for another type. -/
def threeHandlers : List (MessageHandler Nat) :=
  [⟨.number 255, 0⟩, ⟨.string "255", 1⟩, ⟨.number 0, 2⟩]

theorem framing_exact_three : ∃ frame, packMessage 255 (Uint8Array.ofList [7, 0]) = some frame ∧
    ∀ buffer : Uint8Array, buffer.bytes = frame.bytes → ∃ view : Uint8Array, view.bytes = [7, 0] ∧
      (bindMessageHandler (fun _ data => (.ok data.length : Except Unit Nat)) Except.ok buffer
        (mapHandlers threeHandlers)).calls = [(1, view)] := by
  obtain ⟨frame, hpack, hbound⟩ := (framing_exact
    (fun (_ : Nat) data => (.ok data.length : Except Unit Nat)) Except.ok).1 255 (by decide)
    (Uint8Array.ofList [7, 0]) threeHandlers
  refine ⟨frame, hpack, fun buffer hbuffer => ?_⟩
  obtain ⟨view, hview, hcalls⟩ := hbound buffer hbuffer
  refine ⟨view, hview, ?_⟩
  have hlast : lastHandler 255 threeHandlers = some ⟨.string "255", 1⟩ := by decide
  rw [hcalls, hlast]

end ProtobufWsAdapter

end AlaFois
