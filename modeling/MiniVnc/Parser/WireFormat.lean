import MiniVnc.Parser.WholeStream

/-! The client's side of the wire: RFB messages, their bytes, and the handler calls a server
owes them.
-/

namespace MiniVnc.Parser
open Library.Memory Library.Stream

/-- The messages a client sends, with the fields it chooses. -/
inductive ClientMessage where
  | setPixelFormat (padding : Padding) (format : VNCPixelFormat)
  | setEncodings (padding : UInt8) (encodings : List UInt32)
  | fbUpdateRequest (incremental : UInt8) (rect : VNCRect)
  | keyEvent (down : UInt8) (padding : UInt16) (key : UInt32)
  | pointerEvent (btnMask : UInt8) (x y : UInt16)
  | clientCutText (padding : Padding) (text : List UInt8)
deriving Repr, DecidableEq

namespace ClientMessage

/-- The counts and lengths fit their fields, and a pixel format is one the server accepts. -/
def WellFormed : ClientMessage → Prop
  | setPixelFormat _ format => format.trueColour = 0 ∧ format.depth = 8
  | setEncodings _ encodings => encodings.length < 2 ^ 16
  | clientCutText _ text => text.length < 2 ^ 32
  | _ => True

instance (message : ClientMessage) : Decidable message.WellFormed := by
  cases message <;> unfold WellFormed <;> infer_instance

/-- The cut text a message carries. -/
def text : ClientMessage → List UInt8
  | clientCutText _ text => text
  | _ => []

def IsCutText : ClientMessage → Prop
  | clientCutText _ _ => True
  | _ => False

end ClientMessage

/-- The four-byte head of a SetEncodings message with `count` encodings to come. -/
def encodingsHead (padding : UInt8) (count : Nat) : VNCSetEncoding :=
  ⟨ClientMessageType.mSetEncodings.code, padding, UInt16.ofNat count⟩

namespace ClientMessage

/-- The struct that starts a message, in wire order. -/
def head : ClientMessage → List UInt8
  | setPixelFormat padding format =>
      VNCSetPixFormat.bytes ⟨ClientMessageType.mSetPixelFormat.code, padding, format⟩
  | setEncodings padding encodings => (encodingsHead padding encodings.length).bytes
  | fbUpdateRequest incremental rect =>
      VNCFBUpdateReq.bytes ⟨ClientMessageType.mFBUpdateRequest.code, incremental, rect⟩
  | keyEvent down padding key =>
      VNCKeyEvent.bytes ⟨ClientMessageType.mKeyEvent.code, down, padding, key⟩
  | pointerEvent btnMask x y =>
      VNCPointerEvent.bytes ⟨ClientMessageType.mPointerEvent.code, btnMask, x, y⟩
  | clientCutText padding text =>
      VNCClientCutText.bytes
        ⟨ClientMessageType.mClientCutText.code, padding, UInt32.ofNat text.length⟩

/-- The encodings or the text a message announces in its struct. -/
def payload : ClientMessage → List UInt8
  | setEncodings _ encodings => encodings.flatMap ulongBytes
  | clientCutText _ text => text
  | _ => []

/-- The bytes of a message. -/
def encode (message : ClientMessage) : List UInt8 := message.head ++ message.payload

/-- One fragment for each encoding; the count each arrives with counts itself. -/
def encodingEvents (padding : UInt8) : List UInt32 → List Event
  | [] => []
  | encoding :: rest =>
      .setEncodingOne
          ⟨ClientMessageType.mSetEncodings.code, padding, UInt16.ofNat (rest.length + 1),
            encoding⟩
        :: encodingEvents padding rest

/-- The handler calls a message is due. -/
def events : ClientMessage → List Event
  | setPixelFormat padding format =>
      [.setPixelFormat ⟨ClientMessageType.mSetPixelFormat.code, padding, format⟩]
  | setEncodings padding encodings =>
      .setEncoding (encodingsHead padding encodings.length) :: encodingEvents padding encodings
  | fbUpdateRequest incremental rect =>
      [.updateRequest ⟨ClientMessageType.mFBUpdateRequest.code, incremental, rect⟩]
  | keyEvent down padding key =>
      [.key ⟨ClientMessageType.mKeyEvent.code, down, padding, key⟩]
  | pointerEvent btnMask x y =>
      [.pointer ⟨ClientMessageType.mPointerEvent.code, btnMask, x, y⟩]
  | clientCutText padding text =>
      [.clientCutText
        ⟨ClientMessageType.mClientCutText.code, padding, UInt32.ofNat text.length⟩]

end ClientMessage

theorem VNCSetPixFormat.at_bytes (evt : VNCSetPixFormat) : .at (load evt.bytes) 0 = evt := by
  obtain ⟨message, padding, format⟩ := evt
  simp only [VNCSetPixFormat.at, VNCSetPixFormat.mk.injEq, VNCPixelFormat.at]
  refine ⟨rfl, rfl, ?_⟩
  obtain ⟨_, _, _, _, _, _, _, _, _, _, _⟩ := format
  simp only [VNCPixelFormat.mk.injEq]
  exact ⟨rfl, rfl, rfl, rfl, ushortAt_eq rfl rfl, ushortAt_eq rfl rfl, ushortAt_eq rfl rfl,
    rfl, rfl, rfl, rfl⟩

theorem VNCSetEncoding.at_bytes (evt : VNCSetEncoding) : .at (load evt.bytes) 0 = evt := by
  obtain ⟨_, _, _⟩ := evt
  simp only [VNCSetEncoding.at, VNCSetEncoding.mk.injEq]
  exact ⟨rfl, rfl, ushortAt_eq rfl rfl⟩

theorem VNCFBUpdateReq.at_bytes (evt : VNCFBUpdateReq) : .at (load evt.bytes) 0 = evt := by
  obtain ⟨message, incremental, rect⟩ := evt
  simp only [VNCFBUpdateReq.at, VNCFBUpdateReq.mk.injEq, VNCRect.at]
  refine ⟨rfl, rfl, ?_⟩
  obtain ⟨_, _, _, _⟩ := rect
  simp only [VNCRect.mk.injEq]
  exact ⟨ushortAt_eq rfl rfl, ushortAt_eq rfl rfl, ushortAt_eq rfl rfl, ushortAt_eq rfl rfl⟩

theorem VNCKeyEvent.at_bytes (evt : VNCKeyEvent) : .at (load evt.bytes) 0 = evt := by
  obtain ⟨_, _, _, _⟩ := evt
  simp only [VNCKeyEvent.at, VNCKeyEvent.mk.injEq]
  exact ⟨rfl, rfl, ushortAt_eq rfl rfl, ulongAt_eq rfl rfl rfl rfl⟩

theorem VNCPointerEvent.at_bytes (evt : VNCPointerEvent) : .at (load evt.bytes) 0 = evt := by
  obtain ⟨_, _, _, _⟩ := evt
  simp only [VNCPointerEvent.at, VNCPointerEvent.mk.injEq]
  exact ⟨rfl, rfl, ushortAt_eq rfl rfl, ushortAt_eq rfl rfl⟩

theorem VNCClientCutText.at_bytes (evt : VNCClientCutText) : .at (load evt.bytes) 0 = evt := by
  obtain ⟨_, _, _⟩ := evt
  simp only [VNCClientCutText.at, VNCClientCutText.mk.injEq]
  exact ⟨rfl, rfl, ulongAt_eq rfl rfl rfl rfl⟩

end MiniVnc.Parser
