import MiniVnc.Library.Reading
import MiniVnc.Sessions.FirstPalette
import MiniVnc.Updates.Mirror

/-! A viewer that keeps the pixels and the colour map it is sent shows the Mac's picture, in
the Mac's colours.
-/

namespace MiniVnc
open Library.Memory Library.Stream Library.Reading

/-- What a viewer keeps: the pixels, and the colour of each of their values. -/
structure Viewer where
  pixels : Mirror
  colours : Nat → VNCColour

/-- The colour that a viewer shows at a place. -/
def Viewer.shown (viewer : Viewer) (x y : Nat) : VNCColour :=
  viewer.colours (viewer.pixels x y).toNat

/-- The colour map after the entries that a SetColourMapEntries message at `mem` sets. -/
def recolour (mem : Mem) (colours : Nat → VNCColour) : Nat → VNCColour := fun i =>
  let first := (ushortAt mem 2).toNat
  if first ≤ i ∧ i < first + (ushortAt mem 4).toNat then
    .at mem (6 + 6 * (i - first))
  else
    colours i

/-- Read one server message. -/
def viewMessage : Reader UInt8 Viewer := fun bytes viewer => do
  let (rest, pixels) ← receiveMessage bytes viewer.pixels
  if bytes.head? = some ServerMessageType.mSetCMapEntries.code then
    return (rest, { viewer with colours := recolour (load bytes) viewer.colours })
  else
    return (rest, { viewer with pixels })

/-- Read all that the server sends in its message phase. -/
def view (bytes : List UInt8) (viewer : Viewer) : Option Viewer :=
  readAll viewMessage bytes.length bytes viewer

-----------------------------------------------------------------------------------------
-- Server messages
-----------------------------------------------------------------------------------------

/-- The messages that the server sends. -/
inductive ServerMessage where
  | colourMap (colours : List VNCColour)
  | update (rect : VNCRect) (body : List UInt8)
deriving Repr, DecidableEq

def ServerMessage.bytes : ServerMessage → List UInt8
  | .colourMap colours => colourMapHeader.bytes ++ colours.flatMap VNCColour.bytes
  | .update rect body => (updateHeader rect).bytes ++ body

/-- What a message does to a viewer. -/
def ServerMessage.apply (viewer : Viewer) : ServerMessage → Viewer
  | .colourMap colours => { viewer with colours := fun i => colours.getD i (viewer.colours i) }
  | .update rect body => { viewer with pixels := overwrite rect body viewer.pixels }

/-- The message is as long as its header says. -/
def ServerMessage.Framed : ServerMessage → Prop
  | .colourMap colours => colours.length = 256
  | .update rect body => body.length = rect.w.toNat * rect.h.toNat

/-- The messages of a response, the colour map first. -/
def Response.messages (response : Response) : List ServerMessage :=
  (response.colourMap.map ServerMessage.colourMap).toList ++ [.update response.rect response.body]

theorem Response.messages_bytes (response : Response)
    : response.messages.flatMap ServerMessage.bytes = response.bytes := by
  obtain ⟨map, rect, body⟩ := response
  cases map with
  | none => simp [messages, Response.bytes, ServerMessage.bytes]
  | some colours => simp [messages, Response.bytes, ServerMessage.bytes]

theorem WellFramed.messages {vi : Video} {fb : FrameBuffer} {response : Response}
    (framed : WellFramed vi fb response)
    : ∀ message ∈ response.messages, message.Framed := by
  intro message member
  rcases List.mem_append.mp member with map | update
  · obtain ⟨colours, sent, rfl⟩ := Option.map_eq_some_iff.mp (Option.mem_toList.mp map)
    exact (framed.colours colours sent).2.2.1
  · cases List.mem_singleton.mp update
    exact framed.length

/-- A framed message is read as what it does, whatever follows it. -/
theorem ServerMessage.Framed.reads {message : ServerMessage} (framed : message.Framed)
    : Reads viewMessage message.bytes message.apply := by
  cases message with
  | colourMap colours =>
      refine ⟨List.cons_ne_nil _ _, fun rest viewer => ?_⟩
      have map : (colourMapHeader.bytes ++ colours.flatMap VNCColour.bytes ++ rest).head?
          = some ServerMessageType.mSetCMapEntries.code := rfl
      have count : ushortAt
          (load (colourMapHeader.bytes ++ colours.flatMap VNCColour.bytes ++ rest)) 4 = 256 :=
        ushortAt_eq rfl rfl
      have first : ushortAt
          (load (colourMapHeader.bytes ++ colours.flatMap VNCColour.bytes ++ rest)) 2 = 0 :=
        ushortAt_eq rfl rfl
      have recoloured
          : recolour (load (colourMapHeader.bytes ++ colours.flatMap VNCColour.bytes ++ rest))
              viewer.colours
            = fun i => colours.getD i (viewer.colours i) := by
        funext i
        have zero : (0 : UInt16).toNat = 0 := rfl
        have length : colours.length = (256 : UInt16).toNat := framed
        simp only [recolour, count, first, zero, Nat.zero_le, true_and, Nat.zero_add,
          Nat.sub_zero, ← length]
        split
        · rename_i inside
          rw [List.append_assoc]
          refine (VNCColour.at_append colourMapHeader.bytes _ (6 * i)).trans ?_
          rw [VNCColour.at_flatMap colours rest inside, List.getD_eq_getElem _ _ inside]
        · rename_i outside
          rw [List.getD_eq_default _ _ (Nat.le_of_not_lt outside)]
      simp only [viewMessage, ServerMessage.bytes]
      rw [receiveMessage_colourMap rest viewer.pixels framed]
      simp only [Option.bind_eq_bind, Option.bind_some, if_pos map, recoloured]
      rfl
  | update rect body =>
      refine ⟨List.cons_ne_nil _ _, fun rest viewer => ?_⟩
      simp only [viewMessage, ServerMessage.bytes]
      rw [receiveMessage_update rect rest viewer.pixels framed]
      simp only [Option.bind_eq_bind, Option.bind_some]
      rfl

/-- All messages of a stream are shown in turn. -/
theorem view_messages {messages : List ServerMessage}
    (framed : ∀ message ∈ messages, message.Framed) (viewer : Viewer)
    : view (messages.flatMap ServerMessage.bytes) viewer
      = some (messages.foldl ServerMessage.apply viewer) :=
  readAll_flatMap (fun message member => (framed message member).reads) (Nat.le_refl _) viewer

end MiniVnc
