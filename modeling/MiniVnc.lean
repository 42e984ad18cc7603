import MiniVnc.Library.Memory
import MiniVnc.Library.Stream
import MiniVnc.Library.Loop
import MiniVnc.Library.Accesses
import MiniVnc.Library.Descriptors
import MiniVnc.Library.Switches
import MiniVnc.Library.FirstMatch
import MiniVnc.Library.Sink
import MiniVnc.Library.Stretches
import MiniVnc.Messages
import MiniVnc.SessionError
import MiniVnc.Parser.Fragments
import MiniVnc.Parser.WholeStream
import MiniVnc.Parser.Refinement
import MiniVnc.Parser.Segmentation
import MiniVnc.Parser.Progress
import MiniVnc.Parser.WireFormat
import MiniVnc.Parser.RoundTrip
import MiniVnc.Parser.CutText
import MiniVnc.FrameBuffer.Luts
import MiniVnc.FrameBuffer.Rows
import MiniVnc.FrameBuffer.Update
import MiniVnc.FrameBuffer.DirtyRect
import MiniVnc.FrameBuffer.Palette
import MiniVnc.Updates.UpdateRequest
import MiniVnc.Updates.Response
import MiniVnc.Updates.Serving
import MiniVnc.Updates.Offered
import MiniVnc.Updates.Framing
import MiniVnc.Updates.ShortSends
import MiniVnc.Updates.Mirror
import MiniVnc.Updates.Repaint
import MiniVnc.Kernel.Crc32
import MiniVnc.Updates.PaletteRuns
import MiniVnc.Keyboard.Keysyms
import MiniVnc.Kernel.KeyMap
import MiniVnc.Keyboard.Kchr
import MiniVnc.Keyboard.Layout
import MiniVnc.Keyboard.Inverse
import MiniVnc.Keyboard.Bounds
import MiniVnc.Keyboard.Routes
import MiniVnc.Keyboard.KeyEvents
import MiniVnc.Keyboard.Injection
import MiniVnc.Keyboard.Unmapped
import MiniVnc.Keyboard.HeldKeys
import MiniVnc.Keyboard.HeldModifiers
import MiniVnc.Keyboard.Typing
import MiniVnc.Sessions.Server
import MiniVnc.Sessions.Session
import MiniVnc.Sessions.Handshake
import MiniVnc.Sessions.Resources
import MiniVnc.Sessions.SetUp
import MiniVnc.FrameBuffer.Bounds
import MiniVnc.Sessions.Messages
import MiniVnc.Sessions.ScreenSizes
import MiniVnc.Sessions.Uninitialised
import MiniVnc.Sessions.PixelFormats
import MiniVnc.Sessions.FirstPalette
import MiniVnc.Updates.PaletteEdits
import MiniVnc.FrameBuffer.ExactDirty
import MiniVnc.FrameBuffer.RowWidths
import MiniVnc.Keyboard.KeysymPages
import MiniVnc.Keyboard.DeadRecords
import MiniVnc.Parser.SourceReads
import MiniVnc.FrameBuffer.ScreenReads
import MiniVnc.Kernel.Indices
import MiniVnc.Kernel.Chunks
import MiniVnc.Kernel.Phys
import MiniVnc.Library.Reading
import MiniVnc.Parser.Calls
import MiniVnc.Keyboard.Texts
import MiniVnc.Sessions.WholeStream
import MiniVnc.Sessions.Conversation
import MiniVnc.Sessions.Viewer
import MiniVnc.Sessions.Picture
import MiniVnc.Sessions.Inputs
import MiniVnc.Sessions.TypedText
import MiniVnc.Parser.SlowOnly
import MiniVnc.Library.Interrupts
import MiniVnc.Kernel.Devices
import MiniVnc.Kernel.Snapshots
import MiniVnc.Kernel.Pointer
import MiniVnc.Kernel.MouseReports
import MiniVnc.Kernel.KeyCalls
import MiniVnc.Sessions.Ioctls
import MiniVnc.Kernel.ModeTable
import MiniVnc.Kernel.SharedPalette
import MiniVnc.Updates.SharedRuns
import MiniVnc.Sessions.SharedDriver
import MiniVnc.Sessions.KeysLeft
import MiniVnc.Sessions.Differences
import MiniVnc.Sessions.Mapping
import MiniVnc.Library.Machines
import MiniVnc.Parser.Language
import MiniVnc.Sessions.Causes
