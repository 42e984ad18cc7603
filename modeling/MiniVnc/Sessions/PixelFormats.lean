import MiniVnc.Sessions.Messages
import MiniVnc.Sessions.ScreenSizes

/-! Which of the pixel formats that are accepted the updates are sent in. -/

namespace MiniVnc
open Library.Memory Library.Loop Library.Stream

end MiniVnc
