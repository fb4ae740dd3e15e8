import Southbound.Message.Json

/-!
# The wire

The wire takes frames from a connection to its device.  It holds so many frames
that the device has not read, and no more: a frame is put on it only if there is
room.

All frames that were ever put on a wire are kept in their order, with the number
of those that were read, so what the device has seen and what it has not are two
parts of one list (`Wire.read_append_unread`).
-/

namespace Southbound

/-- The way from a connection to its device. -/
structure Wire where
  /-- How many unread frames it holds at most. -/
  capacity : Nat := 64
  /-- The frames that were put on it, in order. -/
  sent : List Frame := []
  /-- How many of them were read. -/
  taken : Nat := 0
  /-- Whether the device still reads. -/
  isOpen : Bool := true
deriving Inhabited

namespace Wire

/-- The frames that the device has read. -/
def read (w : Wire) : List Frame := w.sent.take w.taken

/-- The frames that the device has not read. -/
def unread (w : Wire) : List Frame := w.sent.drop w.taken

/-- Whether there is room for a frame. -/
def hasRoom (w : Wire) : Bool := w.unread.length < w.capacity

def put (w : Wire) (f : Frame) : Wire := { w with sent := w.sent ++ [f] }

/-- The next frame that the device reads, if there is one, and the wire without
it. -/
def take? (w : Wire) : Option (Frame × Wire) :=
  if w.isOpen then w.unread.head?.map fun f => (f, { w with taken := w.taken + 1 }) else none

/-- The wire when the device does not read any more. -/
def close (w : Wire) : Wire := { w with isOpen := false }

theorem read_append_unread (w : Wire) : w.read ++ w.unread = w.sent :=
  List.take_append_drop w.taken w.sent

end Wire

end Southbound
