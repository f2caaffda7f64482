import Sigil.Failure

/-!
# Output

Output goes nowhere, into a text, or to a device that takes bytes.  A device may have limited room:
it then takes what fits and turns down the rest.
-/

namespace Sigil

/-- What a device does with bytes for which it has no room. -/
inductive Device.Overflow where
  /-- Refuses them with a reason. -/
  | refuse (reason : String)
  /-- Takes none of them and says nothing. -/
  | ignore
deriving DecidableEq, Repr

/-- A place where bytes are written. -/
structure Device where
  written : ByteArray := .empty
  /-- The number of bytes that still fit; no limit if there is none. -/
  room : Option Nat := none
  overflow : Device.Overflow := .refuse "pipe closed"
  /-- The reason why the device cannot be flushed. -/
  flushFault : Option String := none

namespace Device

/-- The reason for which a write ends early. -/
def Overflow.reason : Overflow → String
  | .refuse reason => reason
  | .ignore => "failed to write whole buffer"

/-- Writes bytes, as many of them as fit. -/
def write (d : Device) (bytes : ByteArray) : Except Failure Unit × Device :=
  match d.room with
  | none => (.ok (), { d with written := d.written ++ bytes })
  | some room =>
    if bytes.size ≤ room then
      (.ok (), { d with written := d.written ++ bytes, room := some (room - bytes.size) })
    else
      (.error (.ofDevice d.overflow.reason),
        { d with written := d.written ++ bytes.extract 0 room, room := some 0 })

/-- Makes sure that everything written has arrived. -/
def flush (d : Device) : Except Failure Unit :=
  match d.flushFault with
  | none => .ok ()
  | some reason => .error (.ofDevice reason)

end Device

/-- Where output goes. -/
inductive Sink where
  | discard
  | text (written : String)
  | device (d : Device)

namespace Sink

/-- Writes a text. -/
def emit (s : Sink) (text : String) : Except Failure Unit × Sink :=
  match s with
  | .discard => (.ok (), .discard)
  | .text written => (.ok (), .text (written ++ text))
  | .device d =>
    let (result, d) := d.write text.toUTF8
    (result, .device d)

/-- Writes a character. -/
def emitChar (s : Sink) (c : Char) : Except Failure Unit × Sink := s.emit (String.singleton c)

/-- Makes sure that everything written has arrived. -/
def flush : Sink → Except Failure Unit
  | .device d => d.flush
  | _ => .ok ()

/-- The bytes written so far. -/
def bytes : Sink → ByteArray
  | .discard => .empty
  | .text written => written.toUTF8
  | .device d => d.written

/-- The text written so far, for a sink that keeps text. -/
def contents : Sink → String
  | .text written => written
  | _ => ""

end Sink

end Sigil
