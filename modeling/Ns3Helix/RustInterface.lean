import Ns3Helix.InteractionProgram
import Ns3Helix.SocketInterface

/-!
# The Rust library and its C++ wrapper

Every function of the Rust library prints one line and returns a constant or
its argument. `HelixRsInterface` calls them and converts packets to shared
buffers and back; the conversions are stubs that drop the packet, and `Recv`
returns the packet it was given. The wrapper is a program over any local
operations that include printing.
-/

set_option autoImplicit false

namespace Ns3Helix.RustInterface
open Ns3Helix.InteractionProgram Ns3Helix.SocketInterface

structure FFISharedBuffer where
  ptr : UInt64
  len : UInt64
  state : UInt64
  deriving DecidableEq, Repr

def FFISharedBuffer.zero : FFISharedBuffer := ⟨0,0,0⟩

structure RustCall (α : Type) where
  printed : String
  returned : α

def helixRsBind : RustCall UInt8 := ⟨"HELIX - RS: Bind",0⟩

def helixRsConnect : RustCall UInt8 := ⟨"HELIX - RS: Connect",0⟩

def helixRsListen : RustCall UInt8 := ⟨"HELIX - RS: Listen",0⟩

def helixRsRecv (packet : FFISharedBuffer) : RustCall FFISharedBuffer :=
  ⟨"HELIX - RS: Recv packet",packet⟩

def helixRsSend (_packet : FFISharedBuffer) : RustCall Unit := ⟨"HELIX - RS: Send packet",()⟩

def helixRsClose : RustCall UInt8 := ⟨"HELIX - RS: Close Socket",0⟩

namespace HelixRsInterface

variable {P : Platform} {L X : Signature} (print : String → Program L X Unit)

def call {α : Type} (rust : RustCall α) : Program L X α := do
  print rust.printed
  return rust.returned

def convertPacketToFFIBuff (_p : Option P.Packet) : FFISharedBuffer := .zero

def convertFFIBuffToPacket (_b : FFISharedBuffer) : Option P.Packet := none

def bind (_address : P.Address) : Program L X Int32 := do
  let _ ← call print helixRsBind
  return 0

def connect (_address : P.Address) : Program L X Int32 := do
  let _ ← call print helixRsConnect
  return 0

def listen : Program L X Int32 := do
  let _ ← call print helixRsListen
  return 0

def recv (p : Option P.Packet) : Program L X (Option P.Packet) := do
  let buff := convertPacketToFFIBuff p
  let decodedBuff ← call print (helixRsRecv buff)
  let _decodedPacket : Option P.Packet := convertFFIBuffToPacket decodedBuff
  -- the decoded packet is not returned yet
  return p

def send (_p : Option P.Packet) : Program L X Int32 := do
  call print (helixRsSend .zero)
  return 0

def close : Program L X Int32 := do
  let _ ← call print helixRsClose
  return 0

end HelixRsInterface

end Ns3Helix.RustInterface
