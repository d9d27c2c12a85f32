import TapeSalvage.Bytes

/-!
Program images and their assembly. An image is the bytes of a program and the address they load at;
a program file is that address as a word, followed by the bytes. A program is assembled from the
payloads of its blocks, which are joined and cut off at the length that the header declares. One
that comes out short is kept, with a note of what is missing.
-/
namespace TapeSalvage.Program

structure Image where
  loadAddress : Nat
  body : Bytes
  deriving DecidableEq

namespace Image

def bytes (image : Image) : Bytes := Bytes.ofWord image.loadAddress ++ image.body

def create (loadAddress : Int) (body : Bytes) : Image := ⟨(loadAddress % 65536).toNat, body⟩

def ofBytes : Bytes → Except Fault Image
  | low :: high :: body => .ok ⟨word low high, body⟩
  | short => .error (.imageTooSmall short.length)

end Image

def lengthLimit : Int := 1000000

structure Shortfall where
  declared : Nat
  assembled : Nat
  missing : Nat
  deriving DecidableEq

structure Assembly where
  image : Image
  declared : Nat
  shortfall : Option Shortfall
  deriving DecidableEq

def Shortfall.of? (declared assembled : Nat) : Option Shortfall :=
  if assembled < declared then some ⟨declared, assembled, declared - assembled⟩ else none

/-- Assembles the program that starts at one address and ends before another. -/
def assemble (limit start finish : Int) (payloads : List Bytes) : Except Fault Assembly :=
  let declared := Amount.roundInt (finish - start)
  if declared ≤ 0 || limit < declared then .error (.lengthOutOfRange start finish)
  else
    let body := payloads.flatten.take declared.toNat
    .ok ⟨.create start body, declared.toNat, Shortfall.of? declared.toNat body.length⟩

end TapeSalvage.Program
