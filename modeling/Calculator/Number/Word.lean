import Calculator.Number.Binary

/-!
Words of 32 bits. An integral float of any size stands for the word of its low
bits, and a word is read as an unsigned or as a two's complement number. A shift
counts modulo 32.
-/
namespace Calculator.Number

/-- What a float has behind its point, with the sign of the float. -/
def fraction (x : Float) : Float := remainder x 1

def isIntegral (x : Float) : Bool := x.isFinite && fraction x == 0

/-- The remainder of a division that is not negative. -/
def euclideanRemainder (x y : Float) : Float :=
  let r := remainder x y
  if r < 0 then r + y.abs else r

abbrev Word := BitVec 32

namespace Word

/-- The low bits of an integral float. Behind the remainder there is nothing left
    to clamp. -/
def ofFloat (x : Float) : Word := (euclideanRemainder x 4294967296).toUInt32.toBitVec

/-- The number of places that a word shifts by. -/
def shiftCount (w : Word) : Nat := w.toNat % 32

/-- Both words' bits, read as two's complement. -/
def and (m n : Word) : Int := (m &&& n).toInt

/-- Either word's bits, read as two's complement. -/
def or (m n : Word) : Int := (m ||| n).toInt

/-- The bits in which the words differ, read as two's complement. -/
def xor (m n : Word) : Int := (m ^^^ n).toInt

/-- The word moved toward its high bits, read as two's complement. -/
def shiftLeft (m n : Word) : Int := (m <<< n.shiftCount).toInt

/-- The word moved toward its low bits under its sign, read as two's complement. -/
def shiftRight (m n : Word) : Int := (m.sshiftRight n.shiftCount).toInt

/-- The word moved toward its low bits under zeros, read as unsigned. -/
def shiftRightUnsigned (m n : Word) : Int := (m >>> n.shiftCount).toNat

end Word

end Calculator.Number
